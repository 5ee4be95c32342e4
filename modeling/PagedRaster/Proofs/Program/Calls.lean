import PagedRaster.Proofs.Program.Pieces

/-
  This file reads the functions of a text: which names are
  defined and as what entry points, what the body of a
  function holds, and which names are called.  A function
  of a program is read back from its lines.

  Key definitions include:
    * `Token.callee?`
    * `Piece.calls`, `Piece.defined`, `Piece.entryPoints`
    * `Text.called`, `Text.defined`, `Text.entryPoints`
    * `Text.body`
    * `Definition`, `Token.Outline`
    * `Lines.Calls`, `ProgramFunction.Reads`

  Key theorems include:
    * `Token.Outline.append`
    * `Lines.Calls.append`, `Lines.Calls.block`
    * `ProgramFunction.Reads.outline`
    * `Definition.bodyOf_eq`
-/

namespace PagedRaster

------------------------------------------------------------
-- Calls
------------------------------------------------------------

namespace Token

/- The mark of an attribute. -/
def atSign : Token :=
  [64]

/- The word that starts a definition. -/
def define : Token :=
  Text.bytes "fn"

/- The words of statements that brackets may follow. -/
def statementWords : List Token :=
  ["return", "if", "switch", "while", "for"].map Text.bytes

/- Marks of angle brackets. -/
def less : Token :=
  [60]

def greater : Token :=
  [62]

/-
  What a round bracket calls, by the tokens in front of it,
  the last one first: a word, or a word with a type in
  angle brackets, as in `vec4<f32>(`.  A type that is more
  than one token is not read, and `>` is called instead.

  Nothing is called by the bracket of a definition, of an
  attribute or of a statement, nor by one that follows no
  word and just groups.
-/
def callee? : List Token → Option Token
  | [] => none
  | token :: before =>
      if token = greater then
        match before with
        | _ :: opening :: template :: _ =>
            some (if opening = less then template else token)
        | _ => some token
      else if token.all Text.isWordByte = false ∨
          token ∈ statementWords ∨
          before.head? = some define ∨
          before.head? = some atSign then
        none
      else
        some token

end Token

/- What is called, and the tokens behind the bracket. -/
structure CallSite where
  callee : Token
  arguments : List Token
  deriving DecidableEq, Repr

/-
  The calls in tokens; the ones in front of them are given,
  the last one first.
-/
def Token.calls
    (before : List Token) : List Token → List CallSite
  | [] => []
  | token :: rest =>
      (if token = openRound then
        (callee? before).toList.map (⟨·, rest⟩)
      else []) ++
        calls (token :: before) rest

namespace Piece

/- The calls in a piece. -/
def calls
    (piece : Piece) : List CallSite :=
  Token.calls [] piece.tokens

/- The names that a piece calls. -/
def called
    (piece : Piece) : List Token :=
  piece.calls.map CallSite.callee

end Piece

/- Definitions, attributes and groups call nothing. -/
example :
    (Token.calls []
        (Text.read
          ("fn f(@location(0) a: u32) \x7b " ++
            "return (g(a) + vec2<f32>(b).x)"))).map
        CallSite.callee =
      ["g", "vec2"].map Text.bytes := by
  decide

------------------------------------------------------------
-- Definitions
------------------------------------------------------------

namespace Token

/- The names that tokens define: those in `fn name(`. -/
def definedIn
    (tokens : List Token) : List Token :=
  tokens.tails.filterMap fun
    | word :: name :: bracket :: _ =>
        if word = define ∧ bracket = openRound then
          some name
        else
          none
    | _ => none

/- The names in `@stage fn name(`, with their stages. -/
def entryPointsIn
    (tokens : List Token) : List (Token × Token) :=
  tokens.tails.filterMap fun
    | mark :: stage :: word :: name :: bracket :: _ =>
        if mark = atSign ∧ word = define ∧
            bracket = openRound then
          some (stage, name)
        else
          none
    | _ => none

end Token

namespace Piece

/- The names that a piece defines. -/
def defined
    (piece : Piece) : List Token :=
  Token.definedIn piece.tokens

/- The entry points that a piece defines. -/
def entryPoints
    (piece : Piece) : List (Token × Token) :=
  Token.entryPointsIn piece.tokens

/-
  The piece as part of the body of a function, if that is
  the outermost block it stands in.
-/
def within?
    (name : Token)
    (piece : Piece) : Option Piece :=
  match piece.blocks with
  | [] => none
  | heading :: blocks =>
      if name ∈ Token.definedIn heading then
        some ⟨blocks, piece.tokens⟩
      else
        none

end Piece

namespace Text

/- The names that a text calls. -/
def called
    (text : String) : List Token :=
  (pieces text).flatMap Piece.called

/- The names that a text defines. -/
def defined
    (text : String) : List Token :=
  (pieces text).flatMap Piece.defined

/- The entry points of a text, with their stages. -/
def entryPoints
    (text : String) : List (Token × Token) :=
  (pieces text).flatMap Piece.entryPoints

/- The pieces in the bodies of the functions of a name. -/
def body
    (name : Token)
    (text : String) : List Piece :=
  (pieces text).filterMap (Piece.within? name)

end Text

------------------------------------------------------------
-- Outlines
------------------------------------------------------------

/-
  A function that is defined in a text: its name, its stage
  if it is an entry point, and what its body holds.
-/
structure Definition where
  stage : Option Token
  name : Token
  body : List Piece
  deriving DecidableEq, Repr

namespace Definition

/- The names that a function calls. -/
def called
    (definition : Definition) : List Token :=
  definition.body.flatMap Piece.called

/- The entry point that is defined, if it is one. -/
def entryPoints
    (definition : Definition) : List (Token × Token) :=
  definition.stage.toList.map (·, definition.name)

/- The pieces in the bodies of the functions of a name. -/
def bodyOf
    (name : Token)
    (definitions : List Definition) : List Piece :=
  (definitions.filter (·.name = name)).flatMap body

/- A definition in front of others. -/
theorem bodyOf_cons
    (name : Token)
    (definition : Definition)
    (definitions : List Definition) :
    bodyOf name (definition :: definitions) =
      (if definition.name = name then definition.body
        else []) ++ bodyOf name definitions := by
  by_cases hName : definition.name = name
  · simp [bodyOf, hName]
  · simp [bodyOf, hName]

/- No body belongs to a name that is not defined. -/
theorem bodyOf_of_not_mem
    {definitions : List Definition}
    {absent : Token}
    (hAbsent : absent ∉ definitions.map name) :
    bodyOf absent definitions = [] := by
  rw [bodyOf, List.flatMap_eq_nil_iff]
  intro definition hMem
  rw [List.mem_filter] at hMem
  have hName : definition.name = absent :=
    of_decide_eq_true hMem.2
  exact absurd (List.mem_map.mpr ⟨_, hMem.1, hName⟩) hAbsent

/- The body of a definition among others of other names. -/
theorem bodyOf_eq
    {definitions : List Definition}
    (hNames : (definitions.map name).Nodup)
    {definition : Definition}
    (hMem : definition ∈ definitions) :
    bodyOf definition.name definitions =
      definition.body := by
  induction definitions with
  | nil => cases hMem
  | cons first rest ih =>
      rw [List.map_cons, List.nodup_cons] at hNames
      rw [bodyOf_cons]
      cases hMem with
      | head =>
          rw [if_pos rfl, bodyOf_of_not_mem hNames.1,
            List.append_nil]
      | tail _ hRest =>
          have hOther : first.name ≠ definition.name := by
            intro hName
            rw [hName] at hNames
            exact hNames.1 (List.mem_map_of_mem hRest)
          rw [if_neg hOther, ih hNames.2 hRest,
            List.nil_append]

end Definition

/-
  Whole tokens that define functions, in order, and call
  what these call.
-/
structure Token.Outline
    (definitions : List Definition)
    (tokens : List Token) : Prop where
  whole : Whole tokens
  called :
    (pieces tokens).flatMap Piece.called =
      definitions.flatMap Definition.called
  defined :
    (pieces tokens).flatMap Piece.defined =
      definitions.map Definition.name
  entryPoints :
    (pieces tokens).flatMap Piece.entryPoints =
      definitions.flatMap Definition.entryPoints
  body :
    ∀ name,
      (pieces tokens).filterMap (Piece.within? name) =
        Definition.bodyOf name definitions

/- Tokens after tokens define what both define. -/
theorem Token.Outline.append
    {tokens others : List Token}
    {definitions otherDefinitions : List Definition}
    (hTokens : Outline definitions tokens)
    (hOthers : Outline otherDefinitions others) :
    Outline (definitions ++ otherDefinitions)
      (tokens ++ others) := by
  have hPieces := hTokens.whole.pieces_append others
  constructor
  case whole => exact hTokens.whole.append hOthers.whole
  case called =>
      rw [hPieces, List.flatMap_append, hTokens.called,
        hOthers.called, List.flatMap_append]
  case defined =>
      rw [hPieces, List.flatMap_append, hTokens.defined,
        hOthers.defined, List.map_append]
  case entryPoints =>
      rw [hPieces, List.flatMap_append, hTokens.entryPoints,
        hOthers.entryPoints, List.flatMap_append]
  case body =>
      intro name
      rw [hPieces, List.filterMap_append, hTokens.body,
        hOthers.body, Definition.bodyOf, Definition.bodyOf,
        ← List.flatMap_append, ← List.filter_append]
      rfl

------------------------------------------------------------
-- Lines without Definitions
------------------------------------------------------------

/-
  A piece that calls some names at most and does not use
  others at all.  It defines nothing and stands in no
  function.
-/
structure Piece.Plain
    (callees hidden : List Token)
    (piece : Piece) : Prop where
  calls : ∀ call ∈ piece.calls, call.callee ∈ callees
  hidden : ∀ name ∈ hidden, name ∉ piece.tokens
  defined : piece.defined = []
  entryPoints : piece.entryPoints = []
  blocks :
    ∀ heading ∈ piece.blocks, Token.definedIn heading = []

instance
    (callees hidden : List Token)
    (piece : Piece) :
    Decidable (piece.Plain callees hidden) :=
  decidable_of_iff
    ((∀ call ∈ piece.calls, call.callee ∈ callees) ∧
      (∀ name ∈ hidden, name ∉ piece.tokens) ∧
      piece.defined = [] ∧ piece.entryPoints = [] ∧
        ∀ heading ∈ piece.blocks,
          Token.definedIn heading = [])
    ⟨fun h => ⟨h.1, h.2.1, h.2.2.1, h.2.2.2.1, h.2.2.2.2⟩,
      fun h =>
        ⟨h.calls, h.hidden, h.defined, h.entryPoints,
          h.blocks⟩⟩

namespace Piece.Plain

variable {callees hidden : List Token}
variable {piece : Piece}

/- A piece outside of functions is in no body. -/
theorem within
    (hPlain : piece.Plain callees hidden)
    (name : Token) :
    piece.within? name = none := by
  unfold within?
  split
  · rfl
  · rename_i heading blocks hBlocks
    have hHeading : heading ∈ piece.blocks := by
      rw [hBlocks]
      exact List.mem_cons_self
    simp [hPlain.blocks heading hHeading]

/- A piece stays plain in blocks that define nothing. -/
theorem inside
    (hPlain : piece.Plain callees hidden)
    {outer : List (List Token)}
    (hOuter :
      ∀ heading ∈ outer, Token.definedIn heading = []) :
    (piece.inside outer).Plain callees hidden :=
  { calls := hPlain.calls
    hidden := hPlain.hidden
    defined := hPlain.defined
    entryPoints := hPlain.entryPoints
    blocks :=
      List.forall_mem_append.mpr ⟨hOuter, hPlain.blocks⟩ }

end Piece.Plain

namespace Lines

/- The names that lines call. -/
def called
    (lines : Lines) : List Token :=
  (Token.pieces lines.tokens).flatMap Piece.called

/-
  Whole lines that call some names at most, do not use
  others at all, and define nothing.
-/
def Calls
    (lines : Lines)
    (callees hidden : List Token) : Prop :=
  Token.Whole lines.tokens ∧
    ∀ piece ∈ Token.pieces lines.tokens,
      piece.Plain callees hidden

instance
    (lines : Lines)
    (callees hidden : List Token) :
    Decidable (lines.Calls callees hidden) := by
  unfold Calls
  infer_instance

section

variable {lines others : Lines}
variable {callees hidden : List Token}

/- No lines call nothing. -/
theorem calls_nil
    (callees hidden : List Token) :
    Calls [] callees hidden :=
  ⟨by decide, List.forall_mem_nil _⟩

/- Lines after lines call what both call. -/
theorem Calls.append
    (hLines : lines.Calls callees hidden)
    (hOthers : others.Calls callees hidden) :
    Calls (lines ++ others) callees hidden := by
  unfold Calls
  rw [tokens_append]
  refine ⟨hLines.1.append hOthers.1, ?_⟩
  rw [hLines.1.pieces_append, List.forall_mem_append]
  exact ⟨hLines.2, hOthers.2⟩

/- Lines that call some names call no others than more. -/
theorem Calls.mono
    {more fewer : List Token}
    (hLines : lines.Calls callees hidden)
    (hMore : callees ⊆ more)
    (hFewer : fewer ⊆ hidden) :
    lines.Calls more fewer := by
  refine ⟨hLines.1, fun piece hPiece => ?_⟩
  have hPlain := hLines.2 piece hPiece
  exact
    { hPlain with
      calls := fun call hCall =>
        hMore (hPlain.calls call hCall)
      hidden := fun name hName =>
        hPlain.hidden name (hFewer hName) }

/- The tokens of a block, once its head is read. -/
theorem tokens_block
    {head : String}
    (hOpening :
      Text.read (head ++ " \x7b") =
        Text.read head ++ [Token.openCurly])
    (inner : Lines) :
    tokens (block head inner) =
      Text.read head ++
        Token.openCurly ::
          (inner.tokens ++ [Token.closeCurly]) := by
  have hClosing : Text.read "\x7d" = [Token.closeCurly] := by
    decide
  rw [block, tokens_group, hOpening, hClosing,
    List.append_assoc]
  rfl

/- A block calls what its heading and its lines call. -/
theorem Calls.block
    {head : String}
    (hOpening :
      Text.read (head ++ " \x7b") =
        Text.read head ++ [Token.openCurly])
    (hHeading : Token.IsHeading (Text.read head))
    (hPlain :
      Piece.Plain callees hidden ⟨[], Text.read head⟩)
    (hLines : lines.Calls callees hidden) :
    Calls (block head lines) callees hidden := by
  unfold Calls
  rw [tokens_block hOpening,
    Token.pieces_block hHeading hLines.1,
    List.forall_mem_cons, List.forall_mem_map]
  refine
    ⟨Token.Whole.block hHeading hLines.1, hPlain,
      fun piece hPiece => ?_⟩
  refine (hLines.2 piece hPiece).inside ?_
  rw [List.forall_mem_singleton]
  exact hPlain.defined

/- What follows whole lines calls on its own. -/
theorem Calls.called_append
    (hLines : lines.Calls callees hidden)
    (others : Lines) :
    called (lines ++ others) =
      lines.called ++ others.called := by
  rw [called, tokens_append, hLines.1.pieces_append,
    List.flatMap_append]
  rfl

/- What lines call is among the names they may call. -/
theorem Calls.called_subset
    (hLines : lines.Calls callees hidden) :
    lines.called ⊆ callees := by
  intro name hName
  rcases List.mem_flatMap.mp hName with
    ⟨piece, hPiece, hCalled⟩
  rcases List.mem_map.mp hCalled with ⟨call, hCall, rfl⟩
  exact (hLines.2 piece hPiece).calls call hCall

/- Such lines define nothing. -/
theorem Calls.defined_eq_nil
    (hLines : lines.Calls callees hidden) :
    (Token.pieces lines.tokens).flatMap Piece.defined =
      [] :=
  List.flatMap_eq_nil_iff.mpr fun piece hPiece =>
    (hLines.2 piece hPiece).defined

/- Nor do they define an entry point. -/
theorem Calls.entryPoints_eq_nil
    (hLines : lines.Calls callees hidden) :
    (Token.pieces lines.tokens).flatMap Piece.entryPoints =
      [] :=
  List.flatMap_eq_nil_iff.mpr fun piece hPiece =>
    (hLines.2 piece hPiece).entryPoints

/- Lines that call and define nothing have no outline. -/
theorem Calls.outline
    (hLines : lines.Calls [] hidden) :
    Token.Outline [] lines.tokens where
  whole := hLines.1
  called := List.subset_nil.mp hLines.called_subset
  defined := hLines.defined_eq_nil
  entryPoints := hLines.entryPoints_eq_nil
  body := fun name =>
    List.filterMap_eq_nil_iff.mpr fun piece hPiece =>
      (hLines.2 piece hPiece).within name

end

end Lines

------------------------------------------------------------
-- Functions
------------------------------------------------------------

namespace ProgramFunction

/- The attribute of an entry point of a stage. -/
def stageMark : Option Token → List Token
  | none => []
  | some stage => [Token.atSign, stage]

/- The tokens in front of the body of a function. -/
def heading
    (stage : Option Token)
    (name signature : String) : List Token :=
  stageMark stage ++ Text.read ("fn " ++ name ++ signature)

/-
  A heading defines one function, at its stage, and calls
  nothing.
-/
structure ReadsHeading
    (stage : Option Token)
    (name signature : String) : Prop where
  opening :
    Text.read ("fn " ++ name ++ signature ++ " \x7b") =
      Text.read ("fn " ++ name ++ signature) ++
        [Token.openCurly]
  isHeading : Token.IsHeading (heading stage name signature)
  calls : Token.calls [] (heading stage name signature) = []
  defined :
    Token.definedIn (heading stage name signature) =
      [Text.bytes name]
  entryPoints :
    Token.entryPointsIn (heading stage name signature) =
      stage.toList.map (·, Text.bytes name)

instance
    (stage : Option Token)
    (name signature : String) :
    Decidable (ReadsHeading stage name signature) :=
  decidable_of_iff
    (Text.read ("fn " ++ name ++ signature ++ " \x7b") =
        Text.read ("fn " ++ name ++ signature) ++
          [Token.openCurly] ∧
      Token.IsHeading (heading stage name signature) ∧
      Token.calls [] (heading stage name signature) = [] ∧
      Token.definedIn (heading stage name signature) =
        [Text.bytes name] ∧
      Token.entryPointsIn (heading stage name signature) =
        stage.toList.map (·, Text.bytes name))
    ⟨fun h => ⟨h.1, h.2.1, h.2.2.1, h.2.2.2.1, h.2.2.2.2⟩,
      fun h =>
        ⟨h.opening, h.isHeading, h.calls, h.defined,
          h.entryPoints⟩⟩

/- A function is read back as it is defined. -/
structure Reads
    (stage : Option Token)
    (callees : List Token)
    (f : ProgramFunction) : Prop where
  heading : ReadsHeading stage f.name f.signature
  body : f.body.Calls callees []

/- A function that calls some names calls no others. -/
theorem Reads.mono
    {stage : Option Token}
    {callees more : List Token}
    {f : ProgramFunction}
    (hReads : Reads stage callees f)
    (hMore : callees ⊆ more) :
    Reads stage more f :=
  { heading := hReads.heading
    body := hReads.body.mono hMore (List.Subset.refl _) }

/- The definition that is read from a function. -/
def definition
    (stage : Option Token)
    (f : ProgramFunction) : Definition where
  stage := stage
  name := Text.bytes f.name
  body := Token.pieces f.body.tokens

/- A function calls what its body does. -/
theorem called_definition
    (stage : Option Token)
    (f : ProgramFunction) :
    (f.definition stage).called = f.body.called :=
  rfl

section

variable {stage : Option Token}
variable {f : ProgramFunction}

/- A function is a block below its heading. -/
theorem ReadsHeading.tokens_eq
    (hHeading : ReadsHeading stage f.name f.signature) :
    stageMark stage ++ f.lines.tokens =
      heading stage f.name f.signature ++
        Token.openCurly ::
          (f.body.tokens ++ [Token.closeCurly]) := by
  rw [lines, Lines.tokens_block hHeading.opening, heading,
    List.append_assoc]

/- What stands in a function is the body of its name. -/
theorem ReadsHeading.filterMap_within
    (hHeading : ReadsHeading stage f.name f.signature)
    (name : Token)
    (pieces : List Piece) :
    (pieces.map
        (Piece.inside
          [heading stage f.name f.signature])).filterMap
        (Piece.within? name) =
      if Text.bytes f.name = name then pieces else [] := by
  have hWithin :
      (Piece.within? name ∘
          Piece.inside [heading stage f.name f.signature]) =
        fun piece =>
          if Text.bytes f.name = name then some piece
          else none := by
    funext piece
    simp [Piece.within?, Piece.inside, hHeading.defined,
      eq_comm]
  rw [List.filterMap_map, hWithin]
  split
  · exact List.filterMap_some
  · exact List.filterMap_none _

/- The outline of a function that is read back. -/
theorem Reads.outline
    {callees : List Token}
    (hReads : Reads stage callees f) :
    Token.Outline [f.definition stage]
      (stageMark stage ++ f.lines.tokens) := by
  rcases hReads with ⟨hHeading, hBody⟩
  have hPieces :=
    Token.pieces_block hHeading.isHeading hBody.1
  rw [hHeading.tokens_eq]
  constructor
  case whole =>
      exact Token.Whole.block hHeading.isHeading hBody.1
  case called =>
      have hNone :
          Piece.called
              ⟨[], ProgramFunction.heading stage f.name
                f.signature⟩ =
            [] := by
        rw [Piece.called, Piece.calls, hHeading.calls]
        rfl
      rw [hPieces, List.flatMap_cons, hNone,
        List.flatMap_map, List.flatMap_singleton]
      rfl
  case defined =>
      rw [hPieces, List.flatMap_cons, List.flatMap_map]
      exact congrArg₂ _ hHeading.defined
        hBody.defined_eq_nil
  case entryPoints =>
      rw [hPieces, List.flatMap_cons, List.flatMap_map,
        List.flatMap_singleton]
      refine
        (congrArg₂ _ hHeading.entryPoints
          hBody.entryPoints_eq_nil).trans ?_
      exact List.append_nil _
  case body =>
      intro name
      rw [hPieces, List.filterMap_cons_none rfl,
        hHeading.filterMap_within, Definition.bodyOf_cons]
      exact (List.append_nil _).symm

end

/- The outline of functions that are read back. -/
theorem outline_linesOf
    {callees : List Token}
    {functions : List ProgramFunction}
    (hReads : ∀ f ∈ functions, Reads none callees f) :
    Token.Outline (functions.map (definition none))
      (linesOf functions).tokens := by
  induction functions with
  | nil => exact (Lines.calls_nil [] []).outline
  | cons f functions ih =>
      rw [List.forall_mem_cons] at hReads
      have hLines :
          (linesOf (f :: functions)).tokens =
            f.lines.tokens ++ (linesOf functions).tokens := by
        have hBlank : Lines.tokens [""] = [] := by
          decide
        rw [linesOf, List.flatMap_cons, Lines.tokens_append,
          Lines.tokens_append, hBlank, List.append_nil]
        rfl
      rw [hLines]
      exact hReads.1.outline.append (ih hReads.2)

end ProgramFunction

end PagedRaster
