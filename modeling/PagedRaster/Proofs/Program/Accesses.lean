import PagedRaster.Proofs.Program.Closed

/-
  This file proves that the text of `commit_pixel` accesses
  memory as its descriptor asks for: which buffers it reads
  and writes, with how many bits, in which order, and that
  it writes only what passes the depth test.  Nothing else
  that it calls can reach memory.  The entry function hands
  a pixel over in one place, behind the alpha test.

  Key definitions include:
    * `Access`, `Piece.accesses`, `Text.accesses`
    * `Text.Touches`
    * `FragmentStage.accesses`, `FragmentStage.exits`

  Key theorems include:
    * `FragmentStage.commit_accesses`
    * `Descriptor.touches_iff`
    * `FragmentStage.entry_exits`
    * `Descriptor.program_accesses`
-/

namespace PagedRaster

------------------------------------------------------------
-- Accesses
------------------------------------------------------------

/-
  A call of a function on memory, with its first argument
  and the headings of the blocks that it stands in.
-/
structure Access where
  function : Token
  address : List Token
  blocks : List (List Token)
  deriving DecidableEq, Repr

/- The access to a number of bits at a named address. -/
def Access.of
    (function : String)
    (bits : Nat)
    (address : String)
    (blocks : List String) : Access where
  function := Text.bytes (function ++ toString bits)
  address := [Text.bytes address]
  blocks := blocks.map Text.read

/- An access that is moved into blocks. -/
def Access.inside
    (outer : List (List Token))
    (access : Access) : Access :=
  { access with blocks := outer ++ access.blocks }

/- The name is that of a function on memory. -/
def Token.namesAccess
    (name : Token) : Bool :=
  (Text.bytes "memory_").isPrefixOf name

/- The tokens of the first argument of a call. -/
def CallSite.firstArgument
    (call : CallSite) : List Token :=
  call.arguments.takeWhile fun token =>
    token ≠ Text.bytes "," ∧ token ≠ Token.closeRound

/- The accesses of a piece, in order. -/
def Piece.accesses
    (piece : Piece) : List Access :=
  (piece.calls.filter (·.callee.namesAccess)).map
    fun call =>
      { function := call.callee
        address := call.firstArgument
        blocks := piece.blocks }

/- The accesses in the bodies of the functions of a name. -/
def Text.accesses
    (name : Token)
    (text : String) : List Access :=
  (body name text).flatMap Piece.accesses

/-
  The functions of a name can reach a variable: they use it
  or call a function that can reach it.
-/
inductive Text.Touches
    (word : Token)
    (text : String) : Token → Prop where
  | uses
      {name : Token}
      {piece : Piece}
      (hPiece : piece ∈ body name text)
      (hUses : word ∈ piece.tokens) :
      Touches word text name
  | calls
      {name callee : Token}
      {piece : Piece}
      (hPiece : piece ∈ body name text)
      (hCalled : callee ∈ piece.called)
      (hCallee : Touches word text callee) :
      Touches word text name

/-
  Names whose functions do not use a variable and call only
  such names cannot reach it.
-/
theorem Text.not_touches
    {word : Token}
    {text : String}
    {quiet : List Token}
    (hQuiet :
      ∀ name ∈ quiet, ∀ piece ∈ body name text,
        piece.Plain quiet [word])
    {name : Token}
    (hName : name ∈ quiet) :
    ¬ Touches word text name := by
  intro hTouches
  induction hTouches with
  | uses hPiece hUses =>
      exact (hQuiet _ hName _ hPiece).hidden word
        List.mem_cons_self hUses
  | calls hPiece hCalled _ ih =>
      rcases List.mem_map.mp hCalled with ⟨call, hCall, rfl⟩
      exact ih ((hQuiet _ hName _ hPiece).calls call hCall)

------------------------------------------------------------
-- Accesses of Lines
------------------------------------------------------------

namespace Lines

/- The accesses of lines, in order. -/
def accesses
    (lines : Lines) : List Access :=
  (Token.pieces lines.tokens).flatMap Piece.accesses

section

variable {lines : Lines}
variable {callees hidden : List Token}

/- What follows whole lines accesses on its own. -/
theorem Calls.accesses_append
    (hLines : lines.Calls callees hidden)
    (others : Lines) :
    accesses (lines ++ others) =
      lines.accesses ++ others.accesses := by
  rw [accesses, tokens_append, hLines.1.pieces_append,
    List.flatMap_append]
  rfl

/- A block accesses inside what its lines access. -/
theorem Calls.accesses_block
    (hLines : lines.Calls callees hidden)
    {head : String}
    (hOpening :
      Text.read (head ++ " \x7b") =
        Text.read head ++ [Token.openCurly])
    (hHeading : Token.IsHeading (Text.read head))
    (hCalls : Token.calls [] (Text.read head) = []) :
    accesses (Lines.block head lines) =
      lines.accesses.map
        (Access.inside [Text.read head]) := by
  have hNone : Piece.accesses ⟨[], Text.read head⟩ = [] := by
    rw [Piece.accesses, Piece.calls, hCalls]
    rfl
  have hInside :
      ∀ piece : Piece,
        (piece.inside [Text.read head]).accesses =
          piece.accesses.map
            (Access.inside [Text.read head]) := by
    intro piece
    rw [Piece.accesses, Piece.accesses, List.map_map]
    rfl
  rw [accesses, tokens_block hOpening,
    Token.pieces_block hHeading hLines.1,
    List.flatMap_cons, hNone, List.nil_append,
    List.flatMap_map, accesses, List.map_flatMap]
  exact List.flatMap_congr fun piece _ => hInside piece

/- Lines that call no function on memory access nothing. -/
theorem Calls.accesses_eq_nil
    (hLines : lines.Calls callees hidden)
    (hCallees :
      ∀ name ∈ callees, name.namesAccess = false) :
    lines.accesses = [] := by
  rw [accesses, List.flatMap_eq_nil_iff]
  intro piece hPiece
  rw [Piece.accesses, List.map_eq_nil_iff,
    List.filter_eq_nil_iff]
  intro call hCall
  rw [hCallees _ ((hLines.2 piece hPiece).calls call hCall)]
  exact Bool.false_ne_true

end

end Lines

/- Bits of a stored pixel. -/
def FrameFormat.bits : FrameFormat → Nat
  | .ct32 => 32
  | .ct24 => 24
  | .ct16 | .ct16s => 16

namespace FragmentStage

------------------------------------------------------------
-- Accesses of the Commit
------------------------------------------------------------

/-
  The accesses that a descriptor asks for: the stored colour
  and the stored depth are read if they are needed, and then
  colour and depth are written behind the depth test.
-/
def accesses
    (d : Descriptor) : List Access :=
  (if d.readsColor then
    [.of "memory_read" d.frame.bits "fb_address" []]
  else []) ++
    (if d.depthTest.readsDepth then
      [.of "memory_read" d.depth.bits "depth_address" []]
    else []) ++
    [.of "memory_write" d.frame.bits "fb_address"
      [guardLine]] ++
    (if d.writesDepth then
      [.of "memory_write" d.depth.bits "depth_address"
        [guardLine]]
    else [])

/- Pure functions are not functions on memory. -/
theorem pureCallees_namesAccess :
    ∀ name ∈ pureCallees, name.namesAccess = false := by
  decide

/- The stored colour is read if it is needed. -/
theorem colorRead_accesses
    (d : Descriptor) :
    (colorRead d).accesses =
      if d.readsColor then
        [.of "memory_read" d.frame.bits "fb_address" []]
      else [] := by
  unfold colorRead
  cases d.readsColor with
  | false => rfl
  | true => cases d.frame <;> decide

/- The stored depth is read if it is compared with. -/
theorem depthTest_accesses
    (d : Descriptor) :
    (depthTest d).accesses =
      if d.depthTest.readsDepth then
        [.of "memory_read" d.depth.bits "depth_address" []]
      else [] := by
  unfold depthTest
  cases d.depthTest <;> cases d.depth <;> decide

/- What passes is written, with its depth if asked for. -/
theorem writes_accesses
    (d : Descriptor) :
    (writes d).accesses =
      [.of "memory_write" d.frame.bits "fb_address" []] ++
        (if d.writesDepth then
          [.of "memory_write" d.depth.bits
            "depth_address" []]
        else []) := by
  have hColor :
      (colorWrite d.frame).accesses =
        [.of "memory_write" d.frame.bits
          "fb_address" []] := by
    cases d.frame <;> decide
  rw [writes_eq, (colorWrite_calls _).accesses_append,
    hColor]
  refine congrArg _ ?_
  cases d.writesDepth with
  | false => rfl
  | true => cases d.depth <;> decide

/- What is written is written behind the depth test. -/
theorem guarded_accesses
    (d : Descriptor) :
    Lines.accesses (Lines.block guardLine (writes d)) =
      [.of "memory_write" d.frame.bits "fb_address"
          [guardLine]] ++
        (if d.writesDepth then
          [.of "memory_write" d.depth.bits "depth_address"
            [guardLine]]
        else []) := by
  rw [(writes_calls d).accesses_block (by decide) (by decide)
      (by decide), writes_accesses]
  cases d.writesDepth <;> rfl

/- The commit accesses memory as its descriptor asks for. -/
theorem commit_accesses
    (d : Descriptor) :
    (commit d).body.accesses = accesses d := by
  have hPure :
      ∀ {lines : Lines},
        lines.Calls pureCallees [memoryName] →
          lines.accesses = [] :=
    fun hLines =>
      hLines.accesses_eq_nil pureCallees_namesAccess
  rw [commit_body]
  simp only [List.append_assoc]
  rw [commitStart_calls.accesses_append,
    (colorRead_calls d).accesses_append,
    (depthLine_calls d.depth).accesses_append,
    (depthTest_calls d).accesses_append,
    (blending_calls d).accesses_append,
    (guarded_calls d).accesses_append,
    hPure commitStart_calls,
    hPure (depthLine_calls d.depth),
    hPure (blending_calls d), hPure commitEnd_calls,
    colorRead_accesses, depthTest_accesses,
    guarded_accesses, accesses]
  simp only [List.nil_append, List.append_nil,
    List.append_assoc]

------------------------------------------------------------
-- Functions that Reach Memory
------------------------------------------------------------

/- The shared functions that are not on memory. -/
def quietFunctions : List ProgramFunction :=
  Shared.functions.filter fun f =>
    !Token.namesAccess (Text.bytes f.name)

/- The names of these, and of what they call. -/
def quiet : List Token :=
  (["clamp", "vec3", "vec4", "f32", "u32"] ++
    quietFunctions.map ProgramFunction.name).map Text.bytes

/- These functions call only each other and conversions. -/
theorem quietFunctions_calls :
    ∀ f ∈ quietFunctions,
      f.body.Calls quiet [memoryName] := by
  decide

/- What the commit calls is on memory or is quiet. -/
theorem commitCallees_quiet :
    ∀ name ∈ commitCallees,
      name.namesAccess = false → name ∈ quiet := by
  decide

/- A function on memory uses the memory. -/
theorem commitCallees_memory :
    ∀ name ∈ commitCallees, name.namesAccess = true →
      ∃ f ∈ Shared.functions, Text.bytes f.name = name ∧
        ∃ piece ∈ Token.pieces f.body.tokens,
          memoryName ∈ piece.tokens := by
  decide

/- A quiet name that is defined names a quiet function. -/
theorem quiet_defined :
    ∀ textured indexed,
      ∀ name ∈ quiet, name ∈ names textured indexed →
        ∃ f ∈ quietFunctions, Text.bytes f.name = name := by
  decide

end FragmentStage

namespace Descriptor

/- No quiet name reaches memory. -/
theorem not_touches_of_quiet
    (d : Descriptor)
    {name : Token}
    (hName : name ∈ FragmentStage.quiet) :
    ¬ Text.Touches FragmentStage.memoryName
      d.program.fragment name := by
  refine Text.not_touches ?_ hName
  intro name hName piece hPiece
  by_cases hDefined :
      name ∈
        FragmentStage.names d.textured d.texture.isIndexed
  · rcases FragmentStage.quiet_defined _ _ name hName
      hDefined with ⟨f, hQuiet, rfl⟩
    have hShared : f ∈ Shared.functions :=
      (List.mem_filter.mp hQuiet).1
    rw [d.body_function
      (List.mem_append_left _ hShared)] at hPiece
    exact (FragmentStage.quietFunctions_calls f hQuiet).2
      piece hPiece
  · rw [← FragmentStage.definitions_names] at hDefined
    rw [body_program,
      Definition.bodyOf_of_not_mem hDefined] at hPiece
    cases hPiece

/-
  Of all that the commit calls, just the functions on
  memory reach it.
-/
theorem touches_iff
    (d : Descriptor)
    {name : Token}
    (hName : name ∈ FragmentStage.commitCallees) :
    Text.Touches FragmentStage.memoryName
        d.program.fragment name ↔
      name.namesAccess = true := by
  constructor
  · intro hTouches
    rw [← Bool.not_eq_false]
    intro hQuiet
    exact d.not_touches_of_quiet
      (FragmentStage.commitCallees_quiet name hName hQuiet)
        hTouches
  · intro hAccess
    rcases FragmentStage.commitCallees_memory name hName
      hAccess with ⟨f, hShared, rfl, piece, hPiece, hUses⟩
    rw [← d.body_function
      (List.mem_append_left _ hShared)] at hPiece
    exact .uses hPiece hUses

end Descriptor

------------------------------------------------------------
-- Exits of the Entry Function
------------------------------------------------------------

/- A piece uses one of some words. -/
def Piece.uses
    (words : List Token)
    (piece : Piece) : Bool :=
  words.any piece.tokens.contains

namespace Lines

/- The pieces of lines that use one of some words. -/
def piecesUsing
    (words : List Token)
    (lines : Lines) : List Piece :=
  (Token.pieces lines.tokens).filter (Piece.uses words)

section

variable {lines : Lines}
variable {callees hidden : List Token}

/- What follows whole lines uses words on its own. -/
theorem Calls.piecesUsing_append
    (hLines : lines.Calls callees hidden)
    (words : List Token)
    (others : Lines) :
    piecesUsing words (lines ++ others) =
      piecesUsing words lines ++
        piecesUsing words others := by
  rw [piecesUsing, tokens_append, hLines.1.pieces_append,
    List.filter_append]
  rfl

/- Lines that hide words do not use them. -/
theorem Calls.piecesUsing_eq_nil
    (hLines : lines.Calls callees hidden) :
    piecesUsing hidden lines = [] := by
  rw [piecesUsing, List.filter_eq_nil_iff]
  intro piece hPiece hUses
  rcases List.any_eq_true.mp hUses with
    ⟨word, hWord, hContains⟩
  exact (hLines.2 piece hPiece).hidden word hWord
    (List.contains_iff_mem.mp hContains)

end

end Lines

namespace FragmentStage

/- The condition that the alpha of a fragment passes. -/
def alphaCondition : AlphaTest → String
  | .always => "true"
  | .equal => "quantize_alpha(color.a) == params.alpha_fb.z"
  | .greaterEqual =>
      "quantize_alpha(color.a) >= params.alpha_fb.z"

/-
  The pieces that end a fragment: it returns early if its
  alpha fails, and is committed otherwise.
-/
def exits
    (d : Descriptor) : List Piece :=
  [⟨[],
      Text.read
        ("let alpha_pass = " ++ alphaCondition d.alphaTest)⟩,
    ⟨[], Text.read "if !alpha_pass"⟩,
    ⟨[Text.read "if !alpha_pass"],
      Text.read "return color"⟩,
    ⟨[],
      Text.read
        ("return commit_pixel(color, src_depth, " ++
          "fb_address, depth_address)")⟩]

/- The entry function ends a fragment as stated. -/
theorem entry_exits
    (d : Descriptor) :
    Lines.piecesUsing exitWords (entryFunction d).body =
      exits d := by
  have hTest :
      ∀ test : AlphaTest,
        Lines.piecesUsing exitWords [alphaTest test] =
          [⟨[],
            Text.read
              ("let alpha_pass = " ++
                alphaCondition test)⟩] := by
    intro test
    cases test <;> decide
  have hFailure :
      Lines.piecesUsing exitWords failure =
        [⟨[], Text.read "if !alpha_pass"⟩,
          ⟨[Text.read "if !alpha_pass"],
            Text.read "return color"⟩] := by
    decide
  have hSuccess :
      Lines.piecesUsing exitWords success =
        [⟨[],
          Text.read
            ("return commit_pixel(color, src_depth, " ++
              "fb_address, depth_address)")⟩] := by
    decide
  rw [entry_body]
  simp only [List.append_assoc]
  rw [depthInput_calls.piecesUsing_append,
    (coloring_calls d).piecesUsing_append,
    (alphaTest_calls _).piecesUsing_append,
    failure_calls.piecesUsing_append,
    addressing_calls.piecesUsing_append,
    depthInput_calls.piecesUsing_eq_nil,
    (coloring_calls d).piecesUsing_eq_nil,
    addressing_calls.piecesUsing_eq_nil, hTest, hFailure,
    hSuccess]
  rfl

/- Only the end of the entry function commits. -/
theorem entry_commits
    (d : Descriptor) :
    (entryFunction d).body.called.count
        (Text.bytes commitName) =
      1 := by
  have hNone :
      ∀ {lines : Lines} {callees hidden : List Token},
        lines.Calls callees hidden →
          Text.bytes commitName ∉ callees →
            lines.called.count (Text.bytes commitName) =
              0 :=
    fun hLines hOther =>
      List.count_eq_zero.mpr fun hCalled =>
        hOther (hLines.called_subset hCalled)
  have hEntry : Text.bytes commitName ∉ entryCallees := by
    decide
  have hColoring :
      ∀ textured : Bool,
        Text.bytes commitName ∉
          (if textured then coloringCallees else []) := by
    decide
  have hSuccess :
      success.called = [Text.bytes commitName] := by
    decide
  rw [entry_body]
  simp only [List.append_assoc]
  rw [depthInput_calls.called_append,
    (coloring_calls d).called_append,
    (alphaTest_calls _).called_append,
    failure_calls.called_append,
    addressing_calls.called_append]
  simp only [List.count_append, hNone depthInput_calls hEntry,
    hNone (coloring_calls d) (hColoring _),
    hNone (alphaTest_calls _) hEntry,
    hNone failure_calls hEntry,
    hNone addressing_calls hEntry, hSuccess]
  rfl

/- A program commits in one place. -/
theorem definitions_commits
    (d : Descriptor) :
    ((definitions d).flatMap Definition.called).count
        (Text.bytes commitName) =
      1 := by
  have hOther :
      ∀ textured indexed,
        Text.bytes commitName ∉
          callable textured indexed := by
    decide
  rw [definitions, List.flatMap_append,
    List.flatMap_singleton,
    ProgramFunction.called_definition, List.count_append,
    entry_commits, Nat.add_eq_right, List.count_eq_zero]
  exact fun hCalled => hOther _ _ (functions_called d hCalled)

end FragmentStage

namespace Descriptor

/-
  The text of `commit_pixel`, which is defined once, makes
  the accesses that its descriptor asks for and no others:
  it does not use the memory itself, and of all functions
  that it calls, just those of its accesses can reach the
  memory.  It is called in one place, where a fragment ends
  that has not returned because of its alpha.
-/
theorem program_accesses
    (d : Descriptor) :
    (Text.defined d.program.fragment).count
          (Text.bytes "commit_pixel") =
        1 ∧
      Text.accesses (Text.bytes "commit_pixel")
          d.program.fragment =
        FragmentStage.accesses d ∧
      (∀ piece ∈
          Text.body (Text.bytes "commit_pixel")
            d.program.fragment,
        Text.bytes "gs_memory" ∉ piece.tokens ∧
          ∀ name ∈ piece.called,
            Text.Touches (Text.bytes "gs_memory")
                d.program.fragment name ↔
              name.namesAccess = true) ∧
      (Text.called d.program.fragment).count
          (Text.bytes "commit_pixel") =
        1 ∧
      (Text.body (Text.bytes "fs_main")
            d.program.fragment).filter
          (Piece.uses
            (["alpha_pass", "return", "commit_pixel"].map
              Text.bytes)) =
        FragmentStage.exits d := by
  have hCommit :
      FragmentStage.commit d ∈
        Shared.functions ++ FragmentStage.functions d := by
    rw [FragmentStage.functions_eq]
    exact List.mem_append_right _
      (List.mem_append_right _ List.mem_cons_self)
  have hBody := d.body_function hCommit
  have hEntry :
      (FragmentStage.entryFunction d).definition
          (some (Text.bytes "fragment")) ∈
        FragmentStage.definitions d := by
    unfold FragmentStage.definitions
    exact List.mem_append_right _ List.mem_cons_self
  have hMain := d.body_definition hEntry
  refine
    ⟨?defined, ?accesses, ?touches, ?called, ?exits⟩
  case defined =>
      have hName :
          ∀ textured indexed,
            (FragmentStage.names textured indexed).count
                (Text.bytes "commit_pixel") =
              1 := by
        decide
      rw [defined_program]
      exact hName _ _
  case accesses =>
      have hAccesses := FragmentStage.commit_accesses d
      rw [Lines.accesses, ← hBody] at hAccesses
      exact hAccesses
  case touches =>
      have hCalls := (FragmentStage.commit_calls d).2
      rw [← hBody] at hCalls
      intro piece hPiece
      have hPlain := hCalls piece hPiece
      refine
        ⟨hPlain.hidden _ List.mem_cons_self,
          fun name hName => ?_⟩
      rcases List.mem_map.mp hName with ⟨call, hCall, rfl⟩
      exact d.touches_iff (hPlain.calls call hCall)
  case called =>
      rw [called_program]
      exact FragmentStage.definitions_commits d
  case exits =>
      have hExits := FragmentStage.entry_exits d
      rw [Lines.piecesUsing] at hExits
      rw [← hExits]
      exact congrArg _ hMain

end Descriptor

end PagedRaster
