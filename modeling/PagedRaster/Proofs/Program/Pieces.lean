import PagedRaster.Proofs.Program.Tokens

/-
  This file reads tokens as nested blocks.  Brackets are
  balanced if the last open one is always closed by a mark
  of its own kind.  Marks of blocks and statements cut the
  tokens into pieces, and a piece knows the headings of the
  blocks that it stands in.

  Key definitions include:
    * `Token.nest`, `Token.Balanced`
    * `Piece`, `Reader.pieces`
    * `Token.Whole`
    * `Text.Balanced`, `Text.pieces`

  Key theorems include:
    * `Token.nest_outer`
    * `Reader.pieces_inside`
    * `Token.Whole.append`, `Token.Whole.block`
    * `Token.pieces_block`
-/

namespace PagedRaster

------------------------------------------------------------
-- Brackets
------------------------------------------------------------

namespace Token

/- The mark that closes what a mark opens. -/
def closing?
    (token : Token) : Option Token :=
  if token = openRound then some closeRound
  else if token = openSquare then some closeSquare
  else if token = openCurly then some closeCurly
  else none

/- The mark closes a bracket. -/
def closes
    (token : Token) : Bool :=
  token = closeRound || token = closeSquare ||
    token = closeCurly

/-
  The closing marks that are missing after a token, the
  next one first; `none` if the token closes a bracket
  that is not the last open one.
-/
def expect
    (missing : List Token)
    (token : Token) : Option (List Token) :=
  match token.closing? with
  | some closing => some (closing :: missing)
  | none =>
      if token.closes then
        match missing with
        | [] => none
        | next :: outer =>
            if token = next then some outer else none
      else
        some missing

/- The closing marks that are missing after tokens. -/
def nest
    (missing tokens : List Token) :
    Option (List Token) :=
  tokens.foldlM expect missing

/- Every bracket is closed, and by a mark of its kind. -/
def Balanced
    (tokens : List Token) : Prop :=
  nest [] tokens = some []

instance
    (tokens : List Token) :
    Decidable (Balanced tokens) := by
  unfold Balanced
  infer_instance

/- Brackets of two kinds may not overlap. -/
example :
    Balanced (Text.read "a[f(i)] \x7b (b) \x7d") ∧
      ¬ Balanced (Text.read "a[f(i])") ∧
      ¬ Balanced (Text.read "f(i") := by
  decide

/- Tokens after tokens. -/
theorem nest_append
    (missing tokens others : List Token) :
    nest missing (tokens ++ others) =
      (nest missing tokens).bind (nest · others) :=
  List.foldlM_append

/- A token in front of others. -/
theorem nest_cons
    (missing : List Token)
    (token : Token)
    (tokens : List Token) :
    nest missing (token :: tokens) =
      (expect missing token).bind (nest · tokens) :=
  List.foldlM_cons

/-
  A token opens a bracket, closes the last open one, or is
  no bracket.
-/
theorem expect_cases
    {missing rest : List Token}
    {token : Token}
    (hExpect : expect missing token = some rest) :
    (∃ closing,
        token.closing? = some closing ∧
          rest = closing :: missing) ∨
      (token.closing? = none ∧ token.closes = true ∧
        missing = token :: rest) ∨
      (token.closing? = none ∧ token.closes = false ∧
        missing = rest) := by
  unfold expect at hExpect
  cases hClosing : token.closing? with
  | some closing =>
      rw [hClosing] at hExpect
      exact .inl ⟨closing, rfl, (Option.some.inj hExpect).symm⟩
  | none =>
      rw [hClosing] at hExpect
      cases hCloses : token.closes with
      | false =>
          rw [hCloses] at hExpect
          exact .inr (.inr ⟨rfl, rfl, Option.some.inj hExpect⟩)
      | true =>
          rw [hCloses] at hExpect
          cases missing with
          | nil => cases hExpect
          | cons first outer =>
              by_cases hFirst : token = first
              · simp only [hFirst, if_true] at hExpect
                cases hExpect
                exact .inr (.inl ⟨rfl, rfl, by rw [hFirst]⟩)
              · simp [hFirst] at hExpect

/- What a token opens or closes, it does in any brackets. -/
theorem expect_outer
    {missing rest : List Token}
    {token : Token}
    (hExpect : expect missing token = some rest)
    (outer : List Token) :
    expect (missing ++ outer) token =
      some (rest ++ outer) := by
  rcases expect_cases hExpect with
    ⟨closing, hClosing, rfl⟩ | ⟨hClosing, hCloses, rfl⟩ |
      ⟨hClosing, hCloses, rfl⟩
  · simp [expect, hClosing]
  · simp [expect, hClosing, hCloses]
  · simp [expect, hClosing, hCloses]

/- What tokens open and close, they do in any brackets. -/
theorem nest_outer
    {missing rest tokens : List Token}
    (hNest : nest missing tokens = some rest)
    (outer : List Token) :
    nest (missing ++ outer) tokens =
      some (rest ++ outer) := by
  induction tokens generalizing missing with
  | nil =>
      cases hNest
      rfl
  | cons token tokens ih =>
      rw [nest_cons, Option.bind_eq_some_iff] at hNest
      rcases hNest with ⟨next, hExpect, hNext⟩
      rw [nest_cons, expect_outer hExpect]
      exact ih hNext

/- Balanced tokens after balanced tokens. -/
theorem Balanced.append
    {tokens others : List Token}
    (hTokens : Balanced tokens)
    (hOthers : Balanced others) :
    Balanced (tokens ++ others) := by
  rw [Balanced, nest_append, hTokens]
  exact hOthers

/- Balanced tokens in a block with a balanced heading. -/
theorem Balanced.block
    {heading inner : List Token}
    (hHeading : Balanced heading)
    (hInner : Balanced inner) :
    Balanced
      (heading ++ openCurly :: (inner ++ [closeCurly])) := by
  refine hHeading.append ?_
  have hBlock : nest [closeCurly] inner = some [closeCurly] :=
    nest_outer hInner [closeCurly]
  have hOpen : expect [] openCurly = some [closeCurly] := by
    decide
  have hClose : nest [closeCurly] [closeCurly] = some [] := by
    decide
  rw [Balanced, nest_cons, hOpen, Option.bind_some,
    nest_append, hBlock]
  exact hClose

end Token

------------------------------------------------------------
-- Pieces
------------------------------------------------------------

/-
  The tokens between two marks, with the headings of the
  blocks that they stand in, the outermost first.
-/
structure Piece where
  blocks : List (List Token)
  tokens : List Token
  deriving DecidableEq, Repr

namespace Piece

/- A piece that is moved into blocks. -/
def inside
    (outer : List (List Token))
    (piece : Piece) : Piece :=
  { piece with blocks := outer ++ piece.blocks }

end Piece

/- The mark opens or closes a block or ends a statement. -/
def Token.isMark
    (token : Token) : Bool :=
  token = openCurly || token = closeCurly ||
    token = semicolon

/-
  How far tokens have been read: the headings of the open
  blocks, the innermost first, and the tokens since the
  last mark, the last one first.
-/
structure Reader where
  blocks : List (List Token)
  heading : List Token
  deriving DecidableEq, Repr

namespace Reader

/- Nothing has been read. -/
def start : Reader :=
  ⟨[], []⟩

/- The reader after a token. -/
def next
    (reader : Reader)
    (token : Token) : Reader :=
  if token = Token.openCurly then
    ⟨reader.heading.reverse :: reader.blocks, []⟩
  else if token = Token.closeCurly then
    ⟨reader.blocks.tail, []⟩
  else if token = Token.semicolon then
    ⟨reader.blocks, []⟩
  else
    ⟨reader.blocks, token :: reader.heading⟩

/- The piece that a token ends, if it is not empty. -/
def ended
    (reader : Reader)
    (token : Token) : List Piece :=
  if token.isMark && !reader.heading.isEmpty then
    [⟨reader.blocks.reverse, reader.heading.reverse⟩]
  else
    []

/- The reader after tokens. -/
def after
    (reader : Reader)
    (tokens : List Token) : Reader :=
  tokens.foldl next reader

/- The pieces that tokens end. -/
def pieces
    (reader : Reader) : List Token → List Piece
  | [] => []
  | token :: tokens =>
      reader.ended token ++
        (reader.next token).pieces tokens

/- Tokens after tokens end pieces where those left off. -/
theorem pieces_append
    (reader : Reader)
    (tokens others : List Token) :
    reader.pieces (tokens ++ others) =
      reader.pieces tokens ++
        (reader.after tokens).pieces others := by
  induction tokens generalizing reader with
  | nil => rfl
  | cons token tokens ih =>
      rw [List.cons_append, pieces, ih, pieces,
        List.append_assoc]
      rfl

/- Tokens without marks end no piece. -/
theorem pieces_of_noMark
    {tokens : List Token}
    (hMarks : ∀ token ∈ tokens, token.isMark = false)
    (reader : Reader) :
    reader.pieces tokens = [] ∧
      reader.after tokens =
        ⟨reader.blocks, tokens.reverse ++ reader.heading⟩ := by
  induction tokens generalizing reader with
  | nil => exact ⟨rfl, rfl⟩
  | cons token tokens ih =>
      rw [List.forall_mem_cons] at hMarks
      have hMark := hMarks.1
      simp only [Token.isMark, Bool.or_eq_false_iff,
        decide_eq_false_iff_not] at hMark
      have hNext :
          reader.next token =
            ⟨reader.blocks, token :: reader.heading⟩ := by
        simp [next, hMark]
      have hEnded : reader.ended token = [] := by
        simp [ended, hMarks.1]
      rcases ih hMarks.2 (reader.next token) with
        ⟨hPieces, hAfter⟩
      constructor
      · rw [pieces, hEnded, hPieces]
        rfl
      · rw [after, List.foldl_cons]
        rw [after] at hAfter
        rw [hAfter, hNext, List.reverse_cons,
          List.append_assoc]
        rfl

------------------------------------------------------------
-- Reading Inside Blocks
------------------------------------------------------------

/- A reader that is moved into blocks. -/
def inside
    (outer : List (List Token))
    (reader : Reader) : Reader :=
  { reader with blocks := reader.blocks ++ outer.reverse }

/- The open blocks are those whose closing mark is missing. -/
def Fits
    (reader : Reader)
    (missing : List Token) : Prop :=
  reader.blocks.length = missing.count Token.closeCurly

/-
  Only round and square brackets, and no marks of blocks,
  leave the number of missing closing marks as it is.
-/
theorem count_expect
    {missing rest : List Token}
    {token : Token}
    (hExpect : Token.expect missing token = some rest)
    (hOpen : token ≠ Token.openCurly)
    (hClose : token ≠ Token.closeCurly) :
    rest.count Token.closeCurly =
      missing.count Token.closeCurly := by
  rcases Token.expect_cases hExpect with
    ⟨closing, hClosing, rfl⟩ | ⟨_, _, rfl⟩ | ⟨_, _, rfl⟩
  · have hKind : closing ≠ Token.closeCurly := by
      rintro rfl
      unfold Token.closing? at hClosing
      split at hClosing
      · cases hClosing
      · split at hClosing
        · cases hClosing
        · simp at hClosing
    exact List.count_cons_of_ne hKind
  · exact (List.count_cons_of_ne hClose).symm
  · rfl

/- A mark that closes a block closes the last open one. -/
theorem expect_closeCurly
    {missing rest : List Token}
    (hExpect :
      Token.expect missing Token.closeCurly = some rest) :
    missing = Token.closeCurly :: rest := by
  have hClosing : Token.closeCurly.closing? = none := by
    decide
  have hCloses : Token.closeCurly.closes = true := by
    decide
  rcases Token.expect_cases hExpect with
    ⟨closing, hSome, _⟩ | ⟨_, _, hMissing⟩ | ⟨_, hFalse, _⟩
  · rw [hClosing] at hSome
    cases hSome
  · exact hMissing
  · rw [hCloses] at hFalse
    cases hFalse

/- A token keeps the open blocks in step with the marks. -/
theorem Fits.next
    {reader : Reader}
    {missing rest : List Token}
    {token : Token}
    (hFits : reader.Fits missing)
    (hExpect : Token.expect missing token = some rest) :
    (reader.next token).Fits rest := by
  unfold Fits at hFits ⊢
  by_cases hOpen : token = Token.openCurly
  · subst hOpen
    have hRest : rest = Token.closeCurly :: missing :=
      (Option.some.inj hExpect).symm
    simp [Reader.next, hRest, hFits]
  · by_cases hClose : token = Token.closeCurly
    · subst hClose
      rw [expect_closeCurly hExpect] at hFits
      simp [Reader.next, hOpen, hFits]
    · rw [count_expect hExpect hOpen hClose, ← hFits]
      simp only [Reader.next, hOpen, hClose, if_false]
      split <;> rfl

/-
  A token that closes no block of the surroundings does the
  same inside them.
-/
theorem next_inside
    {reader : Reader}
    {missing rest : List Token}
    {token : Token}
    (hFits : reader.Fits missing)
    (hExpect : Token.expect missing token = some rest)
    (outer : List (List Token)) :
    (reader.inside outer).next token =
      (reader.next token).inside outer := by
  unfold next
  split
  · rfl
  · split
    · rename_i hClose
      subst hClose
      rw [Fits, expect_closeCurly hExpect] at hFits
      have hBlocks : reader.blocks ≠ [] := by
        intro hNil
        simp [hNil] at hFits
      simp [inside, List.tail_append_of_ne_nil hBlocks]
    · split <;> rfl

/- The piece that a token ends, inside of blocks. -/
theorem ended_inside
    (reader : Reader)
    (token : Token)
    (outer : List (List Token)) :
    (reader.inside outer).ended token =
      (reader.ended token).map (Piece.inside outer) := by
  unfold ended
  rw [apply_ite (List.map (Piece.inside outer))]
  simp [inside, Piece.inside]

/-
  Tokens that close no block of the surroundings end the
  same pieces inside them.
-/
theorem pieces_inside
    {reader : Reader}
    {missing rest tokens : List Token}
    (hFits : reader.Fits missing)
    (hNest : Token.nest missing tokens = some rest)
    (outer : List (List Token)) :
    (reader.inside outer).pieces tokens =
        (reader.pieces tokens).map (Piece.inside outer) ∧
      (reader.inside outer).after tokens =
        (reader.after tokens).inside outer := by
  induction tokens generalizing reader missing with
  | nil => exact ⟨rfl, rfl⟩
  | cons token tokens ih =>
      rw [Token.nest_cons, Option.bind_eq_some_iff] at hNest
      rcases hNest with ⟨next, hExpect, hNext⟩
      rcases ih (hFits.next hExpect) hNext with
        ⟨hPieces, hAfter⟩
      constructor
      · rw [pieces, pieces, List.map_append, ended_inside,
          next_inside hFits hExpect, hPieces]
      · rw [after, List.foldl_cons,
          next_inside hFits hExpect]
        exact hAfter

end Reader

------------------------------------------------------------
-- Whole Tokens
------------------------------------------------------------

namespace Token

/- Tokens that leave no bracket and no piece open. -/
def Whole
    (tokens : List Token) : Prop :=
  Balanced tokens ∧ Reader.start.after tokens = Reader.start

instance
    (tokens : List Token) :
    Decidable (Whole tokens) := by
  unfold Whole
  infer_instance

/- The pieces of tokens. -/
def pieces
    (tokens : List Token) : List Piece :=
  Reader.start.pieces tokens

/- The heading of a block is balanced and one piece. -/
def IsHeading
    (tokens : List Token) : Prop :=
  Balanced tokens ∧ tokens ≠ [] ∧
    ∀ token ∈ tokens, token.isMark = false

instance
    (tokens : List Token) :
    Decidable (IsHeading tokens) := by
  unfold IsHeading
  infer_instance

/- Whole tokens after whole tokens. -/
theorem Whole.append
    {tokens others : List Token}
    (hTokens : Whole tokens)
    (hOthers : Whole others) :
    Whole (tokens ++ others) := by
  refine ⟨hTokens.1.append hOthers.1, ?_⟩
  have hAfter := hTokens.2
  unfold Reader.after at hAfter ⊢
  rw [List.foldl_append, hAfter]
  exact hOthers.2

/- What follows whole tokens is read on its own. -/
theorem Whole.pieces_append
    {tokens : List Token}
    (hTokens : Whole tokens)
    (others : List Token) :
    pieces (tokens ++ others) =
      pieces tokens ++ pieces others := by
  unfold pieces
  rw [Reader.pieces_append, hTokens.2]

section

variable {heading inner : List Token}

/- A heading is one piece, and what follows stands in it. -/
private theorem read_heading
    (hHeading : IsHeading heading)
    (rest : List Token) :
    pieces (heading ++ openCurly :: rest) =
        ⟨[], heading⟩ ::
          (Reader.start.inside [heading]).pieces rest ∧
      Reader.start.after (heading ++ openCurly :: rest) =
        (Reader.start.inside [heading]).after rest := by
  rcases hHeading with ⟨-, hNonempty, hMarks⟩
  rcases Reader.pieces_of_noMark hMarks Reader.start with
    ⟨hPieces, hAfter⟩
  have hNext :
      (Reader.start.after heading).next openCurly =
        Reader.start.inside [heading] := by
    rw [hAfter]
    simp [Reader.next, Reader.inside, Reader.start]
  have hEnded :
      (Reader.start.after heading).ended openCurly =
        [⟨[], heading⟩] := by
    rw [hAfter]
    simp [Reader.ended, Reader.start, isMark, hNonempty]
  constructor
  · rw [pieces, Reader.pieces_append, hPieces,
      Reader.pieces, hEnded, hNext]
    rfl
  · rw [← hNext]
    exact List.foldl_append

/- What is read of a block, and where its reader ends. -/
private theorem read_block
    (hHeading : IsHeading heading)
    (hInner : Whole inner) :
    pieces (heading ++ openCurly :: (inner ++ [closeCurly])) =
        ⟨[], heading⟩ ::
          (pieces inner).map (Piece.inside [heading]) ∧
      Reader.start.after
          (heading ++ openCurly :: (inner ++ [closeCurly])) =
        Reader.start := by
  have hFits : Reader.start.Fits [] := rfl
  rcases Reader.pieces_inside hFits hInner.1 [heading] with
    ⟨hPieces, hAfter⟩
  rw [hInner.2] at hAfter
  rcases read_heading hHeading (inner ++ [closeCurly]) with
    ⟨hBlockPieces, hBlockAfter⟩
  constructor
  · rw [hBlockPieces, Reader.pieces_append, hPieces, hAfter]
    exact congrArg _ (List.append_nil _)
  · rw [hBlockAfter]
    unfold Reader.after at hAfter ⊢
    rw [List.foldl_append, hAfter]
    rfl

/- A block is whole if what stands in it is. -/
theorem Whole.block
    (hHeading : IsHeading heading)
    (hInner : Whole inner) :
    Whole
      (heading ++ openCurly :: (inner ++ [closeCurly])) :=
  ⟨hHeading.1.block hInner.1, (read_block hHeading hInner).2⟩

/- The pieces of a block are its heading and what it holds. -/
theorem pieces_block
    (hHeading : IsHeading heading)
    (hInner : Whole inner) :
    pieces (heading ++ openCurly :: (inner ++ [closeCurly])) =
      ⟨[], heading⟩ ::
        (pieces inner).map (Piece.inside [heading]) :=
  (read_block hHeading hInner).1

end

end Token

------------------------------------------------------------
-- Texts
------------------------------------------------------------

namespace Text

/- Every bracket is closed, and by a mark of its kind. -/
def Balanced
    (text : String) : Prop :=
  Token.Balanced (tokens text)

/- The pieces of a text; its end also ends a piece. -/
def pieces
    (text : String) : List Piece :=
  Token.pieces (tokens text ++ [Token.semicolon])

/- Whole lines leave nothing for the end of their text. -/
theorem pieces_text
    {written : Lines}
    (hFree : written.Free lineBreak)
    (hWhole : Token.Whole written.tokens) :
    pieces written.text = Token.pieces written.tokens := by
  rw [pieces, tokens_text hFree, hWhole.pieces_append]
  exact List.append_nil _

end Text

end PagedRaster
