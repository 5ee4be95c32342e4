import Mathlib.Data.List.SplitBy
import PagedRaster.Proofs.Program.Text

/-
  This file reads texts as tokens: words, and single bytes
  of other kinds.  Blanks and comments are no tokens, so
  tokens do not depend on how a text is set.

  Key definitions include:
    * `Token`
    * `Text.words`, `Text.tokens`
    * `Lines.tokens`

  Key theorems include:
    * `Lines.tokens_indent`
    * `Lines.tokens_group`
    * `Text.tokens_text`
-/

namespace PagedRaster

/- A word, or a single byte that belongs to no word. -/
abbrev Token :=
  List UInt8

namespace Token

/- The marks of round, square and curly brackets. -/
def openRound : Token :=
  [40]

def closeRound : Token :=
  [41]

def openSquare : Token :=
  [91]

def closeSquare : Token :=
  [93]

def openCurly : Token :=
  [123]

def closeCurly : Token :=
  [125]

/- The mark behind a statement. -/
def semicolon : Token :=
  [59]

end Token

------------------------------------------------------------
-- Tokens of Lines
------------------------------------------------------------

namespace Text

/- Letters, digits and the underscore make up words. -/
def isWordByte
    (byte : UInt8) : Bool :=
  (48 ≤ byte && byte ≤ 57) || (65 ≤ byte && byte ≤ 90) ||
    (97 ≤ byte && byte ≤ 122) || byte == 95

/- Two bytes in a row belong to one word. -/
def joins
    (byte next : UInt8) : Bool :=
  isWordByte byte && isWordByte next

/- What stands in front of the comment of a line. -/
def code : List UInt8 → List UInt8
  | [] => []
  | [byte] => [byte]
  | byte :: next :: rest =>
      if byte = 47 ∧ next = 47 then []
      else byte :: code (next :: rest)

/- The byte of a blank. -/
def blank : UInt8 :=
  32

/- The tokens of a line. -/
def words
    (line : List UInt8) : List Token :=
  ((code line).splitBy joins).filter (· != [blank])

/- The tokens of a line that is given as a text. -/
def read
    (line : String) : List Token :=
  words (bytes line)

/- The tokens of a text. -/
def tokens
    (text : String) : List Token :=
  (lines text).flatMap words

/- A word is a maximal run, and a comment holds no tokens. -/
example :
    tokens "let c = 2u>>shift; // (twice)\n  c.r" =
      ["let", "c", "=", "2u", ">", ">", "shift", ";", "c",
        ".", "r"].map bytes := by
  decide

/- A blank in front of a line is no token. -/
theorem words_cons_blank
    (line : List UInt8) :
    words (blank :: line) = words line := by
  have hCode : code (blank :: line) = blank :: code line := by
    cases line with
    | nil => rfl
    | cons byte rest =>
        exact if_neg fun hSlash =>
          absurd hSlash.1 (by decide)
  unfold words
  rw [hCode]
  cases code line with
  | nil => rfl
  | cons byte rest =>
      have hApart :
          ∀ last ∈ [blank].getLast?,
            joins last byte = false := by
        intro last hLast
        cases hLast
        rfl
      have hSplit :=
        List.splitBy_append_cons (r := joins) rest hApart
      rw [List.singleton_append] at hSplit
      rw [hSplit, List.filter_append]
      rfl

/- Indenting does not change tokens. -/
theorem read_indented
    (line : String) :
    read ("    " ++ line) = read line := by
  have hBlanks :
      bytes "    " = [blank, blank, blank, blank] := by
    decide
  rw [read, bytes_append, hBlanks]
  simp only [List.cons_append, List.nil_append,
    words_cons_blank]
  rfl

end Text

------------------------------------------------------------
-- Tokens of Texts
------------------------------------------------------------

namespace Lines

/- The tokens of lines. -/
def tokens
    (lines : Lines) : List Token :=
  lines.flatMap Text.read

/- Lines after lines. -/
@[simp]
theorem tokens_append
    (lines others : Lines) :
    tokens (lines ++ others) =
      tokens lines ++ tokens others :=
  List.flatMap_append

/- A line in front of others. -/
theorem tokens_cons
    (line : String)
    (lines : Lines) :
    tokens (line :: lines) =
      Text.read line ++ tokens lines :=
  rfl

/- The tokens of one line. -/
theorem tokens_singleton
    (line : String) :
    tokens [line] = Text.read line :=
  List.append_nil _

/- Indenting does not change tokens. -/
@[simp]
theorem tokens_indent
    (lines : Lines) :
    tokens (indent lines) = tokens lines := by
  unfold tokens indent
  rw [List.flatMap_map]
  exact List.flatMap_congr fun line _ =>
    Text.read_indented line

/- The tokens of indented lines between two others. -/
theorem tokens_group
    (opening : String)
    (inner : Lines)
    (closing : String) :
    tokens (group opening inner closing) =
      Text.read opening ++
        (tokens inner ++ Text.read closing) := by
  rw [group, tokens_cons, tokens_append, tokens_indent]
  simp [tokens]

end Lines

/- The tokens of a text are those of its lines. -/
theorem Text.tokens_text
    {written : Lines}
    (hFree : written.Free lineBreak) :
    tokens written.text = written.tokens := by
  have hEnd : words [] = [] := rfl
  rw [tokens, lines_text hFree, List.flatMap_append,
    List.flatMap_map, List.flatMap_singleton, hEnd,
    List.append_nil]
  rfl

end PagedRaster
