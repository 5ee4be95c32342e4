import Mathlib.Data.List.Infix
import PagedRaster.Program.Lines

/-
  This file reads texts back: the lines of a text, and what
  stands behind a mark in them.  Texts are read as bytes.
  Lines that are free of line breaks are told apart in the
  text that they make up.

  Key definitions include:
    * `Text.bytes`, `Text.lines`
    * `Text.behind`, `Text.mentions`
    * `Lines.Free`, `Lines.mentions`

  Key theorems include:
    * `Text.lines_text`
    * `Lines.text_inj`
    * `Lines.mentions_of_free`
    * `Text.mentions_text`
-/

namespace PagedRaster

------------------------------------------------------------
-- Bytes
------------------------------------------------------------

namespace Text

/- The bytes of a text. -/
def bytes
    (text : String) : List UInt8 :=
  text.toByteArray.data.toList

/- The byte of a line break. -/
def lineBreak : UInt8 :=
  10

/- The bytes of joined texts. -/
@[simp]
theorem bytes_append
    (first second : String) :
    bytes (first ++ second) =
      bytes first ++ bytes second := by
  simp [bytes, String.toByteArray_append,
    ByteArray.data_append]

/- The bytes of a text determine it. -/
theorem bytes_inj
    {first second : String} :
    bytes first = bytes second ↔ first = second := by
  rw [bytes, bytes, Array.toList_inj, ← ByteArray.ext_iff,
    String.toByteArray_inj]

------------------------------------------------------------
-- Reading Texts
------------------------------------------------------------

/-
  The lines of a text.  The last one is what follows the
  last line break.
-/
def lines
    (text : String) : List (List UInt8) :=
  (bytes text).splitOn lineBreak

/-
  What stands behind a mark in a line, for each place where
  the mark occurs.
-/
def behind
    (mark : String)
    (line : List UInt8) : List (List UInt8) :=
  line.tails.filterMap (·.dropPrefix? (bytes mark))

/- What stands behind a mark in the lines of a text. -/
def mentions
    (mark text : String) : List (List UInt8) :=
  (lines text).flatMap (behind mark)

/- A mark is not found in bytes that lack one of its own. -/
theorem behind_of_not_mem
    {mark : String}
    {byte : UInt8}
    {line : List UInt8}
    (hMark : byte ∈ bytes mark)
    (hLine : byte ∉ line) :
    behind mark line = [] := by
  rw [behind, List.filterMap_eq_nil_iff]
  intro rest hRest
  rw [List.mem_tails] at hRest
  cases hDropped : rest.dropPrefix? (bytes mark) with
  | none => rfl
  | some after =>
      rw [List.dropPrefix?_eq_some_iff] at hDropped
      rcases hDropped with ⟨found, hEq, hFound⟩
      rw [eq_of_beq hFound] at hEq
      have hMem : byte ∈ rest := by
        rw [hEq]
        exact List.mem_append_left after hMark
      exact absurd (hRest.subset hMem) hLine

end Text

------------------------------------------------------------
-- Absent Bytes
------------------------------------------------------------

namespace Lines

/- No line contains a byte. -/
def Free
    (lines : Lines)
    (byte : UInt8) : Prop :=
  ∀ line ∈ lines, byte ∉ Text.bytes line

instance
    (lines : Lines)
    (byte : UInt8) :
    Decidable (lines.Free byte) := by
  unfold Free
  infer_instance

/- A line in front of others. -/
@[simp]
theorem free_cons
    {line : String}
    {lines : Lines}
    {byte : UInt8} :
    Free (line :: lines) byte ↔
      byte ∉ Text.bytes line ∧ lines.Free byte :=
  List.forall_mem_cons

/- Lines after lines. -/
@[simp]
theorem free_append
    {lines others : Lines}
    {byte : UInt8} :
    Free (lines ++ others) byte ↔
      lines.Free byte ∧ others.Free byte :=
  List.forall_mem_append

/- A line that is joined from two pieces. -/
theorem free_line_append
    {first second : String}
    {byte : UInt8}
    (hFirst : Free [first] byte)
    (hSecond : Free [second] byte) :
    Free [first ++ second] byte := by
  have hBytes := (free_cons.mp hFirst).1
  have hOther := (free_cons.mp hSecond).1
  simp [Free, hBytes, hOther]

/- Indenting adds blanks only. -/
@[simp]
theorem free_indent
    {lines : Lines}
    {byte : UInt8}
    (hByte : byte ∉ Text.bytes "    ") :
    (indent lines).Free byte ↔ lines.Free byte := by
  simp [Free, indent, hByte]

end Lines

------------------------------------------------------------
-- Lines of a Text
------------------------------------------------------------

/- Lines without line breaks are read back from their text. -/
theorem Text.lines_text
    {written : Lines}
    (hFree : written.Free lineBreak) :
    lines written.text =
      written.map bytes ++ [[]] := by
  induction written with
  | nil => rfl
  | cons line rest ih =>
      rw [Lines.free_cons] at hFree
      have hBytes :
          bytes (Lines.text (line :: rest)) =
            bytes line ++
              lineBreak :: bytes (Lines.text rest) := by
        rw [Lines.text, List.map_cons, String.join_cons,
          bytes_append, bytes_append, List.append_assoc]
        rfl
      rw [lines, hBytes,
        List.splitOn_append_cons_self_of_not_mem hFree.1]
      exact congrArg (bytes line :: ·) (ih hFree.2)

/- The text of lines without line breaks determines them. -/
theorem Lines.text_inj
    {lines others : Lines}
    (hFree : lines.Free Text.lineBreak)
    (hOthers : others.Free Text.lineBreak)
    (hText : lines.text = others.text) :
    lines = others := by
  have hLines := congrArg Text.lines hText
  rw [Text.lines_text hFree, Text.lines_text hOthers,
    List.append_cancel_right_eq] at hLines
  have hBytes : Function.Injective Text.bytes :=
    fun _ _ => Text.bytes_inj.mp
  exact List.map_injective_iff.mpr hBytes hLines

/- What stands behind a mark in lines. -/
def Lines.mentions
    (mark : String)
    (lines : Lines) : List (List UInt8) :=
  lines.flatMap fun line =>
    Text.behind mark (Text.bytes line)

/- Lines after lines mention what both do. -/
theorem Lines.mentions_append
    (mark : String)
    (lines others : Lines) :
    mentions mark (lines ++ others) =
      mentions mark lines ++ mentions mark others :=
  List.flatMap_append

/- A mark is not found in lines that lack one of its bytes. -/
theorem Lines.mentions_of_free
    {mark : String}
    {byte : UInt8}
    {lines : Lines}
    (hMark : byte ∈ Text.bytes mark)
    (hFree : lines.Free byte) :
    lines.mentions mark = [] := by
  rw [mentions, List.flatMap_eq_nil_iff]
  intro line hLine
  exact Text.behind_of_not_mem hMark (hFree line hLine)

/- A text mentions what its lines do. -/
theorem Text.mentions_text
    {written : Lines}
    (hFree : written.Free lineBreak)
    {mark : String}
    {byte : UInt8}
    (hMark : byte ∈ bytes mark) :
    mentions mark written.text = written.mentions mark := by
  have hEnd : behind mark [] = [] :=
    behind_of_not_mem hMark List.not_mem_nil
  rw [mentions, lines_text hFree, List.flatMap_append,
    List.flatMap_map, List.flatMap_cons, hEnd]
  exact List.append_nil _

end PagedRaster
