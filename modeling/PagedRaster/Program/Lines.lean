/-
  This file defines program text as a list of lines, with
  indented groups and functions.

  Key definitions include:
    * `Lines`
    * `Lines.text`
    * `Lines.block`
    * `ProgramFunction`
-/

namespace PagedRaster

/- Lines of program text, without their line breaks. -/
abbrev Lines :=
  List String

namespace Lines

/- The text of lines; each one ends with a line break. -/
def text
    (lines : Lines) : String :=
  String.join (lines.map fun line => line ++ "\n")

/- The text of lines after lines. -/
theorem text_append
    (lines others : Lines) :
    text (lines ++ others) = text lines ++ text others := by
  simp [text, String.join_append]

/- Lines moved one level to the right. -/
def indent
    (lines : Lines) : Lines :=
  lines.map fun line => "    " ++ line

/- Indented lines between an opening and a closing one. -/
def group
    (opening : String)
    (inner : Lines)
    (closing : String) : Lines :=
  opening :: (indent inner ++ [closing])

/- Indented lines between braces. -/
def block
    (head : String)
    (inner : Lines) : Lines :=
  group (head ++ " \x7b") inner "\x7d"

end Lines

/- A function of a program. -/
structure ProgramFunction where
  name : String
  signature : String
  body : Lines
  deriving DecidableEq, Repr

namespace ProgramFunction

/- The lines that define a function. -/
def lines
    (f : ProgramFunction) : Lines :=
  Lines.block ("fn " ++ f.name ++ f.signature) f.body

/-
  The lines of several functions, with a blank line after
  each of them.
-/
def linesOf
    (functions : List ProgramFunction) : Lines :=
  functions.flatMap fun f => f.lines ++ [""]

end ProgramFunction

end PagedRaster
