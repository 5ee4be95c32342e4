/-
  This file defines how a record value is written on one
  line: its name, and its fields in order between braces.

  Key definitions include:
    * `Record.text`
    * `Record.listText`
-/

namespace PagedRaster

namespace Record

/- One field, as its name, a colon and its value. -/
def fieldText
    (field : String × String) : String :=
  field.1 ++ ": " ++ field.2

/- A record with its fields in declaration order. -/
def text
    (name : String)
    (fields : List (String × String)) : String :=
  name ++ " \x7b " ++
    String.intercalate ", " (fields.map fieldText) ++
    " \x7d"

/- A list between square brackets. -/
def listText
    (items : List String) : String :=
  "[" ++ String.intercalate ", " items ++ "]"

/- A truth value in lower case. -/
def boolText
    (b : Bool) : String :=
  if b then "true" else "false"

end Record

end PagedRaster
