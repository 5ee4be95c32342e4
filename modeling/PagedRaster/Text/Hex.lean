/-
  This file defines the upper-case hexadecimal text of a
  number, with or without a least number of digits.

  Key definitions include:
    * `Hex.digits`
    * `Hex.padded`
-/

namespace PagedRaster

namespace Hex

/- The upper-case hexadecimal digits of a number. -/
def digits
    (n : Nat) : String :=
  String.ofList ((Nat.toDigits 16 n).map Char.toUpper)

/- The digits, with zeros in front up to a least length. -/
def padded
    (least : Nat)
    (n : Nat) : String :=
  let text := digits n
  String.ofList
    (List.replicate (least - text.length) '0') ++ text

end Hex

end PagedRaster
