/-
  This file defines the binary32 operations of the drawing
  pipeline that go beyond single arithmetic steps.  Every
  one of them is built from comparisons, negation and the
  conversions of unsigned words, whose results are fixed
  by the IEEE model of `Float32`.

  Conversions to integers drop the fraction, stop at the
  ends of the target range and take NaN to zero.  `least`
  and `greatest` ignore a NaN operand; `clamp` keeps NaN.

  Key definitions include:
    * `Binary32.ofInt32`
    * `Binary32.toInt32`
    * `Binary32.floorInt`
    * `Binary32.ceilInt`
    * `Binary32.least`
    * `Binary32.greatest`
    * `Binary32.clamp`
-/

namespace PagedRaster

namespace Binary32

------------------------------------------------------------
-- Integers
------------------------------------------------------------

/-
  The nearest binary32 value of a signed word.  The sign is
  split off, because rounding to nearest is symmetric.
-/
def ofInt32
    (n : Int32) : Float32 :=
  if n < 0 then
    -((0 - n).toUInt32.toFloat32)
  else
    n.toUInt32.toFloat32

/- Truncation to a signed word, stopping at its two ends. -/
def toInt32
    (x : Float32) : Int32 :=
  if x < 0.0 then
    let size := (-x).toUInt32
    if size < 0x80000000 then
      0 - size.toInt32
    else
      Int32.minValue
  else
    let size := x.toUInt32
    if size < 0x80000000 then
      size.toInt32
    else
      Int32.maxValue

/- The greatest integer below a value in the word range. -/
def floorInt
    (x : Float32) : Int :=
  let whole := toInt32 x
  if x < ofInt32 whole then
    whole.toInt - 1
  else
    whole.toInt

/- The smallest integer above a value in the word range. -/
def ceilInt
    (x : Float32) : Int :=
  let whole := toInt32 x
  if ofInt32 whole < x then
    whole.toInt + 1
  else
    whole.toInt

------------------------------------------------------------
-- Order
------------------------------------------------------------

/- The smaller operand; a NaN operand is ignored. -/
def least
    (x y : Float32) : Float32 :=
  if x.isNaN then y
  else if y < x then y
  else x

/- The larger operand; a NaN operand is ignored. -/
def greatest
    (x y : Float32) : Float32 :=
  if x.isNaN then y
  else if x < y then y
  else x

/- The value moved into an interval; NaN stays NaN. -/
def clamp
    (x low high : Float32) : Float32 :=
  if x < low then low
  else if high < x then high
  else x

/- The value moved into the unit interval. -/
def clampUnit
    (x : Float32) : Float32 :=
  clamp x 0.0 1.0

/-
  Linear interpolation from `x` to `y`, with one rounding
  per operation.
-/
def mix
    (x y t : Float32) : Float32 :=
  x * (1.0 - t) + y * t

/- Positive infinity. -/
def infinity : Float32 :=
  Float32.ofBits 0x7F800000

end Binary32

end PagedRaster
