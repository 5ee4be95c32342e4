/-
  This file defines the draw area and the scissor rectangle
  that restricts drawing to a part of it.

  Key definitions include:
    * `drawAreaSize`
    * `Scissor`
    * `Scissor.clipped`
    * `Scissor.isEmpty`
    * `Scissor.contains`
-/

namespace PagedRaster

/- Pixels along each side of the draw area. -/
def drawAreaSize : UInt32 :=
  1024

/- A rectangle of pixels; it may leave the draw area. -/
structure Scissor where
  x : UInt32 := 0
  y : UInt32 := 0
  width : UInt32 := drawAreaSize
  height : UInt32 := drawAreaSize
  deriving DecidableEq, Repr

instance : Inhabited Scissor :=
  ⟨{}⟩

namespace Scissor

/- The part of the rectangle inside the draw area. -/
def clipped
    (s : Scissor) : Scissor :=
  let x := min s.x drawAreaSize
  let y := min s.y drawAreaSize
  { x := x
    y := y
    width := min s.width (drawAreaSize - x)
    height := min s.height (drawAreaSize - y) }

/- The rectangle holds no pixel. -/
def isEmpty
    (s : Scissor) : Bool :=
  s.width == 0 || s.height == 0

/-
  A pixel lies in the rectangle.  The differences are taken
  only where they do not wrap.
-/
def contains
    (s : Scissor)
    (x y : UInt32) : Bool :=
  decide (s.x ≤ x) && decide (s.y ≤ y) &&
    decide (x - s.x < s.width) &&
    decide (y - s.y < s.height)

end Scissor

end PagedRaster
