import PagedRaster.Scissor
import PagedRaster.Triangle.Basic

/-
  This file defines which pixels a triangle covers.  A pixel
  is covered when its centre lies inside; a centre on an
  edge counts for left edges and top edges only, so that of
  two triangles with a common edge one covers it.

  Key definitions include:
    * `Coverage.edge`
    * `Coverage.isTopLeft`
    * `Hit`
    * `Coverage.orientedHits`
    * `Triangle.hits`
-/

namespace PagedRaster

/- A point of the draw area, with y growing downwards. -/
structure Point where
  x : Float32
  y : Float32

/- The place of a vertex in the draw area. -/
def Vertex.point
    (v : Vertex) : Point :=
  ⟨v.x, v.y⟩

/-
  A covered pixel and the barycentric weights of the three
  vertices at its centre.
-/
structure Hit where
  x : UInt32
  y : UInt32
  weightA : Float32
  weightB : Float32
  weightC : Float32

/- The second and the third vertex exchanged. -/
def Hit.swap
    (hit : Hit) : Hit :=
  { hit with
    weightB := hit.weightC
    weightC := hit.weightB }

/- Exchanging twice changes nothing. -/
@[simp]
theorem Hit.swap_swap
    (hit : Hit) :
    hit.swap.swap = hit :=
  rfl

namespace Coverage

/-
  Twice the signed area of a triangle; its sign says on
  which side of the edge from `a` to `b` the point lies.
-/
@[inline]
def edge
    (a b p : Point) : Float32 :=
  (p.x - a.x) * (b.y - a.y) - (p.y - a.y) * (b.x - a.x)

/-
  With positive area, left edges run downwards and top
  edges run leftwards.
-/
def isTopLeft
    (a b : Point) : Bool :=
  let dx := b.x - a.x
  let dy := b.y - a.y
  decide (0.0 < dy) || (dy == 0.0 && decide (dx < 0.0))

/-
  A centre is on the inner side of an edge, or on an edge
  that counts.
-/
@[inline]
def inside
    (weight : Float32)
    (topLeft : Bool) : Bool :=
  decide (0.0 < weight) || (weight == 0.0 && topLeft)

/- The centre of a pixel. -/
@[inline]
def centre
    (x y : UInt32) : Point :=
  ⟨x.toFloat32 + 0.5, y.toFloat32 + 0.5⟩

/- The words from one integer up to another one. -/
def span
    (first last : Int) : List UInt32 :=
  (List.range' first.toNat (last + 1 - first).toNat).map
    UInt32.ofNat

/-
  The integers that pixels of a range of coordinates have,
  inside the given start and length of a side.
-/
def extent
    (low high : Float32)
    (start length : UInt32) : List UInt32 :=
  span (max (Binary32.floorInt low) start.toNat)
    (min (Binary32.ceilInt high)
      (start.toNat + length.toNat - 1))

/- The least of three values. -/
def least3
    (x y z : Float32) : Float32 :=
  Binary32.least (Binary32.least x y) z

/- The greatest of three values. -/
def greatest3
    (x y z : Float32) : Float32 :=
  Binary32.greatest (Binary32.greatest x y) z

/- The pixel, if a triangle of positive area covers it. -/
@[inline]
def hit?
    (a b c : Point)
    (area : Float32)
    (topLeftA topLeftB topLeftC : Bool)
    (x y : UInt32) : Option Hit :=
  let p := centre x y
  let wa := edge b c p
  let wb := edge c a p
  let wc := edge a b p
  if inside wa topLeftA && inside wb topLeftB &&
      inside wc topLeftC then
    some ⟨x, y, wa / area, wb / area, wc / area⟩
  else
    none

/-
  The pixels inside a rectangle of the draw area that a
  triangle of positive area covers, row by row.
-/
def orientedHits
    (a b c : Point)
    (area : Float32)
    (clip : Scissor) : List Hit :=
  if clip.isEmpty then
    []
  else
    let topLeftA := isTopLeft b c
    let topLeftB := isTopLeft c a
    let topLeftC := isTopLeft a b
    let columns :=
      extent (least3 a.x b.x c.x)
        (greatest3 a.x b.x c.x) clip.x clip.width
    let rows :=
      extent (least3 a.y b.y c.y)
        (greatest3 a.y b.y c.y) clip.y clip.height
    rows.flatMap fun y =>
      columns.filterMap fun x =>
        hit? a b c area topLeftA topLeftB topLeftC x y

end Coverage

/-
  The pixels that a triangle covers inside a scissor.  A
  triangle without a finite nonzero area covers none.  One
  of negative area is turned over first, and its weights
  are handed back to the vertices they belong to.
-/
def Triangle.hits
    (t : Triangle)
    (scissor : Scissor) : List Hit :=
  let a := t.a.point
  let b := t.b.point
  let c := t.c.point
  let area := Coverage.edge a b c
  if area == 0.0 || !area.isFinite then
    []
  else if area < 0.0 then
    (Coverage.orientedHits a c b (-area)
      scissor.clipped).map Hit.swap
  else
    Coverage.orientedHits a b c area scissor.clipped

end PagedRaster
