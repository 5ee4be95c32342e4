import PagedRaster.Descriptor.Basic
import PagedRaster.Memory.Address
import PagedRaster.Params
import PagedRaster.Triangle.Coverage

/-
  This file defines fragments, their interpolation from the
  vertices of a triangle, and the state that all fragments
  of a draw share.

  Key definitions include:
    * `Fragment`
    * `Fragment.interpolate`
    * `Palette`
    * `Palette.entry`
    * `DrawState`
-/

namespace PagedRaster

------------------------------------------------------------
-- Fragments
------------------------------------------------------------

/-
  What a program receives for one pixel: its place, its
  depth as a fraction of the depth range, its colour and
  its homogeneous texture coordinate.
-/
structure Fragment where
  x : Int32
  y : Int32
  depth : Float32
  color : Color
  s : Float32
  t : Float32
  q : Float32

namespace Fragment

/- The weighted sum of a value at the three vertices. -/
@[inline]
def weighted
    (hit : Hit)
    (a b c : Float32) : Float32 :=
  0.0 + hit.weightA * a + hit.weightB * b +
    hit.weightC * c

/- The fragment of a covered pixel. -/
def interpolate
    (t : Triangle)
    (hit : Hit) : Fragment :=
  let ca := t.a.rgba
  let cb := t.b.rgba
  let cc := t.c.rgba
  { x := hit.x.toInt32
    y := hit.y.toInt32
    depth :=
      weighted hit t.a.depthFraction t.b.depthFraction
        t.c.depthFraction
    color :=
      ⟨weighted hit ca.r cb.r cc.r,
        weighted hit ca.g cb.g cc.g,
        weighted hit ca.b cb.b cc.b,
        weighted hit ca.a cb.a cc.a⟩
    s := weighted hit t.a.s t.b.s t.c.s
    t := weighted hit t.a.t t.b.t t.c.t
    q := weighted hit t.a.q t.b.q t.c.q }

/- The depth of a fragment as a word. -/
def depthWord
    (fragment : Fragment) : UInt32 :=
  (fragment.depth * depthMax).toUInt32

end Fragment

------------------------------------------------------------
-- Palettes
------------------------------------------------------------

/- Entries of a palette. -/
def paletteSize : Nat :=
  512

/-
  A palette of 16-bit entries.  A 32-bit colour keeps its
  high half 256 entries after its low half.
-/
abbrev Palette :=
  Vector UInt32 paletteSize

namespace Palette

/- The palette whose entries are all zero. -/
def blank : Palette :=
  Vector.replicate paletteSize 0

/-
  Replace entries from a place on; all of them must lie in
  the palette.
-/
def fill
    (palette : Palette)
    (start : Nat)
    (values : List UInt32) : Option Palette :=
  if start + values.length ≤ paletteSize then
    some (values.zipIdx.foldl
      (fun palette value =>
        palette.setIfInBounds (start + value.2) value.1)
      palette)
  else
    none

/- The entry at a place; outside the palette it is zero. -/
def entry
    (palette : Palette)
    (place : Int32) : UInt32 :=
  if place < 0 then
    0
  else
    palette[place.toInt.toNat]?.getD 0

end Palette

------------------------------------------------------------
-- Draw State
------------------------------------------------------------

/- What all fragments of a draw share. -/
structure DrawState where
  descriptor : Descriptor
  params : Params
  bank : SwizzleBank
  palette : Palette

end PagedRaster
