import PagedRaster.Format.Color

/-
  This file defines vertices and their place in a vertex
  buffer.

  Key definitions include:
    * `Vertex`
    * `Vertex.solid`
    * `Vertex.rgba`
    * `Vertex.depthFraction`
    * `Vertex.attributes`
-/

namespace PagedRaster

/- The depth range: one more than the largest depth. -/
def depthMax : Float32 :=
  4294967296.0

/-
  A vertex: its place in draw-area pixels, its unsigned
  depth, a packed colour with red lowest, and a homogeneous
  texture coordinate.
-/
structure Vertex where
  x : Float32
  y : Float32
  z : UInt32
  color : UInt32
  s : Float32
  t : Float32
  q : Float32

/- One attribute of a vertex as a program reads it. -/
structure VertexAttribute where
  location : Nat
  offset : Nat
  format : String
  deriving DecidableEq, Repr

namespace Vertex

/- The vertex whose fields are all zero. -/
def zero : Vertex :=
  ⟨0.0, 0.0, 0, 0, 0.0, 0.0, 0.0⟩

instance : Inhabited Vertex :=
  ⟨zero⟩

/- An untextured vertex of one colour, given as bytes. -/
def solid
    (x y : Float32)
    (z : UInt32)
    (r g b a : UInt8) : Vertex where
  x := x
  y := y
  z := z
  color :=
    r.toUInt32 ||| (g.toUInt32 <<< 8) |||
      (b.toUInt32 <<< 16) ||| (a.toUInt32 <<< 24)
  s := 0.0
  t := 0.0
  q := 1.0

/- The colour of a vertex. -/
def rgba
    (v : Vertex) : Color :=
  Color.ofPixel32 v.color

/- The depth of a vertex as a fraction of the range. -/
def depthFraction
    (v : Vertex) : Float32 :=
  v.z.toFloat32 / depthMax

/- Bytes of a vertex in a vertex buffer. -/
def byteSize : Nat :=
  28

/- Position, depth, colour and texture coordinate. -/
def attributes : List VertexAttribute :=
  [⟨0, 0, "Float32x2"⟩, ⟨1, 8, "Uint32"⟩,
    ⟨2, 12, "Unorm8x4"⟩, ⟨3, 16, "Float32x3"⟩]

end Vertex

end PagedRaster
