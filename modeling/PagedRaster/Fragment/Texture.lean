import PagedRaster.Fragment.Basic

/-
  This file defines the colour of a textured fragment: the
  texel under its texture coordinate, the alpha that the
  texel's format lacks, and the combination with the vertex
  colour.

  Key definitions include:
    * `DrawState.texelPlace`
    * `DrawState.texel`
    * `DrawState.expandAlpha`
    * `TextureFunction.combine`
    * `DrawState.texturedColor`
-/

namespace PagedRaster

------------------------------------------------------------
-- Texels
------------------------------------------------------------

namespace DrawState

/- The place of the texel that a fragment samples. -/
def texelPlace
    (state : DrawState)
    (fragment : Fragment) : Int32 × Int32 :=
  let d := state.descriptor
  let p := state.params
  let width := p.textureWidth.toInt32
  let height := p.textureHeight.toInt32
  let u :=
    Binary32.toInt32
      (fragment.s / fragment.q * Binary32.ofInt32 width)
  let v :=
    Binary32.toInt32
      (fragment.t / fragment.q * Binary32.ofInt32 height)
  (d.wrapU.apply u width p.lowU.toInt32 p.highU.toInt32,
    d.wrapV.apply v height p.lowV.toInt32 p.highV.toInt32)

/- The address of a texel. -/
def texelAddress
    (state : DrawState)
    (u v : Int32) : UInt32 :=
  pixelAddress
    (state.bank.get state.descriptor.texture.pixelFormat)
    state.params.textureAddress
    state.params.textureBufferWidth u v

/-
  The colour of a palette index.  Only indices of four bits
  start at the palette offset.
-/
def paletteColor
    (state : DrawState)
    (index : UInt32) : Color :=
  let d := state.descriptor
  let offset :=
    if d.texture.hasByteIndex then 0
    else state.params.paletteOffset.toInt32
  let place := index.toInt32 + offset
  match d.palette with
  | .ct32 =>
      Color.ofPixel32
        (Palette.entry state.palette place |||
          (Palette.entry state.palette (place + 256) <<<
            16))
  | .ct16 | .ct16s =>
      Color.ofPixel16 (Palette.entry state.palette place)

end DrawState

namespace TextureFormat

/- The access width of a texel or of its index. -/
def width : TextureFormat → Width
  | .ct32 => .w32
  | .ct24 => .w24
  | .ct16 | .ct16s => .w16
  | .t8 | .t8h => .w8
  | .t4 | .t4hl | .t4hh => .w4

/-
  The address that is read for a texel.  Indices in the
  high bits lie in the last byte of the pixel; those of
  four bits are addressed in nibbles.
-/
def readAddress
    (format : TextureFormat)
    (address : UInt32) : UInt32 :=
  match format with
  | .t8h => address + 3
  | .t4hl => (address + 3) * 2
  | .t4hh => (address + 3) * 2 ||| 1
  | _ => address

end TextureFormat

namespace DrawState

/- The bits of the texel at a place. -/
def texelBits
    (state : DrawState)
    (memory : Memory)
    (u v : Int32) : UInt32 :=
  let format := state.descriptor.texture
  memory.read format.width
    (format.readAddress (state.texelAddress u v))

/- The colour of the texel at a place. -/
def texel
    (state : DrawState)
    (memory : Memory)
    (u v : Int32) : Color :=
  let bits := state.texelBits memory u v
  match state.descriptor.texture with
  | .ct32 | .ct24 => Color.ofPixel32 bits
  | .ct16 | .ct16s => Color.ofPixel16 bits
  | .t8 | .t4 | .t8h | .t4hl | .t4hh =>
      state.paletteColor bits

------------------------------------------------------------
-- Alpha
------------------------------------------------------------

/-
  The texel with the alpha that its format lacks: the two
  alpha constants stand for alpha bit zero and one, and
  black may count as transparent.
-/
def expandAlpha
    (state : DrawState)
    (texel : Color) : Color :=
  let d := state.descriptor
  if d.expandsAlpha then
    if d.blackIsTransparent &&
        texel.r + texel.g + texel.b == 0.0 then
      { texel with a := 0.0 }
    else
      let alpha0 := state.params.alpha0.toFloat32 / 255.0
      let alpha1 := state.params.alpha1.toFloat32 / 255.0
      { texel with
        a := Binary32.mix alpha0 alpha1 texel.a }
  else
    texel

end DrawState

------------------------------------------------------------
-- Combination
------------------------------------------------------------

namespace TextureFunction

/- A texel channel scaled by a vertex channel. -/
@[inline]
def scale
    (texel vertex offset : Float32) : Float32 :=
  Binary32.clampUnit (texel * vertex * 2.0 + offset)

/- A texel scaled by the vertex colour. -/
def scaleColor
    (hasAlpha : Bool)
    (texel vertex : Color)
    (offset : Float32) : Color where
  r := scale texel.r vertex.r offset
  g := scale texel.g vertex.g offset
  b := scale texel.b vertex.b offset
  a :=
    if hasAlpha then scale texel.a vertex.a offset
    else vertex.a

/- The texel combined with the vertex colour. -/
def combine
    (function : TextureFunction)
    (hasAlpha : Bool)
    (texel vertex : Color) : Color :=
  match function with
  | .decal => texel
  | .modulate => scaleColor hasAlpha texel vertex 0.0
  | .highlight2 =>
      scaleColor hasAlpha texel vertex vertex.a

end TextureFunction

namespace DrawState

/- The colour of a textured fragment. -/
def texturedColor
    (state : DrawState)
    (memory : Memory)
    (fragment : Fragment) : Color :=
  let d := state.descriptor
  let place := state.texelPlace fragment
  let texel := state.texel memory place.1 place.2
  d.textureFunction.combine d.textureHasAlpha
    (state.expandAlpha texel) fragment.color

end DrawState

end PagedRaster
