import PagedRaster.Binary32

/-
  This file defines colours of four binary32 channels and
  their packed forms of 32 and 16 bits.  A 32-bit pixel has
  eight bits a channel, red lowest; a 16-bit pixel has five
  bits of red, green and blue and one bit of alpha.

  Key definitions include:
    * `Color`
    * `Color.ofPixel32`
    * `Color.toPixel32`
    * `Color.ofPixel16`
    * `Color.toPixel16`
    * `quantizeAlpha`
-/

namespace PagedRaster

/- A colour; full intensity of a channel is one. -/
structure Color where
  r : Float32
  g : Float32
  b : Float32
  a : Float32

/- The alpha byte that the alpha test compares. -/
def quantizeAlpha
    (alpha : Float32) : UInt32 :=
  (Binary32.clampUnit alpha * 255.0).toUInt32

/-
  The integer nearest to a channel on a scale that ends at
  `most`; channels outside the unit interval are clamped.
-/
def encodeChannel
    (channel most : Float32) : UInt32 :=
  (Binary32.clampUnit channel * most + 0.5).toUInt32

namespace Color

/- The colour whose four channels are zero. -/
def zero : Color :=
  ⟨0.0, 0.0, 0.0, 0.0⟩

/- The channel of an eight-bit field. -/
def ofByte
    (field : UInt32) : Float32 :=
  (field &&& 0xFF).toFloat32 / 255.0

/- The channel of a five-bit field. -/
def ofFiveBits
    (field : UInt32) : Float32 :=
  (field &&& 0x1F).toFloat32 / 31.0

/- Unpack a 32-bit pixel. -/
def ofPixel32
    (pixel : UInt32) : Color where
  r := ofByte pixel
  g := ofByte (pixel >>> 8)
  b := ofByte (pixel >>> 16)
  a := ofByte (pixel >>> 24)

/- Pack a colour into 32 bits. -/
def toPixel32
    (color : Color) : UInt32 :=
  encodeChannel color.r 255.0 |||
    (encodeChannel color.g 255.0 <<< 8) |||
    (encodeChannel color.b 255.0 <<< 16) |||
    (encodeChannel color.a 255.0 <<< 24)

/- Unpack a 16-bit pixel; the alpha bit is zero or one. -/
def ofPixel16
    (pixel : UInt32) : Color where
  r := ofFiveBits pixel
  g := ofFiveBits (pixel >>> 5)
  b := ofFiveBits (pixel >>> 10)
  a := ((pixel >>> 15) &&& 1).toFloat32

/-
  Pack a colour into 16 bits.  The alpha bit is the highest
  bit of the eight-bit alpha.
-/
def toPixel16
    (color : Color) : UInt32 :=
  encodeChannel color.r 31.0 |||
    (encodeChannel color.g 31.0 <<< 5) |||
    (encodeChannel color.b 31.0 <<< 10) |||
    ((encodeChannel color.a 255.0 >>> 7) <<< 15)

end Color

end PagedRaster
