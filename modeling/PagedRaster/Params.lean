/-
  This file defines the parameters of a draw: the words
  that a program reads while it runs.

  Key definitions include:
    * `Params`
    * `Params.words`
    * `Params.byteSize`
-/

namespace PagedRaster

/-
  The parameters of a draw.  Addresses count bytes, widths
  count pixels, and the alpha constants are eight bits wide.
  A pixel is stored with the bits that are on in
  `writeMask`; the others are those of the pixel below it
  where the draw reads that, and zero where it does not.
-/
structure Params where
  frameAddress : UInt32 := 0
  frameWidth : UInt32 := 0
  depthAddress : UInt32 := 0
  depthWidth : UInt32 := 0
  textureAddress : UInt32 := 0
  textureBufferWidth : UInt32 := 0
  textureWidth : UInt32 := 0
  textureHeight : UInt32 := 0
  paletteOffset : UInt32 := 0
  alpha0 : UInt32 := 0
  alpha1 : UInt32 := 0
  lowU : UInt32 := 0
  lowV : UInt32 := 0
  highU : UInt32 := 0
  highV : UInt32 := 0
  writeMask : UInt32 := 0xFFFFFFFF
  fixedAlpha : UInt32 := 0
  alphaReference : UInt32 := 0
  deriving DecidableEq, Repr

instance : Inhabited Params :=
  ⟨{}⟩

namespace Params

/-
  The five rows of four words that a program sees.  The
  fourth word of the third and of the last row is unused.
-/
def words
    (p : Params) : List UInt32 :=
  [p.frameAddress, p.frameWidth,
    p.depthAddress, p.depthWidth,
    p.textureAddress, p.textureBufferWidth,
    p.textureWidth, p.textureHeight,
    p.paletteOffset, p.alpha0, p.alpha1, 0,
    p.lowU, p.lowV, p.highU, p.highV,
    p.writeMask, p.fixedAlpha, p.alphaReference, 0]

/- Bytes of the parameters of one draw. -/
def byteSize : Nat :=
  80

/- The rows fill the parameter bytes. -/
theorem length_words
    (p : Params) :
    4 * p.words.length = byteSize :=
  rfl

end Params

end PagedRaster
