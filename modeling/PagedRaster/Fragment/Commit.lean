import PagedRaster.Fragment.Basic

/-
  This file defines what happens to a fragment that passed
  the alpha test: the stored pixel and depth are read if
  needed, the depth is tested, the colour is blended, and
  what passes is written under the write mask.

  Key definitions include:
    * `FrameFormat.decode`
    * `FrameFormat.encode`
    * `DrawState.blend`
    * `DrawState.outputColor`
    * `DrawState.depthPasses`
    * `DrawState.mergedPixel`
    * `DrawState.commit`
-/

namespace PagedRaster

------------------------------------------------------------
-- Pixels
------------------------------------------------------------

namespace FrameFormat

/- The colour of a stored pixel. -/
def decode
    (format : FrameFormat)
    (pixel : UInt32) : Color :=
  match format with
  | .ct32 | .ct24 => Color.ofPixel32 pixel
  | .ct16 | .ct16s => Color.ofPixel16 pixel

/- The pixel that stores a colour. -/
def encode
    (format : FrameFormat)
    (color : Color) : UInt32 :=
  match format with
  | .ct32 | .ct24 => color.toPixel32
  | .ct16 | .ct16s => color.toPixel16

end FrameFormat

namespace DrawState

/- The address of a frame buffer pixel. -/
def frameAddress
    (state : DrawState)
    (x y : Int32) : UInt32 :=
  pixelAddress
    (state.bank.get state.descriptor.frame.pixelFormat)
    state.params.frameAddress state.params.frameWidth x y

/- The address of a stored depth. -/
def depthAddress
    (state : DrawState)
    (x y : Int32) : UInt32 :=
  pixelAddress
    (state.bank.get state.descriptor.depth.pixelFormat)
    state.params.depthAddress state.params.depthWidth x y

/- The stored pixel; zero for programs that do not read it. -/
def storedPixel
    (state : DrawState)
    (memory : Memory)
    (address : UInt32) : UInt32 :=
  if state.descriptor.readsColor then
    memory.read state.descriptor.frame.width address
  else
    0

/-
  The stored colour; zero for programs that do not read it.
-/
def storedColor
    (state : DrawState)
    (pixel : UInt32) : Color :=
  if state.descriptor.readsColor then
    state.descriptor.frame.decode pixel
  else
    Color.zero

------------------------------------------------------------
-- Blending
------------------------------------------------------------

/- The colour that an operand of the blend equation names. -/
def blendOperand
    (input : BlendInput)
    (source stored : Color) : Color :=
  match input with
  | .source => source
  | .destination => stored
  | .zero => Color.zero

/- The factor of the blend equation. -/
def blendScale
    (state : DrawState)
    (source stored : Color) : Float32 :=
  match state.descriptor.blendC with
  | .sourceAlpha => source.a
  | .destinationAlpha => stored.a
  | .fixed => state.params.fixedAlpha.toFloat32 / 255.0

/- The blend equation on one channel. -/
@[inline]
def blendChannel
    (a b c d : Float32) : Float32 :=
  Binary32.clampUnit ((a - b) * c * 2.0 + d)

/- The blended colour; alpha is the clamped source alpha. -/
def blend
    (state : DrawState)
    (source stored : Color) : Color :=
  let descriptor := state.descriptor
  let a := blendOperand descriptor.blendA source stored
  let b := blendOperand descriptor.blendB source stored
  let c := state.blendScale source stored
  let d := blendOperand descriptor.blendD source stored
  { r := blendChannel a.r b.r c d.r
    g := blendChannel a.g b.g c d.g
    b := blendChannel a.b b.b c d.b
    a := Binary32.clampUnit source.a }

/- The colour that is written. -/
def outputColor
    (state : DrawState)
    (source stored : Color) : Color :=
  if state.descriptor.blends then
    state.blend source stored
  else
    source

------------------------------------------------------------
-- Writing
------------------------------------------------------------

/- The depth test at an address. -/
def depthPasses
    (state : DrawState)
    (memory : Memory)
    (address depth : UInt32) : Bool :=
  state.descriptor.depthTest.passes depth fun _ =>
    memory.read state.descriptor.depth.width address

/-
  The written pixel: masked-out bits come from the stored
  one.
-/
def mergedPixel
    (state : DrawState)
    (color : Color)
    (stored : UInt32) : UInt32 :=
  let mask := state.params.writeMask
  (state.descriptor.frame.encode color &&& mask) |||
    (stored &&& ~~~mask)

/-
  Write the pixel of a fragment that passed all tests, and
  then its depth.
-/
def store
    (state : DrawState)
    (memory : Memory)
    (frameAddress depthAddress pixel depth : UInt32) :
    Memory :=
  let d := state.descriptor
  let memory :=
    memory.write d.frame.width frameAddress pixel
  if d.writesDepth then
    memory.write d.depth.width depthAddress depth
  else
    memory

/-
  Commit a colour and a depth at a pixel.  Everything that
  is read is read before anything is written.
-/
def commit
    (state : DrawState)
    (memory : Memory)
    (source : Color)
    (sourceDepth : UInt32)
    (x y : Int32) : Color × Memory :=
  let d := state.descriptor
  let frameAddress := state.frameAddress x y
  let depthAddress := state.depthAddress x y
  let stored := state.storedPixel memory frameAddress
  let depth := sourceDepth &&& d.depth.mask
  let passes := state.depthPasses memory depthAddress depth
  let color :=
    state.outputColor source (state.storedColor stored)
  if passes then
    (color,
      state.store memory frameAddress depthAddress
        (state.mergedPixel color stored) depth)
  else
    (color, memory)

end DrawState

end PagedRaster
