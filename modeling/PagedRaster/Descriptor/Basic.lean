import PagedRaster.Descriptor.Wrap
import PagedRaster.Format.Role

/-
  This file defines the descriptor of a draw program: the
  nineteen choices that a program is specialised on.  All
  that can change without a new program is in `Params`.

  Key definitions include:
    * `AlphaTest.passes`
    * `DepthTest.passes`
    * `BlendInput`, `BlendFactor`
    * `Descriptor`
    * `Descriptor.readsColor`
    * `Descriptor.usesPalette`
    * `Descriptor.expandsAlpha`
    * `ResourceKey`
-/

namespace PagedRaster

------------------------------------------------------------
-- Tests
------------------------------------------------------------

/- How a texel is combined with the vertex colour. -/
inductive TextureFunction where
  | modulate
  | decal
  | highlight2
  deriving DecidableEq, Repr, Inhabited

namespace TextureFunction

/- Every texture function. -/
def all : List TextureFunction :=
  [.modulate, .decal, .highlight2]

/- The written name of a texture function. -/
def name : TextureFunction → String
  | .modulate => "Modulate"
  | .decal => "Decal"
  | .highlight2 => "Highlight2"

end TextureFunction

/- The comparison of a fragment's alpha byte. -/
inductive AlphaTest where
  | always
  | equal
  | greaterEqual
  deriving DecidableEq, Repr, Inhabited

namespace AlphaTest

/- Every alpha test. -/
def all : List AlphaTest :=
  [.always, .equal, .greaterEqual]

/- The written name of an alpha test. -/
def name : AlphaTest → String
  | .always => "Always"
  | .equal => "Equal"
  | .greaterEqual => "GEqual"

/- The test of an alpha byte against the reference. -/
def passes
    (test : AlphaTest)
    (alpha reference : UInt32) : Bool :=
  match test with
  | .always => true
  | .equal => alpha == reference
  | .greaterEqual => decide (reference ≤ alpha)

end AlphaTest

/- The comparison of a fragment's depth. -/
inductive DepthTest where
  | never
  | always
  | greaterEqual
  | greater
  deriving DecidableEq, Repr

instance : Inhabited DepthTest :=
  ⟨.always⟩

namespace DepthTest

/- Every depth test. -/
def all : List DepthTest :=
  [.never, .always, .greaterEqual, .greater]

/- The written name of a depth test. -/
def name : DepthTest → String
  | .never => "Never"
  | .always => "Always"
  | .greaterEqual => "GEqual"
  | .greater => "Greater"

/- The test compares with the stored depth. -/
def readsDepth : DepthTest → Bool
  | .never | .always => false
  | .greaterEqual | .greater => true

/-
  The test of a depth against the stored one.  The stored
  depth is asked for only by the tests that compare.
-/
def passes
    (test : DepthTest)
    (depth : UInt32)
    (stored : Unit → UInt32) : Bool :=
  match test with
  | .never => false
  | .always => true
  | .greaterEqual => decide (stored () ≤ depth)
  | .greater => decide (stored () < depth)

/-
  A test that does not compare gives one answer for every
  stored depth.
-/
theorem passes_congr
    {test : DepthTest}
    (hReads : test.readsDepth = false)
    (depth : UInt32)
    (stored stored' : Unit → UInt32) :
    test.passes depth stored =
      test.passes depth stored' := by
  cases test with
  | never => rfl
  | always => rfl
  | greaterEqual => simp [readsDepth] at hReads
  | greater => simp [readsDepth] at hReads

end DepthTest

------------------------------------------------------------
-- Blending
------------------------------------------------------------

/- A colour operand of the blend equation. -/
inductive BlendInput where
  | source
  | destination
  | zero
  deriving DecidableEq, Repr, Inhabited

namespace BlendInput

/- Every colour operand. -/
def all : List BlendInput :=
  [.source, .destination, .zero]

/- The written name of a colour operand. -/
def name : BlendInput → String
  | .source => "Cs"
  | .destination => "Cd"
  | .zero => "Zero"

end BlendInput

/- The factor of the blend equation. -/
inductive BlendFactor where
  | sourceAlpha
  | destinationAlpha
  | fixed
  deriving DecidableEq, Repr, Inhabited

namespace BlendFactor

/- Every factor. -/
def all : List BlendFactor :=
  [.sourceAlpha, .destinationAlpha, .fixed]

/- The written name of a factor. -/
def name : BlendFactor → String
  | .sourceAlpha => "As"
  | .destinationAlpha => "Ad"
  | .fixed => "Fix"

end BlendFactor

------------------------------------------------------------
-- Descriptors
------------------------------------------------------------

/-
  The descriptor of one specialised draw program.  Blending
  computes `(A - B) * C * 2 + D`.
-/
structure Descriptor where
  textured : Bool := false
  frame : FrameFormat := .ct32
  depth : DepthFormat := .z32
  texture : TextureFormat := .ct32
  palette : PaletteFormat := .ct32
  wrapU : WrapMode := .wrap
  wrapV : WrapMode := .wrap
  textureFunction : TextureFunction := .modulate
  alphaTest : AlphaTest := .always
  depthTest : DepthTest := .always
  writesDepth : Bool := false
  blends : Bool := false
  blendA : BlendInput := .source
  blendB : BlendInput := .source
  blendC : BlendFactor := .sourceAlpha
  blendD : BlendInput := .source
  masksColor : Bool := false
  blackIsTransparent : Bool := false
  textureHasAlpha : Bool := false
  deriving DecidableEq, Repr, Inhabited

namespace Descriptor

/- The stored colour is read before it is written. -/
def readsColor
    (d : Descriptor) : Bool :=
  d.blends || d.masksColor

/- The texture needs a palette. -/
def usesPalette
    (d : Descriptor) : Bool :=
  d.textured && d.texture.isIndexed

/- Texels of the descriptor's formats carry no full alpha. -/
def texelsLackAlpha
    (d : Descriptor) : Bool :=
  match d.texture with
  | .ct24 | .ct16 | .ct16s => true
  | .ct32 => false
  | .t8 | .t4 | .t8h | .t4hl | .t4hh =>
      match d.palette with
      | .ct32 => false
      | .ct16 | .ct16s => true

/- Alpha of a texel comes from the two alpha constants. -/
def expandsAlpha
    (d : Descriptor) : Bool :=
  d.textured && d.textureHasAlpha && d.texelsLackAlpha

end Descriptor

------------------------------------------------------------
-- Resource Keys
------------------------------------------------------------

/-
  The part of a descriptor that decides which resources a
  program binds.  Many descriptors share one key.
-/
structure ResourceKey where
  textured : Bool := false
  frame : FrameFormat := .ct32
  depth : DepthFormat := .z32
  texture : TextureFormat := .ct32
  deriving DecidableEq, Repr, Inhabited

namespace ResourceKey

/- The bound resources include a palette. -/
def usesPalette
    (key : ResourceKey) : Bool :=
  key.textured && key.texture.isIndexed

end ResourceKey

/- The resource key of a descriptor. -/
def Descriptor.resourceKey
    (d : Descriptor) : ResourceKey where
  textured := d.textured
  frame := d.frame
  depth := d.depth
  texture := d.texture

/- A descriptor and its key agree on the palette. -/
theorem Descriptor.usesPalette_resourceKey
    (d : Descriptor) :
    d.resourceKey.usesPalette = d.usesPalette :=
  rfl

end PagedRaster
