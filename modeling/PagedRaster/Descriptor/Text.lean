import PagedRaster.Descriptor.Basic
import PagedRaster.Text.Record

/-
  This file defines the one-line text of descriptors and of
  resource keys, with the fields in declaration order.

  Key definitions include:
    * `Descriptor.text`
    * `ResourceKey.text`
-/

namespace PagedRaster

/- The written form of a descriptor. -/
def Descriptor.text
    (d : Descriptor) : String :=
  Record.text "PipelineCaps"
    [("has_texture", Record.boolText d.textured),
      ("framebuffer_format", d.frame.name),
      ("depthbuffer_format", d.depth.name),
      ("texture_format", d.texture.name),
      ("clut_format", d.palette.name),
      ("tex_clamp_u", d.wrapU.name),
      ("tex_clamp_v", d.wrapV.name),
      ("texture_function", d.textureFunction.name),
      ("alpha_test", d.alphaTest.name),
      ("depth_test", d.depthTest.name),
      ("write_depth", Record.boolText d.writesDepth),
      ("has_alpha_blending", Record.boolText d.blends),
      ("blend_a", d.blendA.name),
      ("blend_b", d.blendB.name),
      ("blend_c", d.blendC.name),
      ("blend_d", d.blendD.name),
      ("mask_color", Record.boolText d.masksColor),
      ("texture_black_is_transparent",
        Record.boolText d.blackIsTransparent),
      ("texture_has_alpha",
        Record.boolText d.textureHasAlpha)]

/- The written form of a resource key. -/
def ResourceKey.text
    (key : ResourceKey) : String :=
  Record.text "DescriptorSetCaps"
    [("has_texture", Record.boolText key.textured),
      ("framebuffer_format", key.frame.name),
      ("depthbuffer_format", key.depth.name),
      ("texture_format", key.texture.name)]

end PagedRaster
