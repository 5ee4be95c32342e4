import PagedRaster.Binding
import PagedRaster.Memory.Basic
import PagedRaster.Program.Shared
import PagedRaster.Text.Hex

/-
  This file defines the fragment stage of a descriptor.  It
  declares only the images that the descriptor binds and
  holds only the steps that the descriptor asks for, in the
  order in which a pixel flows through them: addresses, the
  texel fetch, the colour and the alpha test in `fs_main`,
  and the commit of what passes.

  Key definitions include:
    * `FragmentStage.images`
    * `FragmentStage.addressFunction`
    * `FragmentStage.textureFunctions`
    * `FragmentStage.commit`
    * `FragmentStage.entryFunction`
    * `FragmentStage.lines`
-/

namespace PagedRaster

------------------------------------------------------------
-- Images
------------------------------------------------------------

/- An image that a program reads, with its resource. -/
structure Image where
  binding : Binding
  name : String
  deriving DecidableEq, Repr

/- The line that declares an image. -/
def Image.line
    (image : Image) : String :=
  "@group(0) @binding(" ++ toString image.binding.slot ++
    ") var " ++ image.name ++ ": texture_2d<u32>;"

namespace FragmentStage

/- The entry point of the fragment stage. -/
def entry : String :=
  "fs_main"

/- The images of a descriptor, by rising slot. -/
def images
    (d : Descriptor) : List Image :=
  (if d.usesPalette then
    [⟨.palette, "clut_image"⟩] else []) ++
    (if d.textured then
      [⟨.textureSwizzle, "tex_swizzle"⟩] else []) ++
    [⟨.frameSwizzle, "fb_swizzle"⟩,
      ⟨.depthSwizzle, "depth_swizzle"⟩]

------------------------------------------------------------
-- Addresses
------------------------------------------------------------

/- An unsigned literal. -/
def literal
    (n : Nat) : String :=
  toString n ++ "u"

/- An unsigned literal in hexadecimal. -/
def hexLiteral
    (n : Nat) : String :=
  "0x" ++ Hex.digits n ++ "u"

/-
  The function that gives the address of a pixel.  Page
  sizes are written into it; only the offset inside a page
  comes from the image.
-/
def addressFunction
    (name table : String)
    (storage : Storage) : ProgramFunction where
  name := name
  signature :=
    "(base: u32, width: u32, pos: vec2<i32>) -> u32"
  body :=
    ["let page = pos >> vec2<u32>(" ++
        literal storage.widthLog ++ ", " ++
        literal storage.heightLog ++ ");",
      "let in_page = vec2<i32>(vec2<u32>(pos) & " ++
        "vec2<u32>(" ++
        literal (storage.pageWidth - 1) ++ ", " ++
        literal (storage.pageHeight - 1) ++ "));",
      "let pages_per_row = i32(width / " ++
        literal storage.pageWidth ++ ");",
      "let page_index = " ++
        "u32(page.x + page.y * pages_per_row);",
      "let page_offset = textureLoad(" ++ table ++
        ", in_page, 0).x;",
      "return (base * " ++
        literal storage.unitsPerByte ++
        " + page_index * " ++
        literal (pageSize * storage.unitsPerByte) ++
        " + page_offset) & " ++
        hexLiteral
          (ramSize * storage.unitsPerByte - 1) ++ ";"]

------------------------------------------------------------
-- Textures
------------------------------------------------------------

/- The expression that wraps a texel coordinate. -/
def wrapExpression : WrapMode → String
  | .wrap => "coord & (size - 1)"
  | .clamp => "clamp(coord, 0, size - 1)"
  | .regionClamp =>
      "min(max(coord, min_value), max_value)"
  | .regionRepeat => "(coord & min_value) | max_value"

/- The function that wraps the coordinate of one axis. -/
def wrapFunction
    (name : String)
    (mode : WrapMode) : ProgramFunction where
  name := name
  signature :=
    "(coord: i32, size: i32, min_value: i32, " ++
      "max_value: i32) -> i32"
  body := ["return " ++ wrapExpression mode ++ ";"]

/-
  The lines that look an index up.  A 32-bit entry keeps
  its high half 256 entries after its low half.
-/
def paletteLookup : PaletteFormat → Lines
  | .ct32 =>
      ["let lo = textureLoad(clut_image, " ++
          "vec2<i32>(index, 0), 0).x;",
        "let hi = textureLoad(clut_image, " ++
          "vec2<i32>(index + 256, 0), 0).x;",
        "return psm32_to_color(lo | (hi << 16u));"]
  | .ct16 | .ct16s =>
      ["return psm16_to_color(textureLoad(clut_image, " ++
        "vec2<i32>(index, 0), 0).x);"]

/-
  The function that looks a palette index up.  Only indices
  of four bits start at the palette offset.
-/
def paletteFunction
    (d : Descriptor) : ProgramFunction where
  name := "clut_color"
  signature := "(pixel: u32) -> vec4<f32>"
  body :=
    ("let index = i32(pixel)" ++
        (if d.texture.hasByteIndex then ""
          else " + i32(params.tex1.x)") ++ ";") ::
      paletteLookup d.palette

/- The expression that fetches and decodes a texel. -/
def texelExpression : TextureFormat → String
  | .ct32 => "psm32_to_color(memory_read32(address))"
  | .ct24 => "psm32_to_color(memory_read24(address))"
  | .ct16 | .ct16s =>
      "psm16_to_color(memory_read16(address))"
  | .t8 => "clut_color(memory_read8(address))"
  | .t4 => "clut_color(memory_read4(address))"
  | .t8h => "clut_color(memory_read8(address + 3u))"
  | .t4hl =>
      "clut_color(memory_read4((address + 3u) * 2u))"
  | .t4hh =>
      "clut_color(memory_read4(" ++
        "((address + 3u) * 2u) | 1u))"

/- The function that gives the colour of a texel. -/
def texelFunction
    (format : TextureFormat) : ProgramFunction where
  name := "texture_color"
  signature := "(pos: vec2<i32>) -> vec4<f32>"
  body :=
    ["let address = tex_pixel_address(" ++
        "params.tex0.x, params.tex0.y, pos);",
      "return " ++ texelExpression format ++ ";"]

/- The functions that only textured programs have. -/
def textureFunctions
    (d : Descriptor) : List ProgramFunction :=
  [addressFunction "tex_pixel_address" "tex_swizzle"
      d.texture.pixelFormat.storage,
    wrapFunction "clamp_u" d.wrapU,
    wrapFunction "clamp_v" d.wrapV] ++
    (if d.texture.isIndexed then
      [paletteFunction d] else []) ++
    [texelFunction d.texture]

------------------------------------------------------------
-- Commit
------------------------------------------------------------

/- The function that reads cells of a width. -/
def readName
    (width : Width) : String :=
  "memory_read" ++ toString width.bits

/- The function that writes cells of a width. -/
def writeName
    (width : Width) : String :=
  "memory_write" ++ toString width.bits

/- The function that unpacks a frame buffer pixel. -/
def decodeName : FrameFormat → String
  | .ct32 | .ct24 => "psm32_to_color"
  | .ct16 | .ct16s => "psm16_to_color"

/- The function that packs a frame buffer pixel. -/
def encodeName : FrameFormat → String
  | .ct32 | .ct24 => "color_to_psm32"
  | .ct16 | .ct16s => "color_to_psm16"

/- A colour operand of the blend equation. -/
def blendInput : BlendInput → String
  | .source => "src_color.rgb"
  | .destination => "dst_color.rgb"
  | .zero => "vec3<f32>(0.0)"

/- The factor of the blend equation. -/
def blendFactor : BlendFactor → String
  | .sourceAlpha => "src_color.a"
  | .destinationAlpha => "dst_color.a"
  | .fixed => "(f32(params.alpha_fb.y) / 255.0)"

/- The lines that read the stored colour, if needed. -/
def colorRead
    (d : Descriptor) : Lines :=
  if d.readsColor then
    ["dst_pixel = " ++ readName d.frame.width ++
        "(fb_address);",
      "dst_color = " ++ decodeName d.frame ++
        "(dst_pixel);"]
  else
    []

/- The lines that compare a depth with the stored one. -/
def depthComparison
    (format : DepthFormat)
    (operator : String) : Lines :=
  ["let dst_depth = " ++ readName format.width ++
      "(depth_address);",
    "let depth_pass = depth " ++ operator ++
      " dst_depth;"]

/- The lines that test the depth. -/
def depthTest
    (d : Descriptor) : Lines :=
  match d.depthTest with
  | .never => ["let depth_pass = false;"]
  | .always => ["let depth_pass = true;"]
  | .greaterEqual => depthComparison d.depth ">="
  | .greater => depthComparison d.depth ">"

/- The lines that blend. -/
def blending
    (d : Descriptor) : Lines :=
  if d.blends then
    ["let blended = (" ++ blendInput d.blendA ++ " - " ++
        blendInput d.blendB ++ ") * " ++
        blendFactor d.blendC ++ " * 2.0 + " ++
        blendInput d.blendD ++ ";",
      "let out_color = clamp(" ++
        "vec4<f32>(blended, src_color.a), " ++
        "vec4<f32>(0.0), vec4<f32>(1.0));"]
  else
    ["let out_color = src_color;"]

/- The lines that write what passes. -/
def writes
    (d : Descriptor) : Lines :=
  ["let write_mask = params.alpha_fb.x;",
    "let pixel = (" ++ encodeName d.frame ++
      "(out_color) & write_mask) | " ++
      "(dst_pixel & ~write_mask);",
    writeName d.frame.width ++ "(fb_address, pixel);"] ++
    (if d.writesDepth then
      [writeName d.depth.width ++
        "(depth_address, depth);"] else [])

/-
  The function that reads the destination, tests the depth,
  blends, and writes.
-/
def commit
    (d : Descriptor) : ProgramFunction where
  name := "commit_pixel"
  signature :=
    "(src_color: vec4<f32>, src_depth: u32, " ++
      "fb_address: u32, depth_address: u32) " ++
      "-> vec4<f32>"
  body :=
    ["var dst_pixel = 0u;",
      "var dst_color = vec4<f32>(0.0);"] ++
      colorRead d ++
      ["let depth = src_depth & " ++
        hexLiteral d.depth.mask.toNat ++ ";"] ++
      depthTest d ++ blending d ++
      Lines.block "if depth_pass" (writes d) ++
      ["return out_color;"]

------------------------------------------------------------
-- Entry
------------------------------------------------------------

/- The lines that sample the texture. -/
def sampling : Lines :=
  ["let tex_size = vec2<i32>(params.tex0.zw);",
    "let clamp_min = vec2<i32>(params.tex_clamp.xy);",
    "let clamp_max = vec2<i32>(params.tex_clamp.zw);",
    "let texel_pos = vec2<i32>(input.tex_coord.xy / " ++
      "input.tex_coord.z * vec2<f32>(tex_size));"] ++
    Lines.group "let clamped_pos = vec2<i32>("
      ["clamp_u(texel_pos.x, tex_size.x, " ++
          "clamp_min.x, clamp_max.x),",
        "clamp_v(texel_pos.y, tex_size.y, " ++
          "clamp_min.y, clamp_max.y),"]
      ");" ++
    ["var color = texture_color(clamped_pos);"]

/- The lines that supply the alpha of a texel. -/
def alphaExpansion
    (d : Descriptor) : Lines :=
  if d.expandsAlpha then
    ["let ta0 = f32(params.tex1.y) / 255.0;",
      "let ta1 = f32(params.tex1.z) / 255.0;",
      "color = vec4<f32>(color.rgb, " ++
        "mix(ta0, ta1, color.a));"] ++
      (if d.blackIsTransparent then
        Lines.block
          "if color.r + color.g + color.b == 0.0"
          ["color = vec4<f32>(color.rgb, 0.0);"]
      else [])
  else
    []

/- The lines that scale a texel by the vertex colour. -/
def scaling
    (d : Descriptor)
    (scaled : String) : Lines :=
  ["color = clamp(" ++ scaled ++
      ", vec4<f32>(0.0), vec4<f32>(1.0));"] ++
    (if d.textureHasAlpha then []
      else ["color = vec4<f32>(color.rgb, " ++
        "input.color.a);"])

/- The lines that combine texel and vertex colour. -/
def combination
    (d : Descriptor) : Lines :=
  match d.textureFunction with
  | .decal => []
  | .modulate =>
      scaling d "color * input.color * 2.0"
  | .highlight2 =>
      scaling d
        ("color * input.color * 2.0 + " ++
          "vec4<f32>(input.color.a)")

/- The lines that give the colour of a fragment. -/
def coloring
    (d : Descriptor) : Lines :=
  if d.textured then
    sampling ++ alphaExpansion d ++ combination d
  else
    ["var color = input.color;"]

/- The line that tests alpha. -/
def alphaTest : AlphaTest → String
  | .always => "let alpha_pass = true;"
  | .equal =>
      "let alpha_pass = " ++
        "quantize_alpha(color.a) == params.alpha_fb.z;"
  | .greaterEqual =>
      "let alpha_pass = " ++
        "quantize_alpha(color.a) >= params.alpha_fb.z;"

/- The entry function. -/
def entryFunction
    (d : Descriptor) : ProgramFunction where
  name := entry
  signature :=
    "(input: FragmentInput) -> @location(0) vec4<f32>"
  body :=
    ["let src_depth = u32(input.depth * DEPTH_MAX);"] ++
      coloring d ++
      [alphaTest d.alphaTest] ++
      Lines.block "if !alpha_pass" ["return color;"] ++
      ["let screen_pos = vec2<i32>(input.position.xy);",
        "let fb_address = fb_pixel_address(" ++
          "params.fb_depth.x, params.fb_depth.y, " ++
          "screen_pos);",
        "let depth_address = depth_pixel_address(" ++
          "params.fb_depth.z, params.fb_depth.w, " ++
          "screen_pos);",
        "return commit_pixel(color, src_depth, " ++
          "fb_address, depth_address);"]

/- The functions before the entry function. -/
def functions
    (d : Descriptor) : List ProgramFunction :=
  [addressFunction "fb_pixel_address" "fb_swizzle"
      d.frame.pixelFormat.storage,
    addressFunction "depth_pixel_address" "depth_swizzle"
      d.depth.pixelFormat.storage] ++
    (if d.textured then textureFunctions d else []) ++
    [commit d]

/- The whole fragment stage of a descriptor. -/
def lines
    (d : Descriptor) : Lines :=
  Shared.lines ++
    (images d).map Image.line ++ [""] ++
    ProgramFunction.linesOf (functions d) ++
    ["@fragment"] ++ (entryFunction d).lines

end FragmentStage

end PagedRaster
