import PagedRaster.Program.Lines

/-
  This file defines the declarations that every fragment
  program starts with: constants, parameters, inputs, the
  memory, and the functions that read and write it and that
  pack and unpack colours.

  Key definitions include:
    * `Shared.memoryFunctions`
    * `Shared.colorFunctions`
    * `Shared.lines`
-/

namespace PagedRaster

namespace Shared

/- The comment at the head of a fragment program. -/
def comment : Lines :=
  ["// Declarations shared by every synthesized " ++
      "fragment program.",
    "//",
    "// GS memory is one flat array of 32-bit words. " ++
      "Sub-word writes go through atomics so",
    "// that neighbouring pixels packed into the same " ++
      "word never lose each other\x27s bits."]

/- The depth range and the ends of memory. -/
def constants : Lines :=
  ["const DEPTH_MAX: f32 = 4294967296.0;",
    "const RAM_BYTE_MASK: u32 = 0x3FFFFFu;",
    "const RAM_NIBBLE_MASK: u32 = 0x7FFFFFu;"]

/- The parameters of a draw, in rows of four words. -/
def paramsStruct : Lines :=
  Lines.block "struct DrawParams"
    ["fb_depth: vec4<u32>,",
      "tex0: vec4<u32>,",
      "tex1: vec4<u32>,",
      "tex_clamp: vec4<u32>,",
      "alpha_fb: vec4<u32>,"]

/- What the vertex stage hands to a fragment. -/
def inputStruct : Lines :=
  Lines.block "struct FragmentInput"
    ["@builtin(position) position: vec4<f32>,",
      "@location(0) depth: f32,",
      "@location(1) color: vec4<f32>,",
      "@location(2) tex_coord: vec3<f32>,"]

/- The memory and the parameters. -/
def globals : Lines :=
  ["@group(0) @binding(0) var<storage, read_write> " ++
      "gs_memory: array<atomic<u32>>;",
    "@group(1) @binding(0) var<uniform> " ++
      "params: DrawParams;"]

/- The functions that read and write memory. -/
def memoryFunctions : List ProgramFunction :=
  [{ name := "word_index"
     signature := "(address: u32) -> u32"
     body :=
      ["return (address & RAM_BYTE_MASK) >> 2u;"] },
    { name := "memory_read32"
      signature := "(address: u32) -> u32"
      body :=
        ["return atomicLoad(" ++
          "&gs_memory[word_index(address)]);"] },
    { name := "memory_read24"
      signature := "(address: u32) -> u32"
      body :=
        ["return atomicLoad(" ++
          "&gs_memory[word_index(address)]) " ++
          "& 0xFFFFFFu;"] },
    { name := "memory_read16"
      signature := "(address: u32) -> u32"
      body :=
        ["let shift = (address & 2u) * 8u;",
          "return (atomicLoad(" ++
            "&gs_memory[word_index(address)]) " ++
            ">> shift) & 0xFFFFu;"] },
    { name := "memory_read8"
      signature := "(address: u32) -> u32"
      body :=
        ["let shift = (address & 3u) * 8u;",
          "return (atomicLoad(" ++
            "&gs_memory[word_index(address)]) " ++
            ">> shift) & 0xFFu;"] },
    { name := "memory_read4"
      signature := "(nibble_address: u32) -> u32"
      body :=
        ["let nibble = nibble_address " ++
            "& RAM_NIBBLE_MASK;",
          "let shift = (nibble & 7u) * 4u;",
          "return (atomicLoad(" ++
            "&gs_memory[nibble >> 3u]) " ++
            ">> shift) & 0xFu;"] },
    { name := "memory_write32"
      signature := "(address: u32, value: u32)"
      body :=
        ["atomicStore(" ++
          "&gs_memory[word_index(address)], value);"] },
    { name := "memory_write24"
      signature := "(address: u32, value: u32)"
      body :=
        ["let index = word_index(address);",
          "atomicAnd(&gs_memory[index], 0xFF000000u);",
          "atomicOr(&gs_memory[index], " ++
            "value & 0xFFFFFFu);"] },
    { name := "memory_write16"
      signature := "(address: u32, value: u32)"
      body :=
        ["let index = word_index(address);",
          "let shift = (address & 2u) * 8u;",
          "atomicAnd(&gs_memory[index], " ++
            "~(0xFFFFu << shift));",
          "atomicOr(&gs_memory[index], " ++
            "(value & 0xFFFFu) << shift);"] }]

/- The functions that pack and unpack colours. -/
def colorFunctions : List ProgramFunction :=
  [{ name := "quantize_alpha"
     signature := "(alpha: f32) -> u32"
     body :=
      ["return u32(clamp(alpha, 0.0, 1.0) * 255.0);"] },
    { name := "psm32_to_color"
      signature := "(pixel: u32) -> vec4<f32>"
      body :=
        ["let channels = vec4<u32>(pixel, " ++
            "pixel >> 8u, pixel >> 16u, " ++
            "pixel >> 24u) & vec4<u32>(0xFFu);",
          "return vec4<f32>(channels) / 255.0;"] },
    { name := "color_to_psm32"
      signature := "(color: vec4<f32>) -> u32"
      body :=
        ["let c = vec4<u32>(clamp(color, " ++
            "vec4<f32>(0.0), vec4<f32>(1.0)) " ++
            "* 255.0 + 0.5);",
          "return c.r | (c.g << 8u) | " ++
            "(c.b << 16u) | (c.a << 24u);"] },
    { name := "psm16_to_color"
      signature := "(pixel: u32) -> vec4<f32>"
      body :=
        ["let channels = vec3<u32>(pixel, " ++
            "pixel >> 5u, pixel >> 10u) " ++
            "& vec3<u32>(0x1Fu);",
          "return vec4<f32>(" ++
            "vec3<f32>(channels) / 31.0, " ++
            "f32((pixel >> 15u) & 1u));"] },
    { name := "color_to_psm16"
      signature := "(color: vec4<f32>) -> u32"
      body :=
        ["let c = vec3<u32>(clamp(color.rgb, " ++
            "vec3<f32>(0.0), vec3<f32>(1.0)) " ++
            "* 31.0 + 0.5);",
          "let a = u32(clamp(color.a, 0.0, 1.0) " ++
            "* 255.0 + 0.5) >> 7u;",
          "return c.r | (c.g << 5u) | " ++
            "(c.b << 10u) | (a << 15u);"] }]

/- The shared functions in the order of their text. -/
def functions : List ProgramFunction :=
  memoryFunctions ++ colorFunctions

/- The shared part of every fragment program. -/
def lines : Lines :=
  comment ++ [""] ++ constants ++ [""] ++
    paramsStruct ++ [""] ++ inputStruct ++ [""] ++
    globals ++ [""] ++ ProgramFunction.linesOf functions

end Shared

end PagedRaster
