import PagedRaster.Program.Lines

/-
  This file defines the vertex stage, which all programs
  share.  It maps draw-area pixels to clip space with row
  zero at the top and hands depth on as a fraction of the
  depth range.

  Key definitions include:
    * `VertexStage.entry`
    * `VertexStage.lines`
-/

namespace PagedRaster

namespace VertexStage

/- The entry point of the vertex stage. -/
def entry : String :=
  "vs_main"

/- The size of the draw area and the depth range. -/
def constants : Lines :=
  ["const DRAW_AREA_SIZE: f32 = 1024.0;",
    "const DEPTH_MAX: f32 = 4294967296.0;"]

/- The attributes of a vertex. -/
def inputStruct : Lines :=
  Lines.block "struct VertexInput"
    ["@location(0) position: vec2<f32>,",
      "@location(1) depth: u32,",
      "@location(2) color: vec4<f32>,",
      "@location(3) tex_coord: vec3<f32>,"]

/- What a fragment receives. -/
def outputStruct : Lines :=
  Lines.block "struct VertexOutput"
    ["@builtin(position) position: vec4<f32>,",
      "@location(0) depth: f32,",
      "@location(1) color: vec4<f32>,",
      "@location(2) tex_coord: vec3<f32>,"]

/- The entry function. -/
def entryFunction : ProgramFunction where
  name := entry
  signature := "(input: VertexInput) -> VertexOutput"
  body :=
    ["let ndc = input.position * " ++
        "(2.0 / DRAW_AREA_SIZE) - vec2<f32>(1.0);",
      "var output: VertexOutput;",
      "output.position = " ++
        "vec4<f32>(ndc.x, -ndc.y, 0.0, 1.0);",
      "output.depth = f32(input.depth) / DEPTH_MAX;",
      "output.color = input.color;",
      "output.tex_coord = input.tex_coord;",
      "return output;"]

/- The whole vertex stage. -/
def lines : Lines :=
  constants ++ [""] ++ inputStruct ++ [""] ++
    outputStruct ++ [""] ++ ["@vertex"] ++ entryFunction.lines

end VertexStage

end PagedRaster
