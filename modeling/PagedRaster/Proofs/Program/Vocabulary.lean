import PagedRaster.Program.FragmentStage
import PagedRaster.Proofs.Program.Reading

/-
  This file proves what the parts of a fragment program
  declare and load.  Most parts are plain: they contain
  neither an `@`, as declarations do, nor an `L`, as loads
  from images do.

  Key definitions include:
    * `FragmentStage.Plain`
    * `FragmentStage.loads`
    * `FragmentStage.sharedDeclarations`

  Key theorems include:
    * `FragmentStage.commit_plain`
    * `FragmentStage.functions_reads`
    * `FragmentStage.lines_reads`
-/

namespace PagedRaster

namespace FragmentStage

/- Lines without line breaks, `@` and `L`. -/
def Plain
    (lines : Lines) : Prop :=
  lines.Free Text.lineBreak ∧ lines.Free Declaration.atSign ∧
    lines.Free Text.upperL

instance
    (lines : Lines) :
    Decidable (Plain lines) := by
  unfold Plain
  infer_instance

/- Lines after lines are plain when both are. -/
theorem plain_append
    {lines others : Lines}
    (hLines : Plain lines)
    (hOthers : Plain others) :
    Plain (lines ++ others) :=
  ⟨Lines.free_append.mpr ⟨hLines.1, hOthers.1⟩,
    Lines.free_append.mpr ⟨hLines.2.1, hOthers.2.1⟩,
    Lines.free_append.mpr ⟨hLines.2.2, hOthers.2.2⟩⟩

/- A line in front of others. -/
theorem plain_cons
    {line : String}
    {lines : Lines}
    (hLine : Plain [line])
    (hLines : Plain lines) :
    Plain (line :: lines) :=
  plain_append hLine hLines

/- Indented lines are plain when the lines are. -/
theorem plain_indent
    {lines : Lines}
    (hLines : Plain lines) :
    Plain (Lines.indent lines) := by
  have hBlank : Plain ["    "] := by decide
  simp only [Plain, Lines.free_cons] at hBlank
  exact
    ⟨(Lines.free_indent hBlank.1.1).mpr hLines.1,
      (Lines.free_indent hBlank.2.1.1).mpr hLines.2.1,
      (Lines.free_indent hBlank.2.2.1).mpr hLines.2.2⟩

/- A group is plain when its parts are. -/
theorem plain_group
    {opening closing : String}
    {inner : Lines}
    (hOpening : Plain [opening])
    (hInner : Plain inner)
    (hClosing : Plain [closing]) :
    Plain (Lines.group opening inner closing) :=
  plain_append hOpening
    (plain_append (plain_indent hInner) hClosing)

------------------------------------------------------------
-- Texture Functions
------------------------------------------------------------

/- Wrap functions are plain. -/
theorem wrapFunction_plain
    (mode : WrapMode) :
    Plain (wrapFunction "clamp_u" mode).lines ∧
      Plain (wrapFunction "clamp_v" mode).lines := by
  cases mode <;> decide

/- The texel function is plain. -/
theorem texelFunction_plain
    (format : TextureFormat) :
    Plain (texelFunction format).lines := by
  cases format <;> decide

------------------------------------------------------------
-- The Commit Function
------------------------------------------------------------

/- The lines that read the stored colour are plain. -/
theorem colorRead_plain
    (d : Descriptor) :
    Plain (colorRead d) := by
  unfold colorRead
  split
  · cases d.frame <;> decide
  · decide

/- The lines that test the depth are plain. -/
theorem depthTest_plain
    (d : Descriptor) :
    Plain (depthTest d) := by
  unfold depthTest
  cases d.depthTest <;> cases d.depth <;> decide

/- A joined line is plain when its pieces are. -/
theorem plain_line_append
    {first second : String}
    (hFirst : Plain [first])
    (hSecond : Plain [second]) :
    Plain [first ++ second] :=
  ⟨Lines.free_line_append hFirst.1 hSecond.1,
    Lines.free_line_append hFirst.2.1 hSecond.2.1,
    Lines.free_line_append hFirst.2.2 hSecond.2.2⟩

/- Operands of the blend equation are plain. -/
theorem blendInput_plain
    (input : BlendInput) :
    Plain [blendInput input] := by
  cases input <;> decide

/- Factors of the blend equation are plain. -/
theorem blendFactor_plain
    (factor : BlendFactor) :
    Plain [blendFactor factor] := by
  cases factor <;> decide

/- The lines that blend are plain. -/
theorem blending_plain
    (d : Descriptor) :
    Plain (blending d) := by
  unfold blending
  split
  · apply plain_cons
    · repeat' apply plain_line_append
      all_goals
        first
          | exact blendInput_plain _
          | exact blendFactor_plain _
          | decide
    · decide
  · decide

/- The lines that write are plain. -/
theorem writes_plain
    (d : Descriptor) :
    Plain (writes d) := by
  apply plain_append
  · cases d.frame <;> decide
  · split
    · cases d.depth <;> decide
    · decide

/- The lines of a function are plain when its parts are. -/
theorem plain_lines
    {f : ProgramFunction}
    (hHead : Plain ["fn " ++ f.name ++ f.signature ++ " \x7b"])
    (hBody : Plain f.body) :
    Plain f.lines := by
  have hEnd : Plain ["\x7d"] := by decide
  exact plain_group hHead hBody hEnd

/- The commit function is plain. -/
theorem commit_plain
    (d : Descriptor) :
    Plain (commit d).lines := by
  have hStart :
      Plain
        ["var dst_pixel = 0u;",
          "var dst_color = vec4<f32>(0.0);"] := by
    decide
  have hDepth :
      Plain
        ["let depth = src_depth & " ++
          hexLiteral d.depth.mask.toNat ++ ";"] := by
    cases d.depth <;> decide
  have hIf : Plain ["if depth_pass" ++ " \x7b"] := by
    decide
  have hEnd : Plain ["\x7d"] := by decide
  have hReturn : Plain ["return out_color;"] := by
    decide
  have hHead :
      Plain
        ["fn " ++ (commit {}).name ++
          (commit {}).signature ++ " \x7b"] := by
    decide
  apply plain_lines
  · exact hHead
  · exact plain_append
      (plain_append
        (plain_append
          (plain_append
            (plain_append
              (plain_append hStart (colorRead_plain d))
              hDepth)
            (depthTest_plain d))
          (blending_plain d))
        (plain_group hIf (writes_plain d) hEnd))
      hReturn

------------------------------------------------------------
-- The Entry Function
------------------------------------------------------------

/- The lines that supply the alpha of a texel are plain. -/
theorem alphaExpansion_plain
    (d : Descriptor) :
    Plain (alphaExpansion d) := by
  unfold alphaExpansion
  split
  · split
    · decide
    · decide
  · decide

/- The lines that combine two colours are plain. -/
theorem combination_plain
    (d : Descriptor) :
    Plain (combination d) := by
  unfold combination scaling
  cases d.textureFunction <;>
    cases d.textureHasAlpha <;> decide

/- The lines that give the colour are plain. -/
theorem coloring_plain
    (d : Descriptor) :
    Plain (coloring d) := by
  unfold coloring
  split
  · have hSampling : Plain sampling := by decide
    exact plain_append
      (plain_append hSampling (alphaExpansion_plain d))
      (combination_plain d)
  · decide

/- The body of the entry function is plain. -/
theorem entryFunction_plain
    (d : Descriptor) :
    Plain (entryFunction d).body := by
  have hStart :
      Plain
        ["let src_depth = u32(input.depth * DEPTH_MAX);"
          ] := by
    decide
  have hAlpha : Plain [alphaTest d.alphaTest] := by
    cases d.alphaTest <;> decide
  refine plain_append (plain_append (plain_append
    (plain_append hStart (coloring_plain d)) hAlpha) ?_) ?_
  · decide
  · decide

------------------------------------------------------------
-- Functions that Load
------------------------------------------------------------

/- Plain lines declare nothing and load nothing. -/
theorem Plain.reads
    {lines : Lines}
    (hPlain : Plain lines) :
    lines.Reads [] [] := by
  rcases hPlain with ⟨hBreak, hAt, hL⟩
  refine ⟨hBreak, ?_, ?_⟩
  · rw [Lines.mentions_of_free Declaration.atSign_mem_mark
      hAt]
    rfl
  · rw [Lines.mentions_of_free Text.upperL_mem_loadMark hL]
    rfl

/- The names of the address functions, with their tables. -/
def addressTables : List (String × String) :=
  [("fb_pixel_address", "fb_swizzle"),
    ("depth_pixel_address", "depth_swizzle"),
    ("tex_pixel_address", "tex_swizzle")]

/- An address function loads from its table. -/
theorem addressFunction_reads
    (storage : Storage) :
    ∀ table ∈ addressTables,
      (addressFunction table.1 table.2 storage).lines.Reads
        [] [table.2] := by
  cases storage <;> decide

/- How often a palette entry is loaded. -/
def paletteLoads : PaletteFormat → List String
  | .ct32 => ["clut_image", "clut_image"]
  | .ct16 | .ct16s => ["clut_image"]

/- The palette function loads from the palette. -/
theorem paletteFunction_reads
    (d : Descriptor) :
    (paletteFunction d).lines.Reads []
      (paletteLoads d.palette) := by
  unfold paletteFunction
  cases d.texture.hasByteIndex <;>
    cases d.palette <;> decide

/- No functions hold nothing. -/
theorem linesOf_nil_reads :
    (ProgramFunction.linesOf []).Reads [] [] := by
  decide

/- A function in front of others. -/
theorem linesOf_cons_reads
    {f : ProgramFunction}
    {functions : List ProgramFunction}
    {images others : List String}
    (hFirst : f.lines.Reads [] images)
    (hRest :
      (ProgramFunction.linesOf functions).Reads []
        others) :
    (ProgramFunction.linesOf (f :: functions)).Reads []
      (images ++ others) := by
  have hBlank : Lines.Reads [""] [] [] := by decide
  have hReads := (hFirst.append hBlank).append hRest
  rw [List.append_nil images] at hReads
  exact hReads

/- The images that the functions of a descriptor load. -/
def loads
    (d : Descriptor) : List String :=
  ["fb_swizzle", "depth_swizzle"] ++
    (if d.textured then
      "tex_swizzle" ::
        (if d.texture.isIndexed then
          paletteLoads d.palette else [])
    else [])

/- The texture functions load from table and palette. -/
theorem textureFunctions_reads
    (d : Descriptor) :
    (ProgramFunction.linesOf
        (textureFunctions d ++ [commit d])).Reads []
      ("tex_swizzle" ::
        (if d.texture.isIndexed then
          paletteLoads d.palette else [])) := by
  have hCommit :=
    linesOf_cons_reads (commit_plain d).reads
      linesOf_nil_reads
  have hTexel :=
    linesOf_cons_reads (texelFunction_plain d.texture).reads
      hCommit
  have hTable :=
    addressFunction_reads d.texture.pixelFormat.storage
      ("tex_pixel_address", "tex_swizzle") (by decide)
  have hWrapU := (wrapFunction_plain d.wrapU).1.reads
  have hWrapV := (wrapFunction_plain d.wrapV).2.reads
  unfold textureFunctions
  split
  · have hPalette :=
      linesOf_cons_reads (paletteFunction_reads d) hTexel
    simp only [List.append_nil] at hPalette
    exact linesOf_cons_reads hTable
      (linesOf_cons_reads hWrapU
        (linesOf_cons_reads hWrapV hPalette))
  · exact linesOf_cons_reads hTable
      (linesOf_cons_reads hWrapU
        (linesOf_cons_reads hWrapV hTexel))

/- The functions of a descriptor declare nothing. -/
theorem functions_reads
    (d : Descriptor) :
    (ProgramFunction.linesOf (functions d)).Reads []
      (loads d) := by
  have hFrame :=
    addressFunction_reads d.frame.pixelFormat.storage
      ("fb_pixel_address", "fb_swizzle") (by decide)
  have hDepth :=
    addressFunction_reads d.depth.pixelFormat.storage
      ("depth_pixel_address", "depth_swizzle") (by decide)
  unfold functions loads
  rw [List.append_assoc]
  apply linesOf_cons_reads hFrame
  apply linesOf_cons_reads hDepth
  split
  · exact textureFunctions_reads d
  · exact linesOf_cons_reads (commit_plain d).reads
      linesOf_nil_reads

------------------------------------------------------------
-- Whole Programs
------------------------------------------------------------

/- The entry function with its attribute holds nothing. -/
theorem entry_reads
    (d : Descriptor) :
    Lines.Reads (["@fragment"] ++ (entryFunction d).lines)
      [] [] := by
  have hAttribute : Lines.Reads ["@fragment"] [] [] := by
    decide
  have hHead :
      Lines.Reads
        ["fn " ++ (entryFunction {}).name ++
          (entryFunction {}).signature ++ " \x7b"]
        [] [] := by
    decide
  have hEnd : Plain ["\x7d"] := by decide
  have hBody :=
    plain_append (plain_indent (entryFunction_plain d)) hEnd
  exact hAttribute.append (hHead.append hBody.reads)

/- The declaration that an image has in a text. -/
def declarationOf
    (image : Image) : Declaration where
  group := resourceGroup
  slot := image.binding.slot
  name := image.name
  type := "texture_2d<u32>"

/- The images of a descriptor are declared as they are. -/
theorem images_reads
    (d : Descriptor) :
    Lines.Reads ((images d).map Image.line ++ [""])
      (((images d).map declarationOf).map some) [] := by
  unfold images
  cases d.usesPalette <;>
    cases d.textured <;> decide

/- What every program declares: memory and parameters. -/
def sharedDeclarations : List Declaration :=
  [{ group := resourceGroup
     slot := Binding.memory.slot
     name := "gs_memory"
     type := "array<atomic<u32>>" },
    { group := paramsGroup
      slot := 0
      name := "params"
      type := "DrawParams" }]

set_option maxRecDepth 4000 in
/- The shared lines declare memory and parameters. -/
theorem shared_reads :
    Shared.lines.Reads (sharedDeclarations.map some) [] := by
  decide

/- What the lines of a program declare and load. -/
theorem lines_reads
    (d : Descriptor) :
    (lines d).Reads
      ((sharedDeclarations ++
        (images d).map declarationOf).map some)
      (loads d) := by
  have hReads :=
    ((shared_reads.append (images_reads d)).append
      (functions_reads d)).append (entry_reads d)
  simp only [List.append_nil, List.nil_append] at hReads
  rw [List.map_append]
  unfold lines
  simpa only [List.append_assoc] using hReads

end FragmentStage

end PagedRaster
