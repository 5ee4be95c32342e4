import PagedRaster.Proofs.Program.Bindings
import PagedRaster.Proofs.Program.Peeling

/-
  This file proves what the text of a program tells of its
  descriptor.  The text is taken apart from front to back;
  every part shows the choices that it was written for, up
  to formats that differ only in where a page keeps its
  blocks and up to choices that are without effect.

  Key definitions include:
    * `Descriptor.SameTexturing`
    * `Descriptor.SameEffect`

  Key theorems include:
    * `FragmentStage.textureFunctions_peels`
    * `FragmentStage.commit_peels`
    * `FragmentStage.entryFunction_peels`
    * `Descriptor.sameEffect_of_program`
-/

namespace PagedRaster

------------------------------------------------------------
-- Effects
------------------------------------------------------------

/- A frame buffer format up to its twin. -/
def FrameFormat.merged : FrameFormat → FrameFormat
  | .ct16s => .ct16
  | format => format

/- A depth format up to its twin. -/
def DepthFormat.merged : DepthFormat → DepthFormat
  | .z16s => .z16
  | format => format

/- A texture format up to its twin. -/
def TextureFormat.merged : TextureFormat → TextureFormat
  | .ct16s => .ct16
  | format => format

/- A palette format up to its twin. -/
def PaletteFormat.merged : PaletteFormat → PaletteFormat
  | .ct16s => .ct16
  | format => format

namespace Descriptor

/- Two textured descriptors sample in the same way. -/
structure SameTexturing
    (d e : Descriptor) : Prop where
  texture : d.texture.merged = e.texture.merged
  wrapU : d.wrapU = e.wrapU
  wrapV : d.wrapV = e.wrapV
  textureFunction : d.textureFunction = e.textureFunction
  palette :
    d.texture.isIndexed = true →
      d.palette.merged = e.palette.merged
  expandsAlpha : d.expandsAlpha = e.expandsAlpha
  blackIsTransparent :
    d.expandsAlpha = true →
      d.blackIsTransparent = e.blackIsTransparent
  textureHasAlpha :
    d.textureFunction ≠ .decal →
      d.textureHasAlpha = e.textureHasAlpha

/- Two blending descriptors use the same equation. -/
structure SameBlending
    (d e : Descriptor) : Prop where
  blendA : d.blendA = e.blendA
  blendB : d.blendB = e.blendB
  blendC : d.blendC = e.blendC
  blendD : d.blendD = e.blendD

/-
  Two descriptors agree on every choice that has an effect.
  Operands count only when blending, masking only when not,
  and the choices of sampling only for textured programs.
-/
structure SameEffect
    (d e : Descriptor) : Prop where
  textured : d.textured = e.textured
  frame : d.frame.merged = e.frame.merged
  depth : d.depth.merged = e.depth.merged
  alphaTest : d.alphaTest = e.alphaTest
  depthTest : d.depthTest = e.depthTest
  writesDepth : d.writesDepth = e.writesDepth
  blends : d.blends = e.blends
  blending : d.blends = true → SameBlending d e
  masking :
    d.blends = false → d.masksColor = e.masksColor
  texturing : d.textured = true → SameTexturing d e

end Descriptor

namespace FragmentStage

variable (d e : Descriptor)

------------------------------------------------------------
-- Images
------------------------------------------------------------

/- The images show whether there is texture and palette. -/
theorem images_peels :
    Peels ((images d).map Image.line ++ [""])
      ((images e).map Image.line ++ [""])
      (d.usesPalette = e.usesPalette ∧
        d.textured = e.textured) := by
  unfold images
  cases d.usesPalette <;> cases d.textured <;>
    cases e.usesPalette <;> cases e.textured <;>
    first
      | exact (peels_refl _).mono fun _ => ⟨rfl, rfl⟩
      | exact peels_of_neither_starts (by decide) (by decide)

------------------------------------------------------------
-- Functions
------------------------------------------------------------

/- The functions of two lists, one list after the other. -/
theorem linesOf_append
    (functions others : List ProgramFunction) :
    ProgramFunction.linesOf (functions ++ others) =
      ProgramFunction.linesOf functions ++
        ProgramFunction.linesOf others :=
  List.flatMap_append

/- A function is peeled off when its body is. -/
theorem lines_peels
    {f g : ProgramFunction}
    {R : Prop}
    (hBody : Peels f.body g.body R) :
    Peels f.lines g.lines R :=
  (hBody.indent.append_same ["\x7d"]).cons
    ("fn " ++ f.name ++ f.signature ++ " \x7b")
    ("fn " ++ g.name ++ g.signature ++ " \x7b")

/- So it is with the blank line behind it. -/
theorem function_peels
    {f g : ProgramFunction}
    {R : Prop}
    (hBody : Peels f.body g.body R) :
    Peels (ProgramFunction.linesOf [f])
      (ProgramFunction.linesOf [g]) R := by
  simp only [ProgramFunction.linesOf, List.flatMap_cons,
    List.flatMap_nil, List.append_nil]
  exact (lines_peels hBody).append_same [""]

/- Address functions are peeled off. -/
theorem addressFunction_peels
    (name table : String)
    (storage other : Storage) :
    Peels
      (ProgramFunction.linesOf
        [addressFunction name table storage])
      (ProgramFunction.linesOf
        [addressFunction name table other]) True := by
  have hLength :
      ∀ s, (addressFunction name table s).body.length = 6 :=
    fun _ => rfl
  refine function_peels ?_
  exact peels_of_length
    ((hLength storage).trans (hLength other).symm)
    fun _ => trivial

/- A wrap function shows its mode. -/
theorem wrapFunction_peels
    (name : String)
    (mode other : WrapMode) :
    Peels
      (ProgramFunction.linesOf [wrapFunction name mode])
      (ProgramFunction.linesOf [wrapFunction name other])
      (mode = other) := by
  have hMode :
      ["return " ++ wrapExpression mode ++ ";"] =
          ["return " ++ wrapExpression other ++ ";"] →
        mode = other := by
    cases mode <;> cases other <;> decide
  refine function_peels ?_
  exact peels_of_length rfl hMode

/- The texel function shows the texture format. -/
theorem texelFunction_peels
    (format other : TextureFormat) :
    Peels
      (ProgramFunction.linesOf [texelFunction format])
      (ProgramFunction.linesOf [texelFunction other])
      (format.merged = other.merged) := by
  have hFormat :
      texelExpression format = texelExpression other →
        format.merged = other.merged := by
    cases format <;> cases other <;> decide
  refine function_peels ?_
  refine peels_of_length rfl fun hBody => ?_
  apply hFormat
  simpa [texelFunction] using hBody

/- The palette function shows the palette format. -/
theorem paletteFunction_peels :
    Peels (ProgramFunction.linesOf [paletteFunction d])
      (ProgramFunction.linesOf [paletteFunction e])
      (d.palette.merged = e.palette.merged) := by
  have hLookup :
      Peels (paletteLookup d.palette)
        (paletteLookup e.palette)
        (d.palette.merged = e.palette.merged) := by
    cases d.palette <;> cases e.palette <;>
      first
        | exact (peels_refl _).mono fun _ => rfl
        | exact peels_of_neither_starts (by decide) (by decide)
  exact function_peels (hLookup.cons _ _)

/- What the texture functions show. -/
structure ShownTexture
    (d e : Descriptor) : Prop where
  wrapU : d.wrapU = e.wrapU
  wrapV : d.wrapV = e.wrapV
  palette :
    d.texture.isIndexed = true →
      d.palette.merged = e.palette.merged
  texture : d.texture.merged = e.texture.merged

/- The texture functions of programs with equal images. -/
theorem textureFunctions_peels
    (hIndexed : d.texture.isIndexed = e.texture.isIndexed) :
    Peels (ProgramFunction.linesOf (textureFunctions d))
      (ProgramFunction.linesOf (textureFunctions e))
      (ShownTexture d e) := by
  have hAddress :=
    addressFunction_peels "tex_pixel_address" "tex_swizzle"
      d.texture.pixelFormat.storage
      e.texture.pixelFormat.storage
  have hWrapU := wrapFunction_peels "clamp_u" d.wrapU e.wrapU
  have hWrapV := wrapFunction_peels "clamp_v" d.wrapV e.wrapV
  have hTexel := texelFunction_peels d.texture e.texture
  have hPalette :
      Peels
        (ProgramFunction.linesOf
          (if d.texture.isIndexed then [paletteFunction d]
            else []))
        (ProgramFunction.linesOf
          (if e.texture.isIndexed then [paletteFunction e]
            else []))
        (d.texture.isIndexed = true →
          d.palette.merged = e.palette.merged) := by
    rw [← hIndexed]
    cases d.texture.isIndexed with
    | true =>
        exact (paletteFunction_peels d e).mono fun h _ => h
    | false => exact (peels_refl _).mono fun _ => nofun
  have hAll :=
    (((hAddress.append fun _ => hWrapU).append fun _ =>
      hWrapV).append fun _ => hPalette).append fun _ =>
        hTexel
  unfold textureFunctions
  simp only [← linesOf_append] at hAll
  exact hAll.mono fun ⟨⟨⟨⟨_, hU⟩, hV⟩, hP⟩, hT⟩ =>
    ⟨hU, hV, hP, hT⟩

------------------------------------------------------------
-- The Commit Function
------------------------------------------------------------

/- Reading the stored colour shows that it is needed. -/
theorem colorRead_peels :
    Peels
      (colorRead d ++
        ["let depth = src_depth & " ++
          hexLiteral d.depth.mask.toNat ++ ";"])
      (colorRead e ++
        ["let depth = src_depth & " ++
          hexLiteral e.depth.mask.toNat ++ ";"])
      (d.readsColor = e.readsColor ∧
        d.depth.merged = e.depth.merged) := by
  have hDepth :
      ["let depth = src_depth & " ++
            hexLiteral d.depth.mask.toNat ++ ";"] =
          ["let depth = src_depth & " ++
            hexLiteral e.depth.mask.toNat ++ ";"] →
        d.depth.merged = e.depth.merged := by
    cases d.depth <;> cases e.depth <;> decide
  have hApart :
      ∀ frame depth,
        "dst_pixel = " ++ readName (FrameFormat.width frame)
            ++ "(fb_address);" ≠
          "let depth = src_depth & " ++
            hexLiteral (DepthFormat.mask depth).toNat ++
              ";" := by
    intro frame depth
    cases frame <;> cases depth <;> decide
  unfold colorRead
  refine
    (Peels.optional (R := True)
      (S := d.depth.merged = e.depth.merged)
      ?part ?next ?first ?second).mono ?shown
  case part =>
    exact fun _ _ => peels_of_length rfl fun _ => trivial
  case next => exact fun _ => peels_of_length rfl hDepth
  case first =>
    exact peels_of_head_ne (hApart d.frame e.depth)
  case second =>
    exact peels_of_head_ne (hApart e.frame d.depth).symm
  case shown => exact fun h => ⟨h.1, h.2.2⟩

/- The depth test shows itself once the depth is known. -/
theorem depthTest_peels
    (hDepth : d.depth.merged = e.depth.merged) :
    Peels (depthTest d) (depthTest e)
      (d.depthTest = e.depthTest) := by
  have hWidth : d.depth.width = e.depth.width := by
    revert hDepth
    cases d.depth <;> cases e.depth <;> decide
  unfold depthTest depthComparison
  rw [hWidth]
  cases d.depthTest <;> cases e.depthTest <;>
    first
      | exact (peels_refl _).mono fun _ => rfl
      | cases e.depth <;>
          exact peels_of_neither_starts (by decide) (by decide)

/- An operand of the blend equation shows itself. -/
theorem blendInput_peels
    (input other : BlendInput) :
    Peels (Text.bytes (blendInput input))
      (Text.bytes (blendInput other))
      (input = other) := by
  cases input <;> cases other <;>
    first
      | exact (peels_refl _).mono fun _ => rfl
      | exact peels_of_neither_starts (by decide) (by decide)

/- A factor of the blend equation shows itself. -/
theorem blendFactor_peels
    (factor other : BlendFactor) :
    Peels (Text.bytes (blendFactor factor))
      (Text.bytes (blendFactor other))
      (factor = other) := by
  cases factor <;> cases other <;>
    first
      | exact (peels_refl _).mono fun _ => rfl
      | exact peels_of_neither_starts (by decide) (by decide)

/- The blend equation of a descriptor. -/
def equation : String :=
  "let blended = (" ++ blendInput d.blendA ++ " - " ++
    blendInput d.blendB ++ ") * " ++
      blendFactor d.blendC ++ " * 2.0 + " ++
        blendInput d.blendD ++ ";"

/- The blend equation shows its operands. -/
theorem equation_inj
    (hEquation : equation d = equation e) :
    d.SameBlending e := by
  have hA := blendInput_peels d.blendA e.blendA
  have hB := blendInput_peels d.blendB e.blendB
  have hC := blendFactor_peels d.blendC e.blendC
  have hD := blendInput_peels d.blendD e.blendD
  have hFirst :=
    ((peels_refl (Text.bytes "let blended = (")).append
      fun _ => hA).append_same (Text.bytes " - ")
  have hSecond :=
    (hFirst.append fun _ => hB).append_same
      (Text.bytes ") * ")
  have hThird :=
    (hSecond.append fun _ => hC).append_same
      (Text.bytes " * 2.0 + ")
  have hPeels :=
    (hThird.append fun _ => hD).append_same
      (Text.bytes ";")
  have hBytes := congrArg Text.bytes hEquation
  unfold equation at hBytes
  simp only [Text.bytes_append] at hBytes
  rcases hPeels.related hBytes with
    ⟨⟨⟨⟨_, hA⟩, hB⟩, hC⟩, hD⟩
  exact ⟨hA, hB, hC, hD⟩

/- Blending shows whether and how it is done. -/
theorem blending_peels :
    Peels (blending d) (blending e)
      (d.blends = e.blends ∧
        (d.blends = true → d.SameBlending e)) := by
  have hApart :
      ∀ f : Descriptor,
        equation f ≠ "let out_color = src_color;" := by
    intro f hEq
    have hStart :
        Text.bytes "let blended = (" <+:
          Text.bytes "let out_color = src_color;" := by
      rw [← hEq]
      unfold equation
      simp only [Text.bytes_append, List.append_assoc]
      exact List.prefix_append _ _
    exact absurd hStart (by decide)
  unfold blending
  cases d.blends with
  | true =>
      cases e.blends with
      | true =>
          refine peels_of_length rfl fun hEq => ?_
          have hLine := List.head_eq_of_cons_eq hEq
          exact ⟨rfl, fun _ => equation_inj d e hLine⟩
      | false => exact peels_of_head_ne (hApart d)
  | false =>
      cases e.blends with
      | true => exact peels_of_head_ne (hApart e).symm
      | false =>
          exact (peels_refl _).mono fun _ => ⟨rfl, nofun⟩

/- The lines that write the pixel. -/
def pixelWrites
    (format : FrameFormat) : Lines :=
  ["let write_mask = params.alpha_fb.x;",
    "let pixel = (" ++ encodeName format ++
      "(out_color) & write_mask) | " ++
      "(dst_pixel & ~write_mask);",
    writeName format.width ++ "(fb_address, pixel);"]

/- The line that writes the depth. -/
def depthWrite
    (format : DepthFormat) : String :=
  writeName format.width ++ "(depth_address, depth);"

/- The end of the lines that write. -/
theorem indent_writes :
    Lines.indent (writes d) ++ ["\x7d"] =
      Lines.indent (pixelWrites d.frame) ++
        ((if d.writesDepth then
          Lines.indent [depthWrite d.depth] else []) ++
            ["\x7d"]) := by
  unfold writes
  rw [Lines.indent, List.map_append, List.append_assoc]
  cases d.writesDepth <;> rfl

/- The lines that write show frame buffer and depth. -/
theorem writes_peels :
    Peels (Lines.block "if depth_pass" (writes d))
      (Lines.block "if depth_pass" (writes e))
      (d.frame.merged = e.frame.merged ∧
        d.writesDepth = e.writesDepth) := by
  have hFrame :
      pixelWrites d.frame = pixelWrites e.frame →
        d.frame.merged = e.frame.merged := by
    cases d.frame <;> cases e.frame <;> decide
  have hPixel :
      Peels (pixelWrites d.frame) (pixelWrites e.frame)
        (d.frame.merged = e.frame.merged) :=
    peels_of_length rfl hFrame
  have hApart :
      ∀ format,
        Peels (Lines.indent [depthWrite format]) ["\x7d"]
          False := by
    intro format
    apply peels_of_head_ne
    cases format <;> decide
  have hSame :
      Peels (Lines.indent [depthWrite d.depth])
        (Lines.indent [depthWrite e.depth]) True :=
    peels_of_length rfl fun _ => trivial
  have hDepth :=
    Peels.optional (c := d.writesDepth) (d := e.writesDepth)
      (fun _ _ => hSame) (fun _ => peels_refl ["\x7d"])
      (hApart d.depth) (hApart e.depth).symm
  have hBody := hPixel.indent.append fun _ => hDepth
  unfold Lines.block Lines.group
  rw [indent_writes, indent_writes]
  exact (hBody.cons _ _).mono fun h => ⟨h.1, h.2.1⟩

/- What the commit function shows. -/
structure ShownCommit
    (d e : Descriptor) : Prop where
  readsColor : d.readsColor = e.readsColor
  depth : d.depth.merged = e.depth.merged
  depthTest : d.depthTest = e.depthTest
  blends : d.blends = e.blends
  blending : d.blends = true → d.SameBlending e
  frame : d.frame.merged = e.frame.merged
  writesDepth : d.writesDepth = e.writesDepth

/- The commit function shows what it does. -/
theorem commit_peels :
    Peels (ProgramFunction.linesOf [commit d])
      (ProgramFunction.linesOf [commit e])
      (ShownCommit d e) := by
  have hStart :=
    peels_refl
      ["var dst_pixel = 0u;",
        "var dst_color = vec4<f32>(0.0);"]
  have hRead := hStart.append fun _ => colorRead_peels d e
  have hTest :=
    hRead.append fun h => depthTest_peels d e h.2.2
  have hBlend := hTest.append fun _ => blending_peels d e
  have hWrite := hBlend.append fun _ => writes_peels d e
  have hBody := hWrite.append_same ["return out_color;"]
  simp only [← List.append_assoc] at hBody
  exact (function_peels hBody).mono
    fun ⟨⟨⟨⟨_, hReads, hDepth⟩, hTest⟩, hBlends, hEq⟩,
        hFrame, hWrites⟩ =>
      ⟨hReads, hDepth, hTest, hBlends, hEq, hFrame, hWrites⟩

------------------------------------------------------------
-- The Entry Function
------------------------------------------------------------

/- The lines from the combination to the alpha test. -/
def tested
    (d : Descriptor) : Lines :=
  combination d ++ [alphaTest d.alphaTest]

/- What the lines up to the alpha test show. -/
structure ShownTest
    (d e : Descriptor) : Prop where
  textureFunction : d.textureFunction = e.textureFunction
  textureHasAlpha :
    d.textureFunction ≠ .decal →
      d.textureHasAlpha = e.textureHasAlpha
  alphaTest : d.alphaTest = e.alphaTest

/- The alpha test shows itself. -/
theorem alphaTest_inj
    {test other : AlphaTest}
    (hEq : [alphaTest test] = [alphaTest other]) :
    test = other := by
  revert hEq
  cases test <;> cases other <;> decide

/- A scaled texel shows whether it has alpha of its own. -/
theorem scaling_peels
    (scaled : String) :
    Peels (scaling d scaled ++ [alphaTest d.alphaTest])
      (scaling e scaled ++ [alphaTest e.alphaTest])
      (d.textureHasAlpha = e.textureHasAlpha ∧
        d.alphaTest = e.alphaTest) := by
  unfold scaling
  apply Peels.cons
  cases d.textureHasAlpha <;> cases e.textureHasAlpha <;>
    cases d.alphaTest <;> cases e.alphaTest <;>
    first
      | exact (peels_refl _).mono fun _ => ⟨rfl, rfl⟩
      | exact peels_of_neither_starts (by decide) (by decide)

/- The lines that the lines up to the test start with. -/
def testedHeads : Lines :=
  ["color = clamp(color * input.color * 2.0, " ++
      "vec4<f32>(0.0), vec4<f32>(1.0));",
    "color = clamp(color * input.color * 2.0 + " ++
      "vec4<f32>(input.color.a), " ++
        "vec4<f32>(0.0), vec4<f32>(1.0));",
    alphaTest .always, alphaTest .equal,
    alphaTest .greaterEqual]

/- The lines up to the test start in one of those ways. -/
theorem tested_head :
    ∃ head ∈ testedHeads, ∃ rest,
      tested d = head :: rest := by
  unfold tested combination
  cases d.textureFunction <;> cases d.alphaTest <;>
    exact ⟨_, by decide, _, rfl⟩

/- Any other line is told apart from them. -/
theorem tested_apart
    {line : String}
    {rest : Lines}
    (hLine : line ∉ testedHeads) :
    Peels (line :: rest) (tested d) False := by
  rcases tested_head d with ⟨head, hHead, rest, hTested⟩
  rw [hTested]
  apply peels_of_head_ne
  intro hEq
  exact hLine (hEq ▸ hHead)

/- The lines up to the test show how texels are combined. -/
theorem tested_peels :
    Peels (tested d) (tested e) (ShownTest d e) := by
  have hTest :
      Peels [alphaTest d.alphaTest] [alphaTest e.alphaTest]
        (d.alphaTest = e.alphaTest) :=
    peels_of_length rfl alphaTest_inj
  unfold tested combination
  cases hFunction : d.textureFunction <;>
    cases hOther : e.textureFunction
  case decal.decal =>
    exact hTest.mono fun hAlpha =>
      ⟨hFunction.trans hOther.symm,
        fun hScaled => absurd hFunction hScaled, hAlpha⟩
  case modulate.modulate =>
    exact (scaling_peels d e _).mono fun h =>
      ⟨hFunction.trans hOther.symm, fun _ => h.1, h.2⟩
  case highlight2.highlight2 =>
    exact (scaling_peels d e _).mono fun h =>
      ⟨hFunction.trans hOther.symm, fun _ => h.1, h.2⟩
  -- Different functions start with different lines.
  case modulate.highlight2 =>
    exact peels_of_head_ne (by decide)
  case highlight2.modulate =>
    exact peels_of_head_ne (by decide)
  case modulate.decal =>
    cases e.alphaTest <;> exact peels_of_head_ne (by decide)
  case highlight2.decal =>
    cases e.alphaTest <;> exact peels_of_head_ne (by decide)
  case decal.modulate =>
    cases d.alphaTest <;> exact peels_of_head_ne (by decide)
  case decal.highlight2 =>
    cases d.alphaTest <;> exact peels_of_head_ne (by decide)

/- The lines that supply the alpha of a texel. -/
def suppliedAlpha : Lines :=
  ["let ta0 = f32(params.tex1.y) / 255.0;",
    "let ta1 = f32(params.tex1.z) / 255.0;",
    "color = vec4<f32>(color.rgb, " ++
      "mix(ta0, ta1, color.a));"]

/- The lines that make black transparent. -/
def clearedBlack : Lines :=
  Lines.block "if color.r + color.g + color.b == 0.0"
    ["color = vec4<f32>(color.rgb, 0.0);"]

/- The lines from the texel to the alpha test. -/
theorem alphaExpansion_append_tested :
    alphaExpansion d ++ tested d =
      if d.expandsAlpha then
        suppliedAlpha ++
          ((if d.blackIsTransparent then clearedBlack
            else []) ++ tested d)
      else
        tested d := by
  unfold alphaExpansion
  cases d.expandsAlpha with
  | true =>
      rw [if_pos rfl, if_pos rfl, ← List.append_assoc]
      rfl
  | false => rfl

/- They show how a texel without full alpha gets its own. -/
theorem alphaExpansion_peels :
    Peels (alphaExpansion d ++ tested d)
      (alphaExpansion e ++ tested e)
      (d.expandsAlpha = e.expandsAlpha ∧
        (d.expandsAlpha = true →
          d.blackIsTransparent = e.blackIsTransparent) ∧
        ShownTest d e) := by
  have hTested := tested_peels d e
  have hBlack :=
    Peels.optional (c := d.blackIsTransparent)
      (d := e.blackIsTransparent)
      (fun _ _ => peels_refl clearedBlack)
      (fun _ => hTested)
      (tested_apart e (by decide))
      (tested_apart d (by decide)).symm
  have hSupplied :=
    (peels_refl suppliedAlpha).append fun _ => hBlack
  have hApart :
      ∀ (f : Descriptor) (more : Lines),
        Peels (suppliedAlpha ++ more) (tested f) False :=
    fun f more => tested_apart f (by decide)
  rw [alphaExpansion_append_tested,
    alphaExpansion_append_tested]
  cases d.expandsAlpha <;> cases e.expandsAlpha
  case true.true =>
    exact hSupplied.mono fun h =>
      ⟨rfl, fun _ => h.2.1, h.2.2.2⟩
  case false.false =>
    exact hTested.mono fun h => ⟨rfl, nofun, h⟩
  case true.false =>
    exact (hApart e _).mono False.elim
  case false.true =>
    exact (hApart d _).symm.mono False.elim

/- What the entry function shows of a textured program. -/
structure ShownColoring
    (d e : Descriptor) : Prop where
  expandsAlpha : d.expandsAlpha = e.expandsAlpha
  blackIsTransparent :
    d.expandsAlpha = true →
      d.blackIsTransparent = e.blackIsTransparent
  textureFunction : d.textureFunction = e.textureFunction
  textureHasAlpha :
    d.textureFunction ≠ .decal →
      d.textureHasAlpha = e.textureHasAlpha

/- The entry function shows its colouring and its test. -/
theorem entryFunction_peels
    (hTextured : d.textured = e.textured) :
    Peels (entryFunction d).body (entryFunction e).body
      ((d.textured = true → ShownColoring d e) ∧
        d.alphaTest = e.alphaTest) := by
  have hColoring :
      Peels (coloring d ++ [alphaTest d.alphaTest])
        (coloring e ++ [alphaTest e.alphaTest])
        ((d.textured = true → ShownColoring d e) ∧
          d.alphaTest = e.alphaTest) := by
    unfold coloring
    rw [← hTextured]
    cases d.textured with
    | true =>
        have hSampled :=
          (peels_refl sampling).append fun _ =>
            alphaExpansion_peels d e
        unfold tested at hSampled
        simp only [← List.append_assoc] at hSampled
        exact hSampled.mono
          fun ⟨_, hExpands, hBlack, hTest⟩ =>
            ⟨fun _ => ⟨hExpands, hBlack,
              hTest.textureFunction, hTest.textureHasAlpha⟩,
              hTest.alphaTest⟩
    | false =>
        have hTest :
            Peels [alphaTest d.alphaTest]
              [alphaTest e.alphaTest]
              (d.alphaTest = e.alphaTest) :=
          peels_of_length rfl alphaTest_inj
        exact (hTest.cons _ _).mono fun h => ⟨nofun, h⟩
  unfold entryFunction
  exact ((hColoring.cons _ _).append_same _).append_same _

------------------------------------------------------------
-- Whole Programs
------------------------------------------------------------

/- The functions of programs with equal images. -/
theorem functions_peels
    (hPalette : d.usesPalette = e.usesPalette)
    (hTextured : d.textured = e.textured) :
    Peels (ProgramFunction.linesOf (functions d))
      (ProgramFunction.linesOf (functions e))
      ((d.textured = true → ShownTexture d e) ∧
        ShownCommit d e) := by
  have hFrame :=
    addressFunction_peels "fb_pixel_address" "fb_swizzle"
      d.frame.pixelFormat.storage
      e.frame.pixelFormat.storage
  have hDepth :=
    addressFunction_peels "depth_pixel_address"
      "depth_swizzle" d.depth.pixelFormat.storage
      e.depth.pixelFormat.storage
  have hTexture :
      Peels
        (ProgramFunction.linesOf
          (if d.textured then textureFunctions d else []))
        (ProgramFunction.linesOf
          (if e.textured then textureFunctions e else []))
        (d.textured = true → ShownTexture d e) := by
    unfold Descriptor.usesPalette at hPalette
    rw [← hTextured] at hPalette ⊢
    cases hCase : d.textured with
    | true =>
        rw [hCase] at hPalette
        exact (textureFunctions_peels d e hPalette).mono
          fun h _ => h
    | false => exact (peels_refl _).mono fun _ => nofun
  have hAll :=
    ((hFrame.append fun _ => hDepth).append fun _ =>
      hTexture).append fun _ => commit_peels d e
  unfold functions
  simp only [← linesOf_append] at hAll
  exact hAll.mono fun ⟨⟨_, hTexture⟩, hCommit⟩ =>
    ⟨hTexture, hCommit⟩

/- The lines of a program show the effect of its choices. -/
theorem sameEffect_of_lines
    (hLines : lines d = lines e) :
    d.SameEffect e := by
  have hImages :=
    (peels_refl Shared.lines).append fun _ =>
      images_peels d e
  have hFunctions :=
    hImages.append fun h =>
      functions_peels d e h.2.1 h.2.2
  have hEntry :=
    (hFunctions.append_same ["@fragment"]).append fun h =>
      lines_peels (entryFunction_peels d e h.1.2.2)
  unfold lines at hLines
  simp only [← List.append_assoc] at hEntry
  rcases hEntry.related hLines with
    ⟨⟨⟨_, _, hTextured⟩, hTexture, hCommit⟩,
      hColoring, hAlpha⟩
  exact
    { textured := hTextured
      frame := hCommit.frame
      depth := hCommit.depth
      alphaTest := hAlpha
      depthTest := hCommit.depthTest
      writesDepth := hCommit.writesDepth
      blends := hCommit.blends
      blending := hCommit.blending
      masking := by
        intro hBlends
        have hReads := hCommit.readsColor
        have hOther := hCommit.blends
        rw [hBlends] at hOther
        simpa [Descriptor.readsColor, hBlends, ← hOther]
          using hReads
      texturing := by
        intro hCase
        have hShown := hTexture hCase
        have hColor := hColoring hCase
        exact
          { texture := hShown.texture
            wrapU := hShown.wrapU
            wrapV := hShown.wrapV
            textureFunction := hColor.textureFunction
            palette := hShown.palette
            expandsAlpha := hColor.expandsAlpha
            blackIsTransparent := hColor.blackIsTransparent
            textureHasAlpha := hColor.textureHasAlpha } }

end FragmentStage

/- Descriptors of one program have the same effect. -/
theorem Descriptor.sameEffect_of_program
    {d e : Descriptor}
    (hProgram : d.program = e.program) :
    d.SameEffect e := by
  have hText := congrArg Program.fragment hProgram
  rw [fragment_program, fragment_program] at hText
  exact FragmentStage.sameEffect_of_lines d e
    (Lines.text_inj (FragmentStage.lines_reads d).1
      (FragmentStage.lines_reads e).1 hText)

end PagedRaster
