import PagedRaster.Fragment.Shade
import PagedRaster.Proofs.Program.Effect

/-
  This file proves that shading depends on a descriptor only
  through the text of its program.  Draw states whose
  descriptors have the same effect, and whose tables agree
  where they are used, shade every fragment alike.

  Key definitions include:
    * `DrawState.Alike`

  Key theorems include:
    * `DrawState.Alike.texturedColor_eq`
    * `DrawState.Alike.commit_eq`
    * `DrawState.Alike.shade_eq`
    * `Descriptor.shade_of_program`
-/

namespace PagedRaster

------------------------------------------------------------
-- Twins
------------------------------------------------------------

/- A frame buffer format is accessed as its twin. -/
theorem FrameFormat.merged_eq
    (format : FrameFormat) :
    format.merged.width = format.width ∧
      format.merged.decode = format.decode ∧
      format.merged.encode = format.encode := by
  cases format <;> exact ⟨rfl, rfl, rfl⟩

/- Twins of frame buffer formats are accessed alike. -/
theorem FrameFormat.eq_of_merged
    {format other : FrameFormat}
    (hMerged : format.merged = other.merged) :
    format.width = other.width ∧
      format.decode = other.decode ∧
      format.encode = other.encode := by
  rcases merged_eq format with ⟨hWidth, hDecode, hEncode⟩
  rw [← hWidth, ← hDecode, ← hEncode, hMerged]
  exact merged_eq other

/- Twins of depth formats are accessed alike. -/
theorem DepthFormat.eq_of_merged
    {format other : DepthFormat}
    (hMerged : format.merged = other.merged) :
    format.width = other.width ∧
      format.mask = other.mask := by
  revert hMerged
  cases format <;> cases other <;> decide

/- A texture format is accessed as its twin. -/
theorem TextureFormat.merged_eq
    (format : TextureFormat) :
    format.merged.width = format.width ∧
      format.merged.readAddress = format.readAddress ∧
      format.merged.hasByteIndex = format.hasByteIndex := by
  cases format <;> exact ⟨rfl, rfl, rfl⟩

/- Twins of texture formats are accessed alike. -/
theorem TextureFormat.eq_of_merged
    {format other : TextureFormat}
    (hMerged : format.merged = other.merged) :
    format.width = other.width ∧
      format.readAddress = other.readAddress ∧
      format.hasByteIndex = other.hasByteIndex := by
  rcases merged_eq format with ⟨hWidth, hAddress, hIndex⟩
  rw [← hWidth, ← hAddress, ← hIndex, hMerged]
  exact merged_eq other

/- Decal leaves the alpha of its texel alone. -/
theorem TextureFunction.combine_congr
    {function : TextureFunction}
    {hasAlpha other : Bool}
    (hAlpha : function ≠ .decal → hasAlpha = other)
    (texel vertex : Color) :
    function.combine hasAlpha texel vertex =
      function.combine other texel vertex := by
  cases function with
  | decal => rfl
  | modulate => rw [hAlpha nofun]
  | highlight2 => rw [hAlpha nofun]

/- The stored colour is read by both or by none. -/
theorem Descriptor.SameEffect.readsColor
    {d e : Descriptor}
    (hSame : d.SameEffect e) :
    d.readsColor = e.readsColor := by
  have hBlends := hSame.blends
  unfold Descriptor.readsColor
  cases hCase : d.blends with
  | true => rw [← hBlends, hCase, Bool.true_or, Bool.true_or]
  | false =>
      rw [← hBlends, hCase, hSame.masking hCase]

namespace DrawState

/-
  Two draw states whose descriptors have the same effect.
  They share parameters and palette, and the tables that
  their programs use.
-/
structure Alike
    (s t : DrawState) : Prop where
  effect : s.descriptor.SameEffect t.descriptor
  params : s.params = t.params
  palette : s.palette = t.palette
  frameTable :
    s.bank.get s.descriptor.frame.pixelFormat =
      t.bank.get t.descriptor.frame.pixelFormat
  depthTable :
    s.bank.get s.descriptor.depth.pixelFormat =
      t.bank.get t.descriptor.depth.pixelFormat
  textureTable :
    s.descriptor.textured = true →
      s.bank.get s.descriptor.texture.pixelFormat =
        t.bank.get t.descriptor.texture.pixelFormat

namespace Alike

variable {s t : DrawState}

------------------------------------------------------------
-- Textures
------------------------------------------------------------

/- Alike states sample at the same place. -/
theorem texelPlace_eq
    (hAlike : s.Alike t)
    (hTextured : s.descriptor.textured = true)
    (fragment : Fragment) :
    s.texelPlace fragment = t.texelPlace fragment := by
  have hTexturing := hAlike.effect.texturing hTextured
  simp only [texelPlace, hAlike.params, hTexturing.wrapU,
    hTexturing.wrapV]

/- Alike states read the same texel. -/
theorem texelBits_eq
    (hAlike : s.Alike t)
    (hTextured : s.descriptor.textured = true)
    (memory : Memory)
    (u v : Int32) :
    s.texelBits memory u v = t.texelBits memory u v := by
  have hTexturing := hAlike.effect.texturing hTextured
  rcases TextureFormat.eq_of_merged hTexturing.texture with
    ⟨hWidth, hAddress, _⟩
  simp only [texelBits, texelAddress, hAlike.params,
    hAlike.textureTable hTextured, hWidth, hAddress]

/- Alike states look the same palette entries up. -/
theorem paletteColor_eq
    (hAlike : s.Alike t)
    (hTextured : s.descriptor.textured = true)
    (hIndexed : s.descriptor.texture.isIndexed = true)
    (index : UInt32) :
    s.paletteColor index = t.paletteColor index := by
  have hTexturing := hAlike.effect.texturing hTextured
  have hFormat :=
    TextureFormat.eq_of_merged hTexturing.texture
  have hMerged := hTexturing.palette hIndexed
  unfold paletteColor
  dsimp only
  rw [hAlike.params, hAlike.palette, hFormat.2.2]
  revert hMerged
  cases s.descriptor.palette <;>
    cases t.descriptor.palette <;>
    intro hMerged <;>
    first
      | exact absurd hMerged (by decide)
      | rfl

/- Alike states decode the same texel. -/
theorem texel_eq
    (hAlike : s.Alike t)
    (hTextured : s.descriptor.textured = true)
    (memory : Memory)
    (u v : Int32) :
    s.texel memory u v = t.texel memory u v := by
  have hTexturing := hAlike.effect.texturing hTextured
  have hMerged := hTexturing.texture
  have hPalette := hAlike.paletteColor_eq hTextured
  unfold texel
  rw [hAlike.texelBits_eq hTextured]
  revert hMerged hPalette
  cases s.descriptor.texture <;>
    cases t.descriptor.texture <;>
    intro hMerged hPalette <;>
    first
      | exact absurd hMerged (by decide)
      | exact hPalette rfl _
      | rfl

/- Alike states supply the same alpha. -/
theorem expandAlpha_eq
    (hAlike : s.Alike t)
    (hTextured : s.descriptor.textured = true)
    (texel : Color) :
    s.expandAlpha texel = t.expandAlpha texel := by
  have hTexturing := hAlike.effect.texturing hTextured
  have hExpands := hTexturing.expandsAlpha
  have hBlack := hTexturing.blackIsTransparent
  unfold expandAlpha
  dsimp only
  rw [← hExpands, hAlike.params]
  cases hCase : s.descriptor.expandsAlpha with
  | true => rw [hBlack hCase]
  | false => rfl

/- Alike states give a textured fragment the same colour. -/
theorem texturedColor_eq
    (hAlike : s.Alike t)
    (hTextured : s.descriptor.textured = true)
    (memory : Memory)
    (fragment : Fragment) :
    s.texturedColor memory fragment =
      t.texturedColor memory fragment := by
  have hTexturing := hAlike.effect.texturing hTextured
  have hCombine :=
    TextureFunction.combine_congr hTexturing.textureHasAlpha
  rw [hTexturing.textureFunction] at hCombine
  simp only [texturedColor, hAlike.texelPlace_eq hTextured,
    hAlike.texel_eq hTextured,
    hAlike.expandAlpha_eq hTextured, hCombine,
    hTexturing.textureFunction]

/- Alike states start from the same colour. -/
theorem sourceColor_eq
    (hAlike : s.Alike t)
    (memory : Memory)
    (fragment : Fragment) :
    s.sourceColor memory fragment =
      t.sourceColor memory fragment := by
  unfold sourceColor
  rw [← hAlike.effect.textured]
  cases hTextured : s.descriptor.textured with
  | true =>
      rw [if_pos rfl, if_pos rfl]
      exact hAlike.texturedColor_eq hTextured memory fragment
  | false => rw [if_neg nofun, if_neg nofun]

------------------------------------------------------------
-- Commits
------------------------------------------------------------

/- Alike states blend to the same colour. -/
theorem outputColor_eq
    (hAlike : s.Alike t)
    (source stored : Color) :
    s.outputColor source stored =
      t.outputColor source stored := by
  unfold outputColor
  rw [← hAlike.effect.blends]
  cases hBlends : s.descriptor.blends with
  | true =>
      have hBlending := hAlike.effect.blending hBlends
      rw [if_pos rfl, if_pos rfl]
      simp only [blend, blendScale, hAlike.params,
        hBlending.blendA, hBlending.blendB,
        hBlending.blendC, hBlending.blendD]
  | false => rw [if_neg nofun, if_neg nofun]

/- Alike states use the same addresses. -/
theorem addresses_eq
    (hAlike : s.Alike t)
    (x y : Int32) :
    s.frameAddress x y = t.frameAddress x y ∧
      s.depthAddress x y = t.depthAddress x y := by
  unfold frameAddress depthAddress
  rw [hAlike.params, hAlike.frameTable, hAlike.depthTable]
  exact ⟨rfl, rfl⟩

/- Alike states read the same pixel and its colour. -/
theorem stored_eq
    (hAlike : s.Alike t)
    (memory : Memory)
    (address pixel : UInt32) :
    s.storedPixel memory address =
        t.storedPixel memory address ∧
      s.storedColor pixel = t.storedColor pixel := by
  have hFrame :=
    FrameFormat.eq_of_merged hAlike.effect.frame
  unfold storedPixel storedColor
  rw [hAlike.effect.readsColor, hFrame.1, hFrame.2.1]
  exact ⟨rfl, rfl⟩

/- Alike states test the depth alike. -/
theorem depthPasses_eq
    (hAlike : s.Alike t)
    (memory : Memory)
    (address depth : UInt32) :
    s.depthPasses memory address depth =
      t.depthPasses memory address depth := by
  have hDepth :=
    DepthFormat.eq_of_merged hAlike.effect.depth
  unfold depthPasses
  rw [hAlike.effect.depthTest, hDepth.1]

/- Alike states write alike. -/
theorem store_eq
    (hAlike : s.Alike t)
    (memory : Memory)
    (frameAddress depthAddress pixel depth : UInt32) :
    s.store memory frameAddress depthAddress pixel depth =
      t.store memory frameAddress depthAddress pixel
        depth := by
  have hFrame :=
    FrameFormat.eq_of_merged hAlike.effect.frame
  have hDepth :=
    DepthFormat.eq_of_merged hAlike.effect.depth
  unfold store
  dsimp only
  rw [hAlike.effect.writesDepth, hFrame.1, hDepth.1]

/- Alike states merge pixels alike. -/
theorem mergedPixel_eq
    (hAlike : s.Alike t)
    (color : Color)
    (stored : UInt32) :
    s.mergedPixel color stored =
      t.mergedPixel color stored := by
  have hFrame :=
    FrameFormat.eq_of_merged hAlike.effect.frame
  unfold mergedPixel
  rw [hAlike.params, hFrame.2.2]

/- Alike states commit alike. -/
theorem commit_eq
    (hAlike : s.Alike t)
    (memory : Memory)
    (source : Color)
    (depth : UInt32)
    (x y : Int32) :
    s.commit memory source depth x y =
      t.commit memory source depth x y := by
  have hAddresses := hAlike.addresses_eq x y
  have hStored :=
    hAlike.stored_eq memory (t.frameAddress x y)
  have hDepth :=
    DepthFormat.eq_of_merged hAlike.effect.depth
  unfold commit
  dsimp only
  rw [hAddresses.1, hAddresses.2, (hStored 0).1,
    (hStored _).2, hAlike.outputColor_eq, hDepth.2,
    hAlike.depthPasses_eq, hAlike.mergedPixel_eq,
    hAlike.store_eq]

/- Alike states shade alike. -/
theorem shade_eq
    (hAlike : s.Alike t)
    (memory : Memory)
    (fragment : Fragment) :
    s.shade memory fragment = t.shade memory fragment := by
  unfold shade alphaPasses
  dsimp only
  rw [hAlike.sourceColor_eq, hAlike.commit_eq,
    hAlike.params, hAlike.effect.alphaTest]

end Alike

end DrawState

------------------------------------------------------------
-- Programs
------------------------------------------------------------

namespace Descriptor

/-
  The text of a program decides what it does.  Descriptors
  of one program shade every fragment alike, under every
  bank that gives equal tables to their frame buffer
  formats, to their depth formats and, if they are textured,
  to their texture formats.
-/
theorem shade_of_program
    {d e : Descriptor}
    (hProgram : d.program = e.program)
    {bank : SwizzleBank}
    (hFrame :
      bank.get d.frame.pixelFormat =
        bank.get e.frame.pixelFormat)
    (hDepth :
      bank.get d.depth.pixelFormat =
        bank.get e.depth.pixelFormat)
    (hTexture :
      d.textured = true → e.textured = true →
        bank.get d.texture.pixelFormat =
          bank.get e.texture.pixelFormat)
    (params : Params)
    (palette : Palette)
    (memory : Memory)
    (fragment : Fragment) :
    DrawState.shade ⟨d, params, bank, palette⟩ memory
        fragment =
      DrawState.shade ⟨e, params, bank, palette⟩ memory
        fragment := by
  have hEffect := sameEffect_of_program hProgram
  have hAlike :
      DrawState.Alike ⟨d, params, bank, palette⟩
        ⟨e, params, bank, palette⟩ :=
    { effect := hEffect
      params := rfl
      palette := rfl
      frameTable := hFrame
      depthTable := hDepth
      textureTable := fun hTextured =>
        hTexture hTextured
          (hEffect.textured.symm.trans hTextured) }
  exact hAlike.shade_eq memory fragment

/- A blending decal program on a 16-bit frame buffer. -/
def blendedDecal : Descriptor where
  textured := true
  frame := .ct16
  textureFunction := .decal
  blends := true

/-
  The same program from other choices: the twin of the frame
  buffer format, a palette format without a palette, a mask
  under blending and an alpha that decal ignores.
-/
def blendedDecalTwin : Descriptor where
  textured := true
  frame := .ct16s
  palette := .ct16
  textureFunction := .decal
  blends := true
  masksColor := true
  textureHasAlpha := true

/- The two decal programs have one text. -/
theorem program_blendedDecal :
    blendedDecal.program = blendedDecalTwin.program := by
  have hLines :
      FragmentStage.lines blendedDecal =
        FragmentStage.lines blendedDecalTwin :=
    rfl
  rw [program, program, hLines]

/- They shade alike under tables in row order. -/
theorem shade_blendedDecal :
    blendedDecal ≠ blendedDecalTwin ∧
      blendedDecal.program = blendedDecalTwin.program ∧
      DrawState.shade
          ⟨blendedDecal, {}, SwizzleBank.rowMajor,
            Palette.blank⟩
          Memory.empty
          ⟨3, 5, 0.5, ⟨1, 0, 1, 0.5⟩, 0, 0, 1⟩ =
        DrawState.shade
          ⟨blendedDecalTwin, {}, SwizzleBank.rowMajor,
            Palette.blank⟩
          Memory.empty
          ⟨3, 5, 0.5, ⟨1, 0, 1, 0.5⟩, 0, 0, 1⟩ :=
  ⟨by decide, program_blendedDecal,
    shade_of_program program_blendedDecal rfl rfl
      (fun _ _ => rfl) {} Palette.blank Memory.empty _⟩

end Descriptor

end PagedRaster
