import PagedRaster.Proofs.Fragment.Alike

/-
  This file proves that two descriptors have one program
  exactly if they have the same effect.  That a text shows
  the effect is known from taking it apart; here every part
  of the text is shown to be written from no other choice.

  Key theorems include:
    * `FragmentStage.textureFunctions_congr`
    * `FragmentStage.commit_congr`
    * `FragmentStage.entryFunction_congr`
    * `FragmentStage.lines_congr`
    * `Descriptor.program_eq_iff_sameEffect`
-/

namespace PagedRaster

------------------------------------------------------------
-- Twins in Texts
------------------------------------------------------------

/- Twins of frame buffer formats are written alike. -/
theorem FrameFormat.written_of_merged
    {format other : FrameFormat}
    (hMerged : format.merged = other.merged) :
    format.pixelFormat.storage =
        other.pixelFormat.storage ∧
      FragmentStage.decodeName format =
        FragmentStage.decodeName other ∧
      FragmentStage.encodeName format =
        FragmentStage.encodeName other := by
  revert hMerged
  cases format <;> cases other <;> decide

/- Twins of depth formats share their page layout. -/
theorem DepthFormat.storage_of_merged
    {format other : DepthFormat}
    (hMerged : format.merged = other.merged) :
    format.pixelFormat.storage =
      other.pixelFormat.storage := by
  revert hMerged
  cases format <;> cases other <;> decide

/- Twins of texture formats are written alike. -/
theorem TextureFormat.written_of_merged
    {format other : TextureFormat}
    (hMerged : format.merged = other.merged) :
    format.pixelFormat.storage =
        other.pixelFormat.storage ∧
      format.isIndexed = other.isIndexed ∧
      FragmentStage.texelExpression format =
        FragmentStage.texelExpression other := by
  revert hMerged
  cases format <;> cases other <;> decide

/- Twins of palette formats are looked up alike. -/
theorem PaletteFormat.lookup_of_merged
    {format other : PaletteFormat}
    (hMerged : format.merged = other.merged) :
    FragmentStage.paletteLookup format =
      FragmentStage.paletteLookup other := by
  revert hMerged
  cases format <;> cases other <;> decide

namespace FragmentStage

variable {d e : Descriptor}

------------------------------------------------------------
-- Textures
------------------------------------------------------------

/- Descriptors of one effect bind the same images. -/
theorem images_congr
    (hSame : d.SameEffect e) :
    images d = images e := by
  have hPalette : d.usesPalette = e.usesPalette := by
    unfold Descriptor.usesPalette
    rw [← hSame.textured]
    cases hTextured : d.textured with
    | true =>
        have hTexturing := hSame.texturing hTextured
        rw [(TextureFormat.written_of_merged
          hTexturing.texture).2.1]
    | false => rfl
  unfold images
  rw [hPalette, hSame.textured]

/- The texture functions of descriptors that sample alike. -/
theorem textureFunctions_congr
    (hTexturing : d.SameTexturing e) :
    textureFunctions d = textureFunctions e := by
  rcases TextureFormat.written_of_merged
      hTexturing.texture with
    ⟨hStorage, hIndexed, hTexel⟩
  have hByte :=
    (TextureFormat.eq_of_merged hTexturing.texture).2.2
  have hPalette :
      (if d.texture.isIndexed then [paletteFunction d]
        else []) =
        (if e.texture.isIndexed then [paletteFunction e]
          else []) := by
    rw [← hIndexed]
    cases hCase : d.texture.isIndexed with
    | true =>
        have hLookup :=
          PaletteFormat.lookup_of_merged
            (hTexturing.palette hCase)
        unfold paletteFunction
        rw [hByte, hLookup]
    | false => rfl
  unfold textureFunctions
  rw [hPalette, hStorage, hTexturing.wrapU,
    hTexturing.wrapV, texelFunction, texelFunction, hTexel]

------------------------------------------------------------
-- The Commit Function
------------------------------------------------------------

/- The blend equation of descriptors that blend alike. -/
theorem blending_congr
    (hSame : d.SameEffect e) :
    blending d = blending e := by
  unfold blending
  rw [← hSame.blends]
  cases hBlends : d.blends with
  | true =>
      have hBlending := hSame.blending hBlends
      rw [hBlending.blendA, hBlending.blendB,
        hBlending.blendC, hBlending.blendD]
  | false => rfl

/- The commit function of descriptors of one effect. -/
theorem commit_congr
    (hSame : d.SameEffect e) :
    commit d = commit e := by
  rcases FrameFormat.written_of_merged hSame.frame with
    ⟨_, hDecode, hEncode⟩
  have hFrame := (FrameFormat.eq_of_merged hSame.frame).1
  rcases DepthFormat.eq_of_merged hSame.depth with
    ⟨hDepth, hMask⟩
  have hRead : colorRead d = colorRead e := by
    unfold colorRead
    rw [hSame.readsColor, hFrame, hDecode]
  have hTest : depthTest d = depthTest e := by
    unfold depthTest depthComparison
    rw [hSame.depthTest, hDepth]
  have hWrites : writes d = writes e := by
    unfold writes
    rw [hEncode, hFrame, hSame.writesDepth, hDepth]
  unfold commit
  rw [hRead, hMask, hTest, blending_congr hSame, hWrites]

------------------------------------------------------------
-- The Entry Function
------------------------------------------------------------

/- The combination of descriptors that sample alike. -/
theorem combination_congr
    (hTexturing : d.SameTexturing e) :
    combination d = combination e := by
  have hAlpha := hTexturing.textureHasAlpha
  unfold combination scaling
  rw [← hTexturing.textureFunction]
  cases hFunction : d.textureFunction with
  | decal => rfl
  | modulate => rw [hAlpha (by rw [hFunction]; nofun)]
  | highlight2 => rw [hAlpha (by rw [hFunction]; nofun)]

/- The alpha of texels of descriptors that sample alike. -/
theorem alphaExpansion_congr
    (hTexturing : d.SameTexturing e) :
    alphaExpansion d = alphaExpansion e := by
  unfold alphaExpansion
  rw [← hTexturing.expandsAlpha]
  cases hExpands : d.expandsAlpha with
  | true => rw [hTexturing.blackIsTransparent hExpands]
  | false => rfl

/- The entry function of descriptors of one effect. -/
theorem entryFunction_congr
    (hSame : d.SameEffect e) :
    entryFunction d = entryFunction e := by
  have hColoring : coloring d = coloring e := by
    unfold coloring
    rw [← hSame.textured]
    cases hTextured : d.textured with
    | true =>
        have hTexturing := hSame.texturing hTextured
        rw [alphaExpansion_congr hTexturing,
          combination_congr hTexturing]
    | false => rfl
  unfold entryFunction
  rw [hColoring, hSame.alphaTest]

------------------------------------------------------------
-- Whole Programs
------------------------------------------------------------

/- The functions of descriptors of one effect. -/
theorem functions_congr
    (hSame : d.SameEffect e) :
    functions d = functions e := by
  have hTexture :
      (if d.textured then textureFunctions d else []) =
        (if e.textured then textureFunctions e
          else []) := by
    rw [← hSame.textured]
    cases hTextured : d.textured with
    | true =>
        exact textureFunctions_congr
          (hSame.texturing hTextured)
    | false => rfl
  unfold functions
  rw [(FrameFormat.written_of_merged hSame.frame).1,
    DepthFormat.storage_of_merged hSame.depth, hTexture,
    commit_congr hSame]

/- Descriptors of one effect have the same lines. -/
theorem lines_congr
    (hSame : d.SameEffect e) :
    lines d = lines e := by
  unfold lines
  rw [images_congr hSame, functions_congr hSame,
    entryFunction_congr hSame]

end FragmentStage

/-
  Two descriptors have one program exactly if they agree on
  every choice that has an effect.
-/
theorem Descriptor.program_eq_iff_sameEffect
    (d e : Descriptor) :
    d.program = e.program ↔ d.SameEffect e := by
  constructor
  · exact sameEffect_of_program
  · intro hSame
    unfold program
    rw [FragmentStage.lines_congr hSame]

end PagedRaster
