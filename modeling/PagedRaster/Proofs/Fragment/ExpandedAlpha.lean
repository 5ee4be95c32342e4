import PagedRaster.Proofs.Binary32.Levels
import PagedRaster.Proofs.Format.RoundTrip
import PagedRaster.Proofs.Fragment.PaletteLookup

/-
  This file proves that a draw which stores texels without
  an alpha of their own stores one of three alpha bytes.
  The alpha bit of a texel selects one of two constants, and
  a constant is encoded as itself.  Whether a texel counts
  as black is decided by its colour bits alone.

  Key definitions include:
    * `Descriptor.texelColorBits`
    * `Descriptor.decodeTexel`
    * `DrawState.SamplesWord`
    * `DrawState.expectedAlpha`
    * `DrawState.StoresTexels`

  Key theorems include:
    * `Color.beq_zero_ofPixel32`
    * `Color.beq_zero_ofPixel16`
    * `encodeChannel_mix`
    * `DrawState.exists_samplesWord`
    * `DrawState.encodeChannel_expandAlpha`
    * `DrawState.shade_stores_expectedAlpha`
-/

namespace PagedRaster

open Binary32 (HasValue IsLevel)

------------------------------------------------------------
-- Black Pixels
------------------------------------------------------------

/- The low bits of a word are off if their number is zero. -/
theorem forall_wordBit_eq_false_iff
    (word : UInt32)
    (n : Nat) :
    (∀ k < n, wordBit word k = false) ↔
      word.toNat % 2 ^ n = 0 := by
  constructor
  · intro hBits
    apply Nat.eq_of_testBit_eq
    intro k
    rw [Nat.testBit_mod_two_pow, Nat.zero_testBit]
    by_cases hk : k < n
    · have hBit : word.toNat.testBit k = false :=
        hBits k hk
      rw [hBit, Bool.and_false]
    · rw [decide_eq_false hk, Bool.false_and]
  · intro hZero k hk
    have hBit :
        (word.toNat % 2 ^ n).testBit k = false := by
      rw [hZero, Nat.zero_testBit]
    rw [Nat.testBit_mod_two_pow, decide_eq_true hk,
      Bool.true_and] at hBit
    exact hBit

namespace Color

/- A byte channel is lit if its field is not zero. -/
theorem isLevel_ofByte
    (field : UInt32) :
    IsLevel (ofByte field) 1 (field.toNat % 2 ^ 8 ≠ 0) := by
  have hMost : HasValue 255.0 (255 : Nat) :=
    Binary32.hasValue_maxByte
  have hField :
      (field &&& 0xFF).toNat = field.toNat % 2 ^ 8 :=
    Width.toNat_and_mask 8 rfl
  rw [← hField]
  exact Binary32.isLevel_fraction hMost (Nat.le_refl 255)
    (by decide) (by omega)

/- So is a channel of five bits. -/
theorem isLevel_ofFiveBits
    (field : UInt32) :
    IsLevel (ofFiveBits field) 1
      (field.toNat % 2 ^ 5 ≠ 0) := by
  have hMost : HasValue 31.0 (31 : Nat) :=
    Binary32.hasValue_maxFiveBits
  have hField :
      (field &&& 0x1F).toNat = field.toNat % 2 ^ 5 :=
    Width.toNat_and_mask 5 rfl
  rw [← hField]
  exact Binary32.isLevel_fraction hMost (by decide)
    (by decide) (by omega)

/- A 32-bit pixel is black if its colour bits are off. -/
theorem beq_zero_ofPixel32
    (pixel : UInt32) :
    ((ofPixel32 pixel).r + (ofPixel32 pixel).g +
        (ofPixel32 pixel).b == 0.0) = true ↔
      ∀ k < 24, wordBit pixel k = false := by
  have hGreen :
      (pixel >>> 8).toNat = pixel.toNat / 2 ^ 8 :=
    toNat_shiftRight_of_lt (by decide)
  have hBlue :
      (pixel >>> 16).toNat = pixel.toNat / 2 ^ 16 :=
    toNat_shiftRight_of_lt (by decide)
  -- The three fields are the digits of the colour bits.
  have hSum :=
    ((isLevel_ofByte pixel).add
      (isLevel_ofByte (pixel >>> 8)) (by decide)).add
      (isLevel_ofByte (pixel >>> 16)) (by decide)
  refine hSum.beq_zero.trans ?_
  rw [forall_wordBit_eq_false_iff, hGreen, hBlue]
  omega

/- A 16-bit pixel is black if its colour bits are off. -/
theorem beq_zero_ofPixel16
    (pixel : UInt32) :
    ((ofPixel16 pixel).r + (ofPixel16 pixel).g +
        (ofPixel16 pixel).b == 0.0) = true ↔
      ∀ k < 15, wordBit pixel k = false := by
  have hGreen :
      (pixel >>> 5).toNat = pixel.toNat / 2 ^ 5 :=
    toNat_shiftRight_of_lt (by decide)
  have hBlue :
      (pixel >>> 10).toNat = pixel.toNat / 2 ^ 10 :=
    toNat_shiftRight_of_lt (by decide)
  have hSum :=
    ((isLevel_ofFiveBits pixel).add
      (isLevel_ofFiveBits (pixel >>> 5)) (by decide)).add
      (isLevel_ofFiveBits (pixel >>> 10)) (by decide)
  refine hSum.beq_zero.trans ?_
  rw [forall_wordBit_eq_false_iff, hGreen, hBlue]
  omega

/- The alpha of a 16-bit pixel is its highest bit. -/
theorem hasValue_alpha_ofPixel16
    (pixel : UInt32) :
    HasValue (ofPixel16 pixel).a
      (if wordBit pixel 15 = true then 1 else 0) := by
  have hField :
      ((pixel >>> 15) &&& 1).toNat =
        pixel.toNat / 2 ^ 15 % 2 ^ 1 :=
    toNat_field 1 (by decide) rfl
  have hBit :
      wordBit pixel 15 =
        decide (pixel.toNat / 2 ^ 15 % 2 = 1) :=
    Nat.testBit_eq_decide_div_mod_eq
  have hSmall : ((pixel >>> 15) &&& 1).toNat < 2 ^ 24 := by
    omega
  have hAlpha :
      HasValue (ofPixel16 pixel).a
        ((pixel >>> 15) &&& 1).toNat :=
    Binary32.hasValue_toFloat32 hSmall
  rw [hField] at hAlpha
  split
  · rename_i hSet
    rw [hBit, decide_eq_true_eq] at hSet
    rwa [pow_one, hSet, Nat.cast_one] at hAlpha
  · rename_i hClear
    rw [hBit, decide_eq_true_eq] at hClear
    have hNone : pixel.toNat / 2 ^ 15 % 2 = 0 := by omega
    rwa [pow_one, hNone, Nat.cast_zero] at hAlpha

end Color

------------------------------------------------------------
-- Alpha Constants
------------------------------------------------------------

/- A mix by an alpha bit is encoded as one constant. -/
theorem encodeChannel_mix
    {alpha0 alpha1 : UInt32}
    (hAlpha0 : alpha0 ≤ 255)
    (hAlpha1 : alpha1 ≤ 255)
    {bit : Float32}
    {selects : Prop}
    [Decidable selects]
    (hBit : HasValue bit (if selects then 1 else 0)) :
    encodeChannel
        (Binary32.mix (alpha0.toFloat32 / 255.0)
          (alpha1.toFloat32 / 255.0) bit) 255.0 =
      if selects then alpha1 else alpha0 := by
  have hMost : HasValue 255.0 (255 : Nat) :=
    Binary32.hasValue_maxByte
  rcases exists_encoded_fraction hMost (Nat.le_refl 255)
      (by decide) (UInt32.le_iff_toNat_le.mp hAlpha0) with
    ⟨value0, hValue0, hUnit0, hEncoded0⟩
  rcases exists_encoded_fraction hMost (Nat.le_refl 255)
      (by decide) (UInt32.le_iff_toNat_le.mp hAlpha1) with
    ⟨value1, hValue1, hUnit1, hEncoded1⟩
  rw [← UInt32.toNat_inj]
  split
  · rename_i hSelects
    rw [if_pos hSelects] at hBit
    exact hEncoded1 _ (hValue0.mix_one hValue1 hBit hUnit1)
  · rename_i hNot
    rw [if_neg hNot] at hBit
    exact hEncoded0 _ (hValue0.mix_zero hValue1 hBit hUnit0)

/- No alpha is encoded as no byte. -/
theorem encodeChannel_none :
    encodeChannel 0.0 255.0 = 0 := by
  decide

------------------------------------------------------------
-- Sampled Words
------------------------------------------------------------

/-
  The bits of red, green and blue in a texel without alpha:
  24-bit texels have three bytes, all others 15 bits.
-/
def Descriptor.texelColorBits
    (d : Descriptor) : Nat :=
  if d.texture = .ct24 then 24 else 15

/- The colour of a texel that is decoded from a word. -/
def Descriptor.decodeTexel
    (d : Descriptor)
    (word : UInt32) : Color :=
  if d.texture = .ct24 then Color.ofPixel32 word
  else Color.ofPixel16 word

namespace DrawState

/-
  The word that a texel is decoded from.  An indexed texture
  has it in the palette, where the index in memory says;
  another texture has its bits in memory, and no bits above
  those of its format.
-/
def SamplesWord
    (state : DrawState)
    (memory : Memory)
    (u v : Int32)
    (word : UInt32) : Prop :=
  let format := state.descriptor.texture
  let address := state.texelAddress u v
  if format.isIndexed then
    ∃ index,
      (∀ k, wordBit index k =
        (decide (k < format.indexBits) &&
          memory.bit
            (format.indexPlace address.toNat + k))) ∧
      state.palette.Reads
        ((state.paletteBase + index.toNat : Int).bmod
          (2 ^ 32)) word
  else
    ∀ k, wordBit word k =
      (decide (k < format.width.bits) &&
        memory.bit (format.width.start address + k))

/- A texel of a direct format is decoded from its bits. -/
theorem texel_of_direct
    (state : DrawState)
    (memory : Memory)
    (u v : Int32)
    (hLacks : state.descriptor.texelsLackAlpha = true)
    (hDirect : state.descriptor.texture.isIndexed = false) :
    state.texel memory u v =
      state.descriptor.decodeTexel
        (state.texelBits memory u v) := by
  unfold Descriptor.texelsLackAlpha at hLacks
  unfold texel Descriptor.decodeTexel
  revert hLacks hDirect
  cases state.descriptor.texture with
  | ct32 => exact fun hLacks => nomatch hLacks
  | ct24 => exact fun _ _ => rfl
  | ct16 | ct16s => exact fun _ _ => rfl
  | t8 | t4 | t8h | t4hl | t4hh =>
      exact fun _ hDirect => nomatch hDirect

/- Indexed texels without alpha have 16-bit entries. -/
theorem formats_of_isIndexed
    {d : Descriptor}
    (hLacks : d.texelsLackAlpha = true)
    (hIndexed : d.texture.isIndexed = true) :
    d.texture ≠ .ct24 ∧ d.palette ≠ .ct32 := by
  constructor
  · intro hTexture
    rw [hTexture] at hIndexed
    cases hIndexed
  · intro hPalette
    unfold Descriptor.texelsLackAlpha at hLacks
    rw [hPalette] at hLacks
    revert hLacks hIndexed
    cases d.texture with
    | ct32 | ct24 | ct16 | ct16s =>
        exact fun _ hIndexed => nomatch hIndexed
    | t8 | t4 | t8h | t4hl | t4hh =>
        exact fun hLacks => nomatch hLacks

/- A texel without alpha is decoded from its word. -/
theorem exists_samplesWord
    (state : DrawState)
    (memory : Memory)
    (u v : Int32)
    (hLacks : state.descriptor.texelsLackAlpha = true) :
    ∃ word,
      state.SamplesWord memory u v word ∧
        state.texel memory u v =
          state.descriptor.decodeTexel word := by
  unfold SamplesWord
  dsimp only
  cases hIndexed : state.descriptor.texture.isIndexed with
  | true =>
      rcases state.exists_reads_paletteColor
          (state.texelBits memory u v) with
        ⟨word, _, hReads, -, hColor⟩
      rcases formats_of_isIndexed hLacks hIndexed with
        ⟨hTexture, hPalette⟩
      refine ⟨word, ⟨_,
        state.wordBit_texelBits memory u v hIndexed,
        hReads⟩, ?_⟩
      rw [state.texel_of_isIndexed memory u v hIndexed,
        hColor, Descriptor.decodeTexel, if_neg hTexture]
      revert hPalette
      cases state.descriptor.palette with
      | ct32 => exact fun hPalette => absurd rfl hPalette
      | ct16 | ct16s => exact fun _ => rfl
  | false =>
      refine ⟨state.texelBits memory u v, ?_,
        state.texel_of_direct memory u v hLacks hIndexed⟩
      intro k
      have hAddress (address : UInt32) :
          state.descriptor.texture.readAddress address =
            address := by
        revert hIndexed
        cases state.descriptor.texture with
        | ct32 | ct24 | ct16 | ct16s => exact fun _ => rfl
        | t8 | t4 | t8h | t4hl | t4hh =>
            exact fun hIndexed => nomatch hIndexed
      rw [texelBits, hAddress, Memory.wordBit_read]

------------------------------------------------------------
-- Expanded Alpha
------------------------------------------------------------

/-
  The alpha byte of a texel that is decoded from a word:
  none if the texel is black and black is transparent, and
  otherwise the constant that the alpha bit selects.  Texels
  of 24 bits have no alpha bit.
-/
def expectedAlpha
    (state : DrawState)
    (word : UInt32) : UInt32 :=
  let d := state.descriptor
  if d.blackIsTransparent = true ∧
      ∀ k < d.texelColorBits, wordBit word k = false then
    0
  else if d.texture ≠ .ct24 ∧ wordBit word 15 = true then
    state.params.alpha1
  else
    state.params.alpha0

section Texel

variable {state : DrawState}
variable {memory : Memory}
variable {u v : Int32}
variable {word : UInt32}

/- The bits of a texel of 24 bits. -/
theorem SamplesWord.wordBit_of_ct24
    (hWord : state.SamplesWord memory u v word)
    (hTexture : state.descriptor.texture = .ct24)
    (k : Nat) :
    wordBit word k =
      (decide (k < 24) &&
        memory.bit
          (Width.w24.start (state.texelAddress u v) + k)) := by
  unfold SamplesWord at hWord
  dsimp only at hWord
  rw [hTexture, if_neg (by decide)] at hWord
  exact hWord k

/- It has no others. -/
theorem SamplesWord.lt_of_ct24
    (hWord : state.SamplesWord memory u v word)
    (hTexture : state.descriptor.texture = .ct24) :
    word < 0x1000000 := by
  rw [UInt32.lt_iff_toNat_lt]
  apply Nat.lt_pow_two_of_testBit (n := 24)
  intro k hk
  have hBit := hWord.wordBit_of_ct24 hTexture k
  rw [decide_eq_false (Nat.not_lt.mpr hk),
    Bool.false_and] at hBit
  exact hBit

/- The alpha of a texel is the alpha bit of its word. -/
theorem hasValue_alpha_decodeTexel
    (hWord : state.SamplesWord memory u v word) :
    HasValue (state.descriptor.decodeTexel word).a
      (if state.descriptor.texture ≠ .ct24 ∧
          wordBit word 15 = true then 1 else 0) := by
  unfold Descriptor.decodeTexel
  by_cases hTexture : state.descriptor.texture = .ct24
  · rw [if_pos hTexture,
      if_neg (fun hBit => hBit.1 hTexture),
      Color.alpha_ofPixel32_of_lt
        (hWord.lt_of_ct24 hTexture)]
    exact Binary32.hasValue_zero
  · rw [if_neg hTexture]
    have hAlpha := Color.hasValue_alpha_ofPixel16 word
    simpa only [ne_eq, hTexture, not_false_eq_true,
      true_and] using hAlpha

/- A texel is black if the colour bits of its word are off. -/
theorem beq_zero_decodeTexel
    (d : Descriptor)
    (word : UInt32) :
    ((d.decodeTexel word).r + (d.decodeTexel word).g +
        (d.decodeTexel word).b == 0.0) = true ↔
      ∀ k < d.texelColorBits, wordBit word k = false := by
  unfold Descriptor.decodeTexel Descriptor.texelColorBits
  split
  · exact Color.beq_zero_ofPixel32 word
  · exact Color.beq_zero_ofPixel16 word

/- The alpha of an expanded texel is the expected byte. -/
theorem encodeChannel_expandAlpha
    (hExpands : state.descriptor.expandsAlpha = true)
    (hAlpha0 : state.params.alpha0 ≤ 255)
    (hAlpha1 : state.params.alpha1 ≤ 255)
    (hWord : state.SamplesWord memory u v word) :
    encodeChannel
        (state.expandAlpha
          (state.descriptor.decodeTexel word)).a 255.0 =
      state.expectedAlpha word := by
  have hBit := hasValue_alpha_decodeTexel hWord
  have hBlack :=
    and_congr_right'
      (a := state.descriptor.blackIsTransparent = true)
      (beq_zero_decodeTexel state.descriptor word)
  rw [← Bool.and_eq_true] at hBlack
  unfold expandAlpha expectedAlpha
  dsimp only
  rw [if_pos hExpands]
  split
  · rename_i hTransparent
    rw [if_pos (hBlack.mp hTransparent)]
    exact encodeChannel_none
  · rename_i hShown
    rw [if_neg (hBlack.not.mp hShown)]
    exact encodeChannel_mix hAlpha0 hAlpha1 hBit

end Texel

------------------------------------------------------------
-- Stored Pixels
------------------------------------------------------------

/-
  A draw that stores its texels as they are, except for
  their alpha: without tests, blending or a mask, into
  pixels of 32 bits.
-/
structure StoresTexels
    (state : DrawState) : Prop where
  expandsAlpha : state.descriptor.expandsAlpha = true
  decal : state.descriptor.textureFunction = .decal
  frame : state.descriptor.frame = .ct32
  alphaTest : state.descriptor.alphaTest = .always
  depthTest : state.descriptor.depthTest = .always
  writesDepth : state.descriptor.writesDepth = false
  blends : state.descriptor.blends = false
  writeMask : state.params.writeMask = 0xFFFFFFFF

namespace StoresTexels

variable {state : DrawState}

/- All fragments of such a draw pass their tests. -/
theorem commits
    (hStores : state.StoresTexels)
    (memory : Memory)
    (fragment : Fragment) :
    state.commits memory fragment = true := by
  unfold DrawState.commits alphaPasses depthPasses
  rw [hStores.alphaTest, hStores.depthTest]
  rfl

/- Their colour is the expanded texel. -/
theorem sourceColor
    (hStores : state.StoresTexels)
    (memory : Memory)
    (fragment : Fragment) :
    state.sourceColor memory fragment =
      state.expandAlpha
        (state.texel memory
          (state.texelPlace fragment).1
          (state.texelPlace fragment).2) := by
  have hExpands := hStores.expandsAlpha
  unfold Descriptor.expandsAlpha at hExpands
  rw [Bool.and_assoc, Bool.and_eq_true] at hExpands
  unfold DrawState.sourceColor texturedColor
  rw [if_pos hExpands.1]
  dsimp only
  rw [hStores.decal]
  rfl

/- It is stored without a change. -/
theorem read_shade
    (hStores : state.StoresTexels)
    (memory : Memory)
    (fragment : Fragment) :
    (state.shade memory fragment).2.read .w32
        (state.frameAddress fragment.x fragment.y) =
      (state.sourceColor memory fragment).toPixel32 := by
  have hPixel :=
    state.shadedPixel_of_unblended memory fragment
      hStores.blends hStores.writeMask
  rw [hStores.frame] at hPixel
  rw [shade_eq, if_pos (hStores.commits memory fragment)]
  unfold store
  dsimp only
  rw [hStores.frame, hStores.writesDepth, hPixel,
    if_neg Bool.false_ne_true]
  have hMask : Width.w32.mask = -1 := rfl
  refine (memory.read_write_self .w32 _ _).trans ?_
  rw [hMask, UInt32.and_neg_one]
  rfl

end StoresTexels

/-
  Such a draw stores one of three alpha bytes.  They depend
  on the word that the sampled texel is decoded from, and on
  nothing else: none if black is transparent and the colour
  bits of the word are off; otherwise the second constant if
  the word has 16 bits and the highest one is set, and the
  first constant in all other cases.
-/
theorem shade_stores_expectedAlpha
    (state : DrawState)
    (memory : Memory)
    (fragment : Fragment)
    (hStores : state.StoresTexels)
    (hAlpha0 : state.params.alpha0 ≤ 255)
    (hAlpha1 : state.params.alpha1 ≤ 255) :
    ∃ word,
      state.SamplesWord memory
          (state.texelPlace fragment).1
          (state.texelPlace fragment).2 word ∧
        (state.shade memory fragment).2.read .w32
            (state.frameAddress fragment.x fragment.y) >>>
            24 =
          state.expectedAlpha word := by
  have hExpands := hStores.expandsAlpha
  have hLacks : state.descriptor.texelsLackAlpha = true :=
    (Bool.and_eq_true_iff.mp hExpands).2
  rcases state.exists_samplesWord memory
      (state.texelPlace fragment).1
      (state.texelPlace fragment).2 hLacks with
    ⟨word, hWord, hTexel⟩
  refine ⟨word, hWord, ?_⟩
  calc
    (state.shade memory fragment).2.read .w32
          (state.frameAddress fragment.x fragment.y) >>>
        24 =
        encodeChannel (state.sourceColor memory fragment).a
          255.0 := by
      rw [hStores.read_shade]
      exact (Color.holdsFields32_toPixel32 _).alpha
    _ = state.expectedAlpha word := by
      rw [hStores.sourceColor, hTexel]
      exact encodeChannel_expandAlpha hExpands hAlpha0
        hAlpha1 hWord

/- A draw of 24-bit texels whose black is transparent. -/
def cutout : DrawState where
  descriptor :=
    { textured := true
      texture := .ct24
      textureFunction := .decal
      blackIsTransparent := true
      textureHasAlpha := true }
  params :=
    { frameWidth := 64
      textureAddress := 0x2000
      textureBufferWidth := 64
      textureWidth := 64
      textureHeight := 32
      alpha0 := 0x40
      alpha1 := 0x80 }
  bank := SwizzleBank.rowMajor
  palette := Palette.blank

/- A fragment at the start of the frame and the texture. -/
def firstFragment : Fragment where
  x := 0
  y := 0
  depth := 0.0
  color := Color.zero
  s := 0.0
  t := 0.0
  q := 1.0

/- A memory with a dark red texel below a full top byte. -/
def darkRed : Memory :=
  Memory.empty.write .w32
    (cutout.texelAddress
      (cutout.texelPlace firstFragment).1
      (cutout.texelPlace firstFragment).2) 0xFF000001

/- The top byte of the texel is not used as its alpha. -/
theorem shade_stores_expectedAlpha_darkRed :
    cutout.StoresTexels ∧ cutout.params.alpha0 ≤ 255 ∧
      cutout.params.alpha1 ≤ 255 ∧
      (cutout.shade darkRed firstFragment).2.read .w32
          (cutout.frameAddress 0 0) >>> 24 =
        0x40 := by
  have hStores : cutout.StoresTexels :=
    ⟨rfl, rfl, rfl, rfl, rfl, rfl, rfl, rfl⟩
  have hAlpha0 : cutout.params.alpha0 ≤ 255 := by decide
  have hAlpha1 : cutout.params.alpha1 ≤ 255 := by decide
  refine ⟨hStores, hAlpha0, hAlpha1, ?_⟩
  rcases shade_stores_expectedAlpha cutout darkRed
      firstFragment hStores hAlpha0 hAlpha1 with
    ⟨word, hWord, hAlpha⟩
  have hRed : wordBit word 0 = true := by
    rw [hWord.wordBit_of_ct24 rfl, darkRed]
    generalize cutout.texelAddress _ _ = address
    have hStart :
        Width.w24.start address + 0 =
          Width.w32.start address := by
      rw [Nat.add_zero, Width.start_eq, Width.start_eq]
    have hCovered :
        Width.w32.Covers address
          (Width.w32.start address) :=
      ⟨Nat.le_refl _, Nat.lt_add_of_pos_right (by decide)⟩
    rw [hStart, Memory.bit_write, if_pos hCovered,
      Nat.sub_self]
    rfl
  refine hAlpha.trans ?_
  unfold expectedAlpha
  dsimp only
  rw [if_neg, if_neg]
  · rfl
  · exact fun hSelected => hSelected.1 rfl
  · intro hBlack
    have hDark := hBlack.2 0 (by decide)
    rw [hRed] at hDark
    cases hDark

end DrawState

end PagedRaster
