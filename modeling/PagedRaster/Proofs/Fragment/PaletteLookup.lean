import PagedRaster.Fragment.Texture
import PagedRaster.Proofs.Fragment.TopBytes

/-
  This file proves that looking an index up undoes storing a
  palette.  A colour of 32 bits is stored in two halves, and
  the look-up joins the two halves of one colour again.  An
  index of eight bits is looked up as it is, one of four
  bits behind the palette offset; what lies outside of the
  palette is read as zero.

  Key definitions include:
    * `TextureFormat.indexPlace`
    * `Palette.Reads`
    * `Palette.Stores`
    * `DrawState.paletteBase`

  Key theorems include:
    * `DrawState.wordBit_texelBits`
    * `DrawState.exists_reads_texel`
    * `DrawState.texel_undoes_storing`
-/

namespace PagedRaster

------------------------------------------------------------
-- Fetched Indices
------------------------------------------------------------

namespace TextureFormat

/- The place in memory of the first bit of an index. -/
def indexPlace
    (format : TextureFormat)
    (address : Nat) : Nat :=
  match format with
  | .t8 => 8 * (address % ramSize)
  | .t4 => 4 * (address % (2 * ramSize))
  | .t8h | .t4hl => 8 * ((address + 3) % ramSize)
  | .t4hh => 8 * ((address + 3) % ramSize) + 4
  | .ct32 | .ct24 | .ct16 | .ct16s => 0

/- The bits of an index. -/
def indexBits
    (format : TextureFormat) : Nat :=
  if format.hasByteIndex then 8 else 4

/- An index is fetched in its width from its place. -/
theorem fetch_of_isIndexed
    {format : TextureFormat}
    (hIndexed : format.isIndexed = true)
    (address : UInt32) :
    format.width.bits = format.indexBits ∧
      format.width.start (format.readAddress address) =
        format.indexPlace address.toNat := by
  have hByte :
      (address + 3).toNat =
        (address.toNat + 3) % 4294967296 :=
    UInt32.toNat_add _ _
  have hNibble :
      ((address + 3) * 2).toNat =
        (address + 3).toNat * 2 % 4294967296 :=
    UInt32.toNat_mul _ _
  rw [Width.start_eq]
  cases format with
  | ct32 => cases hIndexed
  | ct24 => cases hIndexed
  | ct16 => cases hIndexed
  | ct16s => cases hIndexed
  | t8 => exact ⟨rfl, rfl⟩
  | t4 => exact ⟨rfl, rfl⟩
  | t8h =>
      refine ⟨rfl, ?_⟩
      simp only [width, readAddress, indexPlace, ramSize,
        hByte]
      omega
  | t4hl =>
      refine ⟨rfl, ?_⟩
      simp only [width, readAddress, indexPlace, ramSize,
        hNibble, hByte]
      omega
  | t4hh =>
      refine ⟨rfl, ?_⟩
      simp only [width, readAddress, indexPlace, ramSize,
        toNat_mul_two_or_one, hNibble, hByte]
      omega

end TextureFormat

------------------------------------------------------------
-- Palettes as Stores
------------------------------------------------------------

namespace Palette

/-
  What a palette shows at a place: its entry there, or zero
  if it has none.
-/
structure Reads
    (palette : Palette)
    (place : Int)
    (value : UInt32) : Prop where
  inside :
    ∀ i : Fin paletteSize,
      place = i.val → value = palette.get i
  outside :
    place < 0 ∨ (paletteSize : Int) ≤ place → value = 0

/- A look-up shows the palette at its place. -/
theorem reads_entry
    (palette : Palette)
    (place : Int32) :
    palette.Reads place.toInt (palette.entry place) := by
  have hNegative : place < 0 ↔ place.toInt < 0 :=
    Int32.lt_iff_toInt_lt
  unfold entry
  constructor
  · intro i hPlace
    have hNonnegative : ¬place < 0 := by
      rw [hNegative, hPlace]
      exact Int.not_lt.mpr (Int.natCast_nonneg _)
    rw [if_neg hNonnegative, hPlace, Int.toNat_natCast,
      Vector.getElem?_eq_getElem i.isLt, Option.getD_some]
    rfl
  · intro hOutside
    split
    · rfl
    · rename_i hNonnegative
      rw [hNegative] at hNonnegative
      have hLast : paletteSize ≤ place.toInt.toNat := by
        omega
      rw [Vector.getElem?_eq_none hLast]
      rfl

/- An entry at a place of the palette is shown there. -/
theorem Reads.eq_of_getElem?
    {palette : Palette}
    {place : Nat}
    {value entry : UInt32}
    (hReads : palette.Reads place value)
    (hEntry : palette[place]? = some entry) :
    value = entry := by
  rcases Vector.getElem?_eq_some_iff.mp hEntry with
    ⟨hBound, hEntry⟩
  rw [hReads.inside ⟨place, hBound⟩ rfl, ← hEntry]
  rfl

/-
  A palette holds 256 colours of 32 bits.  Each entry holds
  half of a colour; the high halves follow the low ones.
-/
def Stores
    (palette : Palette)
    (colors : Fin 256 → UInt32) : Prop :=
  ∀ i : Fin 256,
    palette[i.val]? = some (colors i &&& 0xFFFF) ∧
      palette[i.val + 256]? = some (colors i >>> 16)

/- The palette that holds the given colours. -/
def ofColors
    (colors : Fin 256 → UInt32) : Palette :=
  Vector.ofFn fun i =>
    if i.val < 256 then
      colors (Fin.ofNat 256 i.val) &&& 0xFFFF
    else
      colors (Fin.ofNat 256 i.val) >>> 16

/- It holds them. -/
theorem stores_ofColors
    (colors : Fin 256 → UInt32) :
    (ofColors colors).Stores colors := by
  intro i
  have hBound := i.isLt
  have hLow : Fin.ofNat 256 i.val = i :=
    Fin.ext (Nat.mod_eq_of_lt hBound)
  have hHigh : Fin.ofNat 256 (i.val + 256) = i := by
    refine Fin.ext ?_
    rw [Fin.val_ofNat]
    omega
  have hFits : i.val + 256 < paletteSize := by
    unfold paletteSize
    omega
  constructor
  · rw [Vector.getElem?_eq_getElem (by omega), ofColors,
      Vector.getElem_ofFn, if_pos hBound, hLow]
  · rw [Vector.getElem?_eq_getElem hFits, ofColors,
      Vector.getElem_ofFn,
    if_neg (Nat.not_lt.mpr (Nat.le_add_left 256 _)),
      hHigh]

/- The halves of a stored colour make up the colour. -/
theorem join_halves
    (color : UInt32) :
    (color &&& 0xFFFF) |||
        ((color >>> (16 : UInt32)) <<< (16 : UInt32)) =
      color := by
  apply eq_of_wordBit_eq
  intro k
  have hLow :
      wordBit 0xFFFF k = decide (k < Width.w16.bits) :=
    Width.wordBit_mask .w16 k
  rw [wordBit_or, wordBit_and, hLow,
    wordBit_shiftLeft _ (by decide),
    wordBit_shiftRight _ (by decide)]
  simp only [UInt32.reduceToNat, Width.bits]
  by_cases hk : k < 16
  · simp [hk]
  · by_cases hWord : k < 32
    · have hPlace : 16 + (k - 16) = k := by omega
      simp [hk, hWord, hPlace]
    · simp [hk, hWord, wordBit_of_le _ (by omega : 32 ≤ k)]

end Palette

namespace DrawState

------------------------------------------------------------
-- Look-ups
------------------------------------------------------------

/-
  The place of the first entry of a draw: indices of eight
  bits count from the start of the palette.
-/
def paletteBase
    (state : DrawState) : Nat :=
  if state.descriptor.texture.hasByteIndex then 0
  else state.params.paletteOffset.toNat

/- A texel of an index has the colour of its look-up. -/
theorem texel_of_isIndexed
    (state : DrawState)
    (memory : Memory)
    (u v : Int32)
    (hIndexed : state.descriptor.texture.isIndexed = true) :
    state.texel memory u v =
      state.paletteColor (state.texelBits memory u v) := by
  unfold texel
  revert hIndexed
  cases state.descriptor.texture with
  | ct32 => nofun
  | ct24 => nofun
  | ct16 => nofun
  | ct16s => nofun
  | t8 | t4 | t8h | t4hl | t4hh => exact fun _ => rfl

/- The bits of a fetched index are those of its place. -/
theorem wordBit_texelBits
    (state : DrawState)
    (memory : Memory)
    (u v : Int32)
    (hIndexed : state.descriptor.texture.isIndexed = true)
    (k : Nat) :
    wordBit (state.texelBits memory u v) k =
      (decide (k < state.descriptor.texture.indexBits) &&
        memory.bit
          (state.descriptor.texture.indexPlace
            (state.texelAddress u v).toNat + k)) := by
  rcases TextureFormat.fetch_of_isIndexed hIndexed
      (state.texelAddress u v) with
    ⟨hBits, hPlace⟩
  rw [texelBits, Memory.wordBit_read, hBits, hPlace]

/- So an index is smaller than the number of its values. -/
theorem toNat_texelBits_lt
    (state : DrawState)
    (memory : Memory)
    (u v : Int32)
    (hIndexed : state.descriptor.texture.isIndexed = true) :
    (state.texelBits memory u v).toNat <
      2 ^ state.descriptor.texture.indexBits := by
  apply Nat.lt_pow_two_of_testBit
  intro k hk
  have hBit := state.wordBit_texelBits memory u v hIndexed k
  rw [decide_eq_false (Nat.not_lt.mpr hk),
    Bool.false_and] at hBit
  exact hBit

/- The signed word at a wrapped sum. -/
theorem toInt_toInt32_add
    (index offset : UInt32) :
    (index.toInt32 + offset.toInt32).toInt =
      (offset.toNat + index.toNat : Int).bmod (2 ^ 32) := by
  have hWord (word : UInt32) :
      word.toInt32.toInt =
        (word.toNat : Int).bmod (2 ^ 32) :=
    BitVec.toInt_eq_toNat_bmod word.toBitVec
  rw [Int32.toInt_add, hWord, hWord, Int.add_bmod_bmod,
    Int.bmod_add_bmod, Int.add_comm]

/-
  A look-up does not fail.  It shows the palette at the sum
  of the base and the index, as a signed word, and for a
  colour in two halves also 256 entries on.
-/
theorem exists_reads_paletteColor
    (state : DrawState)
    (index : UInt32) :
    ∃ low high,
      state.palette.Reads
          ((state.paletteBase + index.toNat : Int).bmod
            (2 ^ 32)) low ∧
        state.palette.Reads
          ((state.paletteBase + index.toNat + 256 :
            Int).bmod (2 ^ 32)) high ∧
        state.paletteColor index =
          match state.descriptor.palette with
          | .ct32 => Color.ofPixel32 (low ||| (high <<< 16))
          | .ct16 | .ct16s => Color.ofPixel16 low := by
  let offset : UInt32 :=
    if state.descriptor.texture.hasByteIndex then 0
    else state.params.paletteOffset
  let place := index.toInt32 + offset.toInt32
  have hBase : offset.toNat = state.paletteBase := by
    unfold offset paletteBase
    split <;> rfl
  have hPlace :
      place.toInt =
        (state.paletteBase + index.toNat : Int).bmod
          (2 ^ 32) := by
    rw [← hBase]
    exact toInt_toInt32_add index offset
  have hNext :
      (place + 256).toInt =
        (state.paletteBase + index.toNat + 256 : Int).bmod
          (2 ^ 32) := by
    rw [Int32.toInt_add, hPlace, Int.bmod_add_bmod]
    rfl
  have hLow := state.palette.reads_entry place
  have hHigh := state.palette.reads_entry (place + 256)
  rw [hPlace] at hLow
  rw [hNext] at hHigh
  refine ⟨_, _, hLow, hHigh, ?_⟩
  have hOffset :
      (if state.descriptor.texture.hasByteIndex then 0
        else state.params.paletteOffset.toInt32) =
        offset.toInt32 := by
    unfold offset
    split <;> rfl
  unfold paletteColor
  simp only [hOffset]
  rfl

/- Inside of the palette, sums are not wrapped. -/
theorem bmod_of_lt_paletteSize
    {place : Nat}
    (hPlace : place < paletteSize) :
    (place : Int).bmod (2 ^ 32) = place := by
  unfold paletteSize at hPlace
  rw [Int.bmod_eq_of_le]
  · omega
  · omega

/- Of a palette that holds colours, an index finds one. -/
theorem paletteColor_of_stores
    {state : DrawState}
    {colors : Fin 256 → UInt32}
    (hFull : state.descriptor.palette = .ct32)
    (hStores : state.palette.Stores colors)
    {index : UInt32}
    (place : Fin 256)
    (hPlace : state.paletteBase + index.toNat = place.val) :
    state.paletteColor index =
      Color.ofPixel32 (colors place) := by
  rcases state.exists_reads_paletteColor index with
    ⟨low, high, hLow, hHigh, hColor⟩
  rcases hStores place with ⟨hLowHalf, hHighHalf⟩
  have hBound := place.isLt
  have hFits : place.val + 256 < paletteSize := by
    unfold paletteSize
    omega
  have hFirst :
      (state.paletteBase + index.toNat : Int) =
        (place.val : Nat) := by
    omega
  have hNext :
      (state.paletteBase + index.toNat + 256 : Int) =
        (place.val + 256 : Nat) := by
    omega
  rw [hFirst, bmod_of_lt_paletteSize (by omega)] at hLow
  rw [hNext, bmod_of_lt_paletteSize hFits] at hHigh
  rw [hColor, hFull, hLow.eq_of_getElem? hLowHalf,
    hHigh.eq_of_getElem? hHighHalf, Palette.join_halves]

/-
  Looking up undoes storing.  Under a palette that holds
  colours of 32 bits, a texel has the colour of its index: of
  the index itself if it has eight bits, whatever the offset
  is, and of the offset and the index together if it has
  four and the offset leaves room for all of them.  The index
  is the number in the bits at its place in memory.  Whatever
  the offset, the palette and its format are, no look-up
  fails: each entry is read at the signed word of the sum,
  and what lies outside of the palette is zero.
-/
theorem texel_undoes_storing
    (state : DrawState)
    (memory : Memory)
    (u v : Int32)
    (hIndexed : state.descriptor.texture.isIndexed = true) :
    let format := state.descriptor.texture
    let index := state.texelBits memory u v
    (∀ k, wordBit index k =
        (decide (k < format.indexBits) &&
          memory.bit
            (format.indexPlace
              (state.texelAddress u v).toNat + k))) ∧
      (∀ colors : Fin 256 → UInt32,
        state.descriptor.palette = .ct32 →
        state.palette.Stores colors →
          (format.hasByteIndex = true →
            ∃ place : Fin 256,
              place.val = index.toNat ∧
                state.texel memory u v =
                  Color.ofPixel32 (colors place)) ∧
          (format.hasByteIndex = false →
            state.params.paletteOffset.toNat ≤ 240 →
              ∃ place : Fin 256,
                place.val =
                    state.params.paletteOffset.toNat +
                      index.toNat ∧
                  state.texel memory u v =
                    Color.ofPixel32 (colors place))) ∧
      ∃ low high,
        state.palette.Reads
            ((state.paletteBase + index.toNat : Int).bmod
              (2 ^ 32)) low ∧
          state.palette.Reads
            ((state.paletteBase + index.toNat + 256 :
              Int).bmod (2 ^ 32)) high ∧
          state.texel memory u v =
            match state.descriptor.palette with
            | .ct32 =>
                Color.ofPixel32 (low ||| (high <<< 16))
            | .ct16 | .ct16s => Color.ofPixel16 low := by
  intro format index
  have hTexel :
      state.texel memory u v = state.paletteColor index :=
    state.texel_of_isIndexed memory u v hIndexed
  have hIndex : index.toNat < 2 ^ format.indexBits :=
    state.toNat_texelBits_lt memory u v hIndexed
  refine ⟨state.wordBit_texelBits memory u v hIndexed,
    ?_, ?_⟩
  · intro colors hFull hStores
    constructor
    · intro hByte
      have hBase : state.paletteBase = 0 := if_pos hByte
      have hPlace : index.toNat < 256 := by
        rwa [TextureFormat.indexBits, if_pos hByte] at hIndex
      refine ⟨⟨index.toNat, hPlace⟩, rfl, ?_⟩
      rw [hTexel]
      apply paletteColor_of_stores hFull hStores
      rw [hBase, Nat.zero_add]
    · intro hNibble hOffset
      have hNot : ¬format.hasByteIndex = true := by
        rw [hNibble]
        exact Bool.false_ne_true
      have hBase :
          state.paletteBase =
            state.params.paletteOffset.toNat :=
        if_neg hNot
      have hPlace : index.toNat < 16 := by
        rwa [TextureFormat.indexBits, if_neg hNot] at hIndex
      refine ⟨⟨_, by omega⟩, rfl, ?_⟩
      rw [hTexel]
      apply paletteColor_of_stores hFull hStores
      rw [hBase]
  · rw [hTexel]
    exact state.exists_reads_paletteColor index

/- Bits that are stored for a texel are fetched again. -/
theorem texelBits_write_self
    (state : DrawState)
    (memory : Memory)
    (u v : Int32)
    (value : UInt32) :
    let format := state.descriptor.texture
    state.texelBits
        (memory.write format.width
          (format.readAddress (state.texelAddress u v))
          value) u v =
      value &&& format.width.mask :=
  memory.read_write_self _ _ value

/- Colours that differ in all of their bytes. -/
def ramp
    (i : Fin 256) : UInt32 :=
  UInt32.ofNat i.val * 0x01020408

/-
  A draw that samples indices of four bits under a full
  palette, the last sixteen colours of which they select.
-/
def lastColors : DrawState where
  descriptor :=
    { textured := true
      texture := .t4hh
      palette := .ct32 }
  params :=
    { textureBufferWidth := 64
      textureWidth := 64
      textureHeight := 32
      paletteOffset := 240 }
  bank := SwizzleBank.rowMajor
  palette := Palette.ofColors ramp

/- A memory with the index ten in the first texel. -/
def tenthIndex : Memory :=
  Memory.empty.write lastColors.descriptor.texture.width
    (lastColors.descriptor.texture.readAddress
      (lastColors.texelAddress 0 0)) 0xA

/- The texel has the colour of the entry 250. -/
theorem texel_undoes_storing_lastColors :
    lastColors.descriptor.texture.isIndexed = true ∧
      lastColors.descriptor.palette = .ct32 ∧
      lastColors.palette.Stores ramp ∧
      lastColors.descriptor.texture.hasByteIndex = false ∧
      lastColors.params.paletteOffset.toNat ≤ 240 ∧
      lastColors.texel tenthIndex 0 0 =
        Color.ofPixel32 (ramp 250) := by
  have hStores : lastColors.palette.Stores ramp :=
    Palette.stores_ofColors ramp
  have hIndex : lastColors.texelBits tenthIndex 0 0 = 10 := by
    rw [tenthIndex, texelBits_write_self]
    rfl
  refine ⟨rfl, rfl, hStores, rfl, Nat.le_refl 240, ?_⟩
  rcases ((texel_undoes_storing lastColors tenthIndex 0 0
      rfl).2.1 _ rfl hStores).2 rfl (Nat.le_refl 240) with
    ⟨place, hPlace, hTexel⟩
  rw [hIndex] at hPlace
  have hLast : place = 250 := Fin.ext hPlace
  rw [hTexel, hLast]

end DrawState

end PagedRaster
