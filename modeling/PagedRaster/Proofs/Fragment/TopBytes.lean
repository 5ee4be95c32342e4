import PagedRaster.Proofs.Fragment.Footprint
import PagedRaster.Proofs.Memory.Layout

/-
  This file proves that textures whose indices lie in the
  top bytes of words survive drawing into the low 24 bits.
  Fragments with 24-bit pixels and depths never touch a top
  byte, and the formats with high indices read nothing else.

  Key definitions include:
    * `InTopByte`
    * `Memory.topByte`
    * `Swizzle.StartsWords`
    * `TextureFormat.HasHighIndex`
    * `DrawState.KeepsTopBytes`
    * `DrawState.shadeSteps`
    * `DrawState.AlignsTexels`

  Key theorems include:
    * `DrawState.agreeOn_shadeSteps`
    * `TextureFormat.HasHighIndex.start_readAddress`
    * `DrawState.texelBits_of_hasHighIndex`
    * `DrawState.highIndices_survive`
-/

namespace PagedRaster

------------------------------------------------------------
-- Top Bytes
------------------------------------------------------------

/- A bit belongs to the top byte of its word. -/
def InTopByte
    (i : Nat) : Prop :=
  24 ≤ i % 32

/- The top byte of a word of memory. -/
def Memory.topByte
    (memory : Memory)
    (word : Fin wordCount) : UInt32 :=
  memory.words.get word >>> 24

/- A cell of 24 bits leaves the top byte out. -/
theorem Width.not_inTopByte
    {address : UInt32}
    {i : Nat}
    (hCovered : Width.w24.Covers address i) :
    ¬InTopByte i := by
  have hShift : (w24.locate address).shift.toNat = 0 := rfl
  rw [covers_iff, hShift] at hCovered
  simp only [bits] at hCovered
  unfold InTopByte
  omega

/- Memories that agree on all top bytes have equal ones. -/
theorem Memory.topByte_congr
    {memory other : Memory}
    (hAgree : AgreeOn InTopByte memory other)
    (word : Fin wordCount) :
    memory.topByte word = other.topByte word := by
  apply eq_of_wordBit_eq
  intro k
  unfold topByte
  rw [wordBit_shiftRight _ (by decide),
    wordBit_shiftRight _ (by decide)]
  simp only [UInt32.reduceToNat]
  by_cases hk : 24 + k < 32
  · have hTop : InTopByte (32 * word.val + (24 + k)) := by
      unfold InTopByte
      omega
    have hWord := hAgree _ hTop
    rw [bit_of_word memory word hk,
      bit_of_word other word hk] at hWord
    exact hWord
  · rw [wordBit_of_le _ (Nat.le_of_not_lt hk),
      wordBit_of_le _ (Nat.le_of_not_lt hk)]

------------------------------------------------------------
-- Cells Inside a Word
------------------------------------------------------------

/- A cell inside a word reads its part of the word. -/
theorem Memory.read_inside_word
    (memory : Memory)
    {width : Width}
    {address part : UInt32}
    {shift : UInt32}
    (hEnd : shift.toNat + width.bits ≤ 32)
    (hStart :
      width.start part =
        Width.w32.start address + shift.toNat) :
    memory.read width part =
      (memory.read .w32 address >>> shift) &&&
        width.mask := by
  have hPos := width.bits_pos
  apply eq_of_wordBit_eq
  intro k
  rw [wordBit_read, wordBit_and, Width.wordBit_mask,
    wordBit_shiftRight _ (by omega), wordBit_read, hStart,
    Bool.and_comm, Nat.add_assoc]
  by_cases hk : k < width.bits
  · have hInside : shift.toNat + k < Width.w32.bits := by
      simp only [Width.bits]
      omega
    simp only [hInside, decide_true, Bool.true_and]
  · simp only [hk, decide_false, Bool.and_false]

/- The last bits of a word need no mask. -/
theorem Width.shiftRight_and_mask
    {width : Width}
    {shift : UInt32}
    (hEnd : shift.toNat + width.bits = 32)
    (word : UInt32) :
    (word >>> shift) &&& width.mask = word >>> shift := by
  have hPos := width.bits_pos
  apply eq_of_wordBit_eq
  intro k
  rw [wordBit_and, wordBit_mask,
    wordBit_shiftRight _ (by omega)]
  by_cases hk : k < width.bits
  · simp only [hk, decide_true, Bool.and_true]
  · rw [wordBit_of_le _ (by omega), Bool.false_and]

/- All offsets of a table are multiples of a word. -/
def Swizzle.StartsWords
    (table : Swizzle) : Prop :=
  ∀ place : Fin table.storage.pagePixels,
    (table.offsets.get place).toNat % 4 = 0

/- A look-up in such a table finds a whole word. -/
theorem Swizzle.StartsWords.lookup_mod
    {table : Swizzle}
    (hWords : table.StartsWords)
    (x y : UInt32) :
    (table.lookup x y).toNat % 4 = 0 := by
  rw [Swizzle.lookup_eq]
  exact hWords _

namespace TextureFormat

/- The format has its index in the top byte of a word. -/
def HasHighIndex
    (format : TextureFormat) : Prop :=
  format = .t8h ∨ format = .t4hl ∨ format = .t4hh

/- The place of an index in its word. -/
def indexShift : TextureFormat → UInt32
  | .t8h | .t4hl => 24
  | .t4hh => 28
  | _ => 0

/- A high index lies in the top byte. -/
theorem HasHighIndex.indexShift_bounds
    {format : TextureFormat}
    (hHigh : format.HasHighIndex) :
    24 ≤ format.indexShift.toNat ∧
      format.indexShift.toNat + format.width.bits ≤ 32 := by
  rcases hHigh with rfl | rfl | rfl <;> decide

/- The odd nibble address above an even one. -/
theorem toNat_mul_two_or_one
    (address : UInt32) :
    (address * 2 ||| 1).toNat =
      (address * 2).toNat + 1 := by
  have hEven : (address * 2).toNat % 2 = 0 := by
    rw [UInt32.toNat_mul]
    simp only [UInt32.reduceToNat]
    omega
  have hQuotient :=
    @Nat.or_div_two_pow (address * 2).toNat 1 1
  have hRemainder :=
    @Nat.or_mod_two_pow (address * 2).toNat 1 1
  simp only [Nat.pow_one, Nat.reduceDiv, Nat.reduceMod,
    Nat.or_zero, Nat.zero_or, hEven]
    at hQuotient hRemainder
  rw [UInt32.toNat_or]
  simp only [UInt32.reduceToNat]
  omega

/-
  A high index is read at its place in the word of its
  texel.
-/
theorem HasHighIndex.start_readAddress
    {format : TextureFormat}
    (hHigh : format.HasHighIndex)
    {address : UInt32}
    (hWord : address.toNat % 4 = 0) :
    format.width.start (format.readAddress address) =
      Width.w32.start address + format.indexShift.toNat := by
  have hByte : (address + 3).toNat = address.toNat + 3 := by
    have hLast := address.toNat_lt
    rw [UInt32.toNat_add]
    simp only [UInt32.reduceToNat]
    omega
  have hNibble :
      ((address + 3) * 2).toNat =
        (address.toNat + 3) * 2 % 4294967296 := by
    rw [UInt32.toNat_mul, hByte]
    rfl
  rw [Width.start_eq, Width.start_eq]
  rcases hHigh with rfl | rfl | rfl
  · simp only [width, readAddress, indexShift, hByte,
      UInt32.reduceToNat]
    omega
  · simp only [width, readAddress, indexShift, hNibble,
      UInt32.reduceToNat]
    omega
  · simp only [width, readAddress, indexShift,
      toNat_mul_two_or_one, hNibble, UInt32.reduceToNat]
    omega

end TextureFormat

namespace DrawState

------------------------------------------------------------
-- Drawing into the Low Bits
------------------------------------------------------------

/- All cells that a draw writes have 24 bits. -/
structure KeepsTopBytes
    (state : DrawState) : Prop where
  frame : state.descriptor.frame = .ct24
  depth :
    state.descriptor.writesDepth = true →
      state.descriptor.depth = .z24

/- Such a draw writes no bit of a top byte. -/
theorem KeepsTopBytes.not_inTopByte
    {state : DrawState}
    (hKeeps : state.KeepsTopBytes)
    {fragment : Fragment}
    {i : Nat}
    (hWrites : state.Writes fragment i) :
    ¬InTopByte i := by
  rcases hWrites with hFrame | ⟨hWritesDepth, hDepth⟩
  · rw [InFrame, hKeeps.frame] at hFrame
    exact Width.not_inTopByte hFrame
  · rw [InDepth, hKeeps.depth hWritesDepth] at hDepth
    exact Width.not_inTopByte hDepth

/-
  Shade fragments one after the other, each under a draw
  state of its own.
-/
def shadeSteps
    (memory : Memory)
    (steps : List (DrawState × Fragment)) : Memory :=
  steps.foldl
    (fun memory step => (step.1.shade memory step.2).2)
    memory

/- Draws into the low bits leave all top bytes alone. -/
theorem agreeOn_shadeSteps
    {steps : List (DrawState × Fragment)}
    (hSteps : ∀ step ∈ steps, step.1.KeepsTopBytes)
    (memory : Memory) :
    AgreeOn InTopByte (shadeSteps memory steps) memory := by
  induction steps generalizing memory with
  | nil => exact fun i _ => rfl
  | cons step rest ih =>
      rw [List.forall_mem_cons] at hSteps
      have hStep :
          AgreeOn InTopByte
            (step.1.shade memory step.2).2 memory :=
        step.1.agreeOn_shade memory step.2
          fun i hWrites =>
            hSteps.1.not_inTopByte hWrites
      intro i hTop
      exact (ih hSteps.2 _ i hTop).trans (hStep i hTop)

------------------------------------------------------------
-- High Indices
------------------------------------------------------------

/-
  The texels of a texture start at whole words: its base
  does, and so do all offsets of its table.
-/
structure AlignsTexels
    (state : DrawState) : Prop where
  base : state.params.textureAddress.toNat % 4 = 0
  offsets :
    (state.bank.get
      state.descriptor.texture.pixelFormat).StartsWords

/- A texel of a high index starts at a whole word. -/
theorem AlignsTexels.texelAddress_mod
    {state : DrawState}
    (hAligns : state.AlignsTexels)
    (hHigh : state.descriptor.texture.HasHighIndex)
    (u v : Int32) :
    (state.texelAddress u v).toNat % 4 = 0 := by
  have hBase := hAligns.base
  have hOffset :=
    hAligns.offsets.lookup_mod u.toUInt32 v.toUInt32
  have hAddress :=
    toNat_pixelAddress
      (state.bank.get state.descriptor.texture.pixelFormat)
      state.params.textureAddress
      state.params.textureBufferWidth u v
  have hUnits :
      (state.bank.get
        state.descriptor.texture.pixelFormat
      ).storage.unitsPerByte = 1 := by
    have hStorage :
        (state.bank.get
            state.descriptor.texture.pixelFormat).storage =
          state.descriptor.texture.pixelFormat.storage :=
      state.bank.storage_eq _
    rw [hStorage]
    rcases hHigh with hFormat | hFormat | hFormat <;>
      rw [hFormat] <;> rfl
  rw [hUnits] at hAddress
  simp only [ramSize, pageSize, Nat.mul_one] at hAddress
  unfold texelAddress
  omega

/- A high index is read from its place in the word. -/
theorem texelBits_of_hasHighIndex
    {state : DrawState}
    (hAligns : state.AlignsTexels)
    (hHigh : state.descriptor.texture.HasHighIndex)
    (memory : Memory)
    (u v : Int32) :
    state.texelBits memory u v =
      (memory.read .w32 (state.texelAddress u v) >>>
          state.descriptor.texture.indexShift) &&&
        state.descriptor.texture.width.mask :=
  memory.read_inside_word hHigh.indexShift_bounds.2
    (hHigh.start_readAddress
      (hAligns.texelAddress_mod hHigh u v))

/-
  A high index follows from the top byte of its word, so
  memories with equal top bytes hold equal indices.
-/
theorem texelBits_congr_of_topBytes
    {state : DrawState}
    (hAligns : state.AlignsTexels)
    (hHigh : state.descriptor.texture.HasHighIndex)
    {memory other : Memory}
    (hAgree : AgreeOn InTopByte memory other)
    (u v : Int32) :
    state.texelBits memory u v =
      state.texelBits other u v := by
  have hBounds := hHigh.indexShift_bounds
  have hStart :=
    hHigh.start_readAddress
      (hAligns.texelAddress_mod hHigh u v)
  have hWord :
      Width.w32.start (state.texelAddress u v) % 32 = 0 := by
    rw [Width.start_eq]
    exact Nat.mul_mod_right 32 _
  apply Memory.read_congr
  intro i hCovered
  apply hAgree
  unfold Width.Covers at hCovered
  unfold InTopByte
  omega

/-
  High indices survive.  Whatever a run draws into 24-bit
  pixels and depths, the top byte of every word stays.  A
  texture with indices of eight bits in the high bits reads
  the top byte of the word of its texel, one with indices of
  four bits the lower or the upper half of it; so no such
  run changes an index that one of these textures samples.
-/
theorem highIndices_survive :
    (∀ (memory : Memory)
      (steps : List (DrawState × Fragment)),
      (∀ step ∈ steps, step.1.KeepsTopBytes) →
        ∀ word,
          (shadeSteps memory steps).topByte word =
            memory.topByte word) ∧
    (∀ (state : DrawState)
      (memory : Memory)
      (u v : Int32),
      state.AlignsTexels →
        let word :=
          memory.read .w32 (state.texelAddress u v)
        (state.descriptor.texture = .t8h →
          state.texelBits memory u v = word >>> 24) ∧
        (state.descriptor.texture = .t4hl →
          state.texelBits memory u v =
            (word >>> 24) &&& 0xF) ∧
        (state.descriptor.texture = .t4hh →
          state.texelBits memory u v = word >>> 28)) ∧
    (∀ (memory : Memory)
      (steps : List (DrawState × Fragment))
      (state : DrawState)
      (u v : Int32),
      (∀ step ∈ steps, step.1.KeepsTopBytes) →
        state.AlignsTexels →
          state.descriptor.texture.HasHighIndex →
            state.texelBits (shadeSteps memory steps) u v =
              state.texelBits memory u v) := by
  refine ⟨?_, ?_, ?_⟩
  · intro memory steps hSteps word
    exact Memory.topByte_congr
      (agreeOn_shadeSteps hSteps memory) word
  · intro state memory u v hAligns word
    refine ⟨?_, ?_, ?_⟩
    · intro hFormat
      rw [texelBits_of_hasHighIndex hAligns (Or.inl hFormat),
        hFormat]
      exact Width.shiftRight_and_mask rfl word
    · intro hFormat
      rw [texelBits_of_hasHighIndex hAligns
          (Or.inr (Or.inl hFormat)), hFormat]
      rfl
    · intro hFormat
      rw [texelBits_of_hasHighIndex hAligns
          (Or.inr (Or.inr hFormat)), hFormat]
      exact Width.shiftRight_and_mask rfl word
  · intro memory steps state u v hSteps hAligns hHigh
    exact texelBits_congr_of_topBytes hAligns hHigh
      (agreeOn_shadeSteps hSteps memory) u v

/-
  A draw into 24-bit pixels and depths that share their
  words, and with them a texture of high indices that the
  draw samples.
-/
def overlaid : DrawState where
  descriptor :=
    { textured := true
      frame := .ct24
      depth := .z24
      texture := .t4hh
      writesDepth := true }
  params :=
    { frameWidth := 64
      depthWidth := 64
      textureBufferWidth := 64
      textureWidth := 64
      textureHeight := 32 }
  bank := SwizzleBank.rowMajor
  palette := Palette.blank

/- Two fragments of the first pixel, and one outside. -/
def overlaidSteps : List (DrawState × Fragment) :=
  [(overlaid, ⟨0, 0, 0.75, Color.zero, 0.0, 0.0, 1.0⟩),
    (overlaid, ⟨0, 0, 0.5, Color.zero, 0.5, 0.5, 1.0⟩),
    (overlaid, ⟨-1, -1, 0.75, Color.zero, 0.0, 0.0, 1.0⟩)]

/- A memory with the index ten in the first texel. -/
def indexedMemory : Memory :=
  Memory.empty.write .w32 (overlaid.texelAddress 0 0)
    0xA5000000

/- The index is ten before and after the run. -/
theorem highIndices_survive_overlaid :
    (∀ step ∈ overlaidSteps, step.1.KeepsTopBytes) ∧
      overlaid.AlignsTexels ∧
      overlaid.descriptor.texture.HasHighIndex ∧
      overlaid.texelBits
          (shadeSteps indexedMemory overlaidSteps) 0 0 =
        10 := by
  have hKeeps :
      ∀ step ∈ overlaidSteps, step.1.KeepsTopBytes := by
    intro step hStep
    simp only [overlaidSteps, List.mem_cons,
      List.not_mem_nil, or_false] at hStep
    rcases hStep with rfl | rfl | rfl <;>
      exact ⟨rfl, fun _ => rfl⟩
  have hAligns : overlaid.AlignsTexels :=
    ⟨rfl, (Swizzle.packs_rowMajor .ct32).aligned⟩
  have hHigh : overlaid.descriptor.texture.HasHighIndex :=
    Or.inr (Or.inr rfl)
  refine ⟨hKeeps, hAligns, hHigh, ?_⟩
  rw [highIndices_survive.2.2 indexedMemory overlaidSteps
      overlaid 0 0 hKeeps hAligns hHigh,
    (highIndices_survive.2.1 overlaid indexedMemory 0 0
      hAligns).2.2 rfl,
    indexedMemory, Memory.read_write_self]
  rfl

end DrawState

end PagedRaster
