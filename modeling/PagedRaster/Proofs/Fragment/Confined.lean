import PagedRaster.Proofs.Fragment.Footprint

/-
  This file proves what a fragment may do to memory.  A
  failed test leaves memory as it was.  Otherwise only bits
  of the frame buffer pixel change and, for programs that
  write depths, those of the stored depth; whatever else
  the words of the two cells hold is kept.

  Key definitions include:
    * `Width.rest?`
    * `DrawState.Confined`

  Key theorems include:
    * `Width.covers_rest_iff`
    * `DrawState.shade_of_fails`
    * `DrawState.read_depth_shade`
    * `DrawState.read_shade_of_not_writes`
    * `DrawState.shade_confined`
-/

namespace PagedRaster

------------------------------------------------------------
-- The Rest of a Word
------------------------------------------------------------

namespace Width

/-
  The rest of the word that holds a cell: the top byte above
  24 bits, and the other half beside 16 bits.
-/
def rest?
    (width : Width)
    (address : UInt32) : Option (Width × UInt32) :=
  match width with
  | .w24 => some (.w8, address ||| 3)
  | .w16 => some (.w16, address ^^^ 2)
  | _ => none

/- The address of the last byte of a word. -/
theorem toNat_or_three
    (address : UInt32) :
    (address ||| 3).toNat =
      4 * (address.toNat / 4) + 3 := by
  have hLow : ∀ m < 4, m ||| 3 = 3 := by
    decide
  have hByte :=
    hLow _ (Nat.mod_lt address.toNat (by decide))
  have hQuotient := @Nat.or_div_two_pow address.toNat 3 2
  have hRemainder := @Nat.or_mod_two_pow address.toNat 3 2
  simp only [Nat.reducePow, Nat.reduceDiv, Nat.reduceMod,
    Nat.or_zero] at hQuotient hRemainder
  rw [UInt32.toNat_or]
  simp only [UInt32.reduceToNat]
  omega

/- The address of the other half of a word. -/
theorem toNat_xor_two
    (address : UInt32) :
    (address ^^^ 2).toNat / 2 =
      2 * (address.toNat / 4) +
        (1 - address.toNat / 2 % 2) := by
  have hLow : ∀ m < 4, (m ^^^ 2) / 2 = 1 - m / 2 := by
    decide
  have hHalf :=
    hLow _ (Nat.mod_lt address.toNat (by decide))
  have hQuotient := @Nat.xor_div_two_pow address.toNat 2 2
  have hRemainder := @Nat.xor_mod_two_pow address.toNat 2 2
  simp only [Nat.reducePow, Nat.reduceDiv, Nat.reduceMod,
    Nat.xor_zero] at hQuotient hRemainder
  rw [UInt32.toNat_xor]
  simp only [UInt32.reduceToNat]
  omega

/- The rest of a word is what its cell does not cover. -/
theorem covers_rest_iff
    {width : Width}
    {address : UInt32}
    {rest : Width × UInt32}
    (hRest : rest ∈ width.rest? address)
    {i : Nat} :
    rest.1.Covers rest.2 i ↔
      Width.w32.Covers address i ∧
        ¬width.Covers address i := by
  cases width with
  | w4 => cases hRest
  | w8 => cases hRest
  | w32 => cases hRest
  | w24 =>
      cases hRest
      unfold Covers
      rw [start_eq, start_eq, start_eq, toNat_or_three]
      simp only [bits]
      omega
  | w16 =>
      cases hRest
      have hHalf := toNat_xor_two address
      unfold Covers
      rw [start_eq, start_eq, start_eq]
      simp only [bits]
      omega

end Width

namespace DrawState

------------------------------------------------------------
-- Gates
------------------------------------------------------------

section Shade

variable {state : DrawState}
variable {memory : Memory}
variable {fragment : Fragment}

/- A fragment that fails a test changes nothing. -/
theorem shade_of_fails
    (hFails : state.commits memory fragment = false) :
    (state.shade memory fragment).2 = memory := by
  rw [shade_eq, hFails]
  rfl

/- A bit that changes is one that the fragment writes. -/
theorem writes_of_changed
    {i : Nat}
    (hChanged :
      (state.shade memory fragment).2.bit i ≠
        memory.bit i) :
    state.Writes fragment i := by
  rw [bit_shade] at hChanged
  cases hWritten : state.written memory fragment i with
  | none =>
      rw [hWritten] at hChanged
      exact absurd rfl hChanged
  | some value => exact writes_of_written hWritten

/- An access apart from both cells reads as before. -/
theorem read_shade_of_not_writes
    {width : Width}
    {address : UInt32}
    (hApart :
      ∀ i, width.Covers address i →
        ¬state.Writes fragment i) :
    (state.shade memory fragment).2.read width address =
      memory.read width address := by
  apply Memory.read_congr
  exact state.agreeOn_shade memory fragment
    fun i hWrites hCovered => hApart i hCovered hWrites

/- A written depth is that of the fragment. -/
theorem read_depth_shade
    (hCommits : state.commits memory fragment = true)
    (hWrites : state.descriptor.writesDepth = true) :
    (state.shade memory fragment).2.read
        state.descriptor.depth.width
        (state.depthAddress fragment.x fragment.y) =
      state.shadedDepth fragment := by
  rw [shade_eq, hCommits]
  -- The depth is written last, so it stays even where the
  -- two buffers overlap.
  simp only [if_true, store, hWrites]
  rw [Memory.read_write_self, shadedDepth_and_mask]

end Shade

------------------------------------------------------------
-- Confined Fragments
------------------------------------------------------------

/-
  What a fragment may do to memory.  It changes nothing if
  the alpha test or the depth test fails.  A bit that
  changes belongs to its frame buffer pixel or, if depths
  are written, to its stored depth, which holds its depth
  afterwards.  What lies outside of both cells reads as
  before, in particular the top byte above 24 bits and the
  other half beside 16 bits.
-/
structure Confined
    (state : DrawState)
    (fragment : Fragment)
    (memory after : Memory) : Prop where
  alphaFails :
    state.alphaPasses
        (state.sourceColor memory fragment) = false →
      after = memory
  depthFails :
    state.depthPasses memory
        (state.depthAddress fragment.x fragment.y)
        (fragment.depthWord &&&
          state.descriptor.depth.mask) = false →
      after = memory
  changed :
    ∀ i, after.bit i ≠ memory.bit i →
      state.InFrame fragment.x fragment.y i ∨
        (state.descriptor.writesDepth = true ∧
          state.InDepth fragment.x fragment.y i)
  depthStored :
    state.alphaPasses
        (state.sourceColor memory fragment) = true →
      state.depthPasses memory
          (state.depthAddress fragment.x fragment.y)
          (fragment.depthWord &&&
            state.descriptor.depth.mask) = true →
        state.descriptor.writesDepth = true →
          after.read state.descriptor.depth.width
              (state.depthAddress fragment.x fragment.y) =
            fragment.depthWord &&&
              state.descriptor.depth.mask
  besideFrame :
    ∀ rest ∈
      state.descriptor.frame.width.rest?
        (state.frameAddress fragment.x fragment.y),
      (∀ i, rest.1.Covers rest.2 i →
        state.descriptor.writesDepth = true →
          ¬state.InDepth fragment.x fragment.y i) →
        after.read rest.1 rest.2 =
          memory.read rest.1 rest.2
  besideDepth :
    ∀ rest ∈
      state.descriptor.depth.width.rest?
        (state.depthAddress fragment.x fragment.y),
      (∀ i, rest.1.Covers rest.2 i →
        ¬state.InFrame fragment.x fragment.y i) →
        after.read rest.1 rest.2 =
          memory.read rest.1 rest.2
  frameOnly :
    state.descriptor.writesDepth = false →
      ∀ i, ¬state.InFrame fragment.x fragment.y i →
        after.bit i = memory.bit i

/-
  Every fragment is confined, wherever it lies and however
  its two buffers overlap.
-/
theorem shade_confined
    (state : DrawState)
    (memory : Memory)
    (fragment : Fragment) :
    state.Confined fragment memory
      (state.shade memory fragment).2 where
  alphaFails := by
    intro hAlpha
    apply shade_of_fails
    rw [commits, hAlpha, Bool.false_and]
  depthFails := by
    intro hDepth
    apply shade_of_fails
    rw [commits, shadedDepth, hDepth, Bool.and_false]
  changed := by
    intro i hChanged
    exact writes_of_changed hChanged
  depthStored := by
    intro hAlpha hDepth hWrites
    apply read_depth_shade _ hWrites
    rw [commits, shadedDepth, hAlpha, hDepth, Bool.and_self]
  besideFrame := by
    intro rest hRest hDepth
    apply read_shade_of_not_writes
    intro i hCovered hWrites
    rcases hWrites with hFrame | ⟨hWritesDepth, hStored⟩
    · exact ((Width.covers_rest_iff hRest).mp hCovered).2
        hFrame
    · exact hDepth i hCovered hWritesDepth hStored
  besideDepth := by
    intro rest hRest hFrame
    apply read_shade_of_not_writes
    intro i hCovered hWrites
    rcases hWrites with hPixel | ⟨_, hStored⟩
    · exact hFrame i hCovered hPixel
    · exact ((Width.covers_rest_iff hRest).mp hCovered).2
        hStored
  frameOnly := by
    intro hNoDepth i hOutside
    apply Classical.byContradiction
    intro hChanged
    rcases writes_of_changed hChanged with
      hFrame | ⟨hWritesDepth, _⟩
    · exact hOutside hFrame
    · rw [hNoDepth] at hWritesDepth
      exact Bool.false_ne_true hWritesDepth

/- A draw whose depths take the place of its pixels. -/
def sharedHalves : DrawState where
  descriptor :=
    { frame := .ct16
      depth := .z16
      depthTest := .always
      writesDepth := true }
  params :=
    { frameWidth := 64
      depthWidth := 64 }
  bank := SwizzleBank.rowMajor
  palette := Palette.blank

/- A fragment left of and above all buffers. -/
def outsider : Fragment :=
  ⟨-1, -1, 0.75, Color.zero, 0.0, 0.0, 1.0⟩

/-
  The depth replaces the pixel, and the other half of their
  word is kept.
-/
theorem shade_confined_sharedHalves :
    (sharedHalves.shade Memory.empty outsider).2.read .w16
          (sharedHalves.frameAddress (-1) (-1)) =
        outsider.depthWord &&& 0xFFFF ∧
      (sharedHalves.shade Memory.empty outsider).2.read .w16
          (sharedHalves.frameAddress (-1) (-1) ^^^ 2) =
        Memory.empty.read .w16
          (sharedHalves.frameAddress (-1) (-1) ^^^ 2) := by
  have hConfined :=
    shade_confined sharedHalves Memory.empty outsider
  constructor
  · exact hConfined.depthStored rfl rfl rfl
  · have hRest :
        (Width.w16,
            sharedHalves.frameAddress (-1) (-1) ^^^ 2) ∈
          Width.w16.rest?
            (sharedHalves.frameAddress (-1) (-1)) :=
      rfl
    apply hConfined.besideFrame _ hRest
    intro i hCovered _ hStored
    exact ((Width.covers_rest_iff hRest).mp hCovered).2
      hStored

end DrawState

end PagedRaster
