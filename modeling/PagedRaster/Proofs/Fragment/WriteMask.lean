import PagedRaster.Proofs.Fragment.Footprint

/-
  This file proves what the write mask does to a pixel.
  Bits under the mask take the colour that is written.  The
  other bits are meant to be kept.  They are, as long as the
  stored pixel is read; a program that does not read it
  clears them.

  Key definitions include:
    * `DrawState.Unmasked`, `DrawState.MaskedOut`
    * `DrawState.KeepsMaskedOut`

  Key theorems include:
    * `DrawState.bit_shade_of_inFrame`
    * `DrawState.shade_under_mask`
    * `DrawState.not_keepsMaskedOut`
-/

namespace PagedRaster

namespace DrawState

------------------------------------------------------------
-- Bits of a Pixel
------------------------------------------------------------

/- The place of a bit of memory in the pixel. -/
def pixelPlace
    (state : DrawState)
    (fragment : Fragment)
    (i : Nat) : Nat :=
  i - state.descriptor.frame.width.start
    (state.frameAddress fragment.x fragment.y)

/- A bit of the pixel that the mask lets through. -/
def Unmasked
    (state : DrawState)
    (fragment : Fragment)
    (i : Nat) : Prop :=
  state.InFrame fragment.x fragment.y i ∧
    wordBit state.params.writeMask
      (state.pixelPlace fragment i) = true

/- A bit of the pixel that the mask holds back. -/
def MaskedOut
    (state : DrawState)
    (fragment : Fragment)
    (i : Nat) : Prop :=
  state.InFrame fragment.x fragment.y i ∧
    wordBit state.params.writeMask
      (state.pixelPlace fragment i) = false

/- A fragment keeps the bits that the mask holds back. -/
def KeepsMaskedOut
    (state : DrawState)
    (memory : Memory)
    (fragment : Fragment) : Prop :=
  ∀ i, state.MaskedOut fragment i →
    (state.shade memory fragment).2.bit i = memory.bit i

section Pixel

variable {state : DrawState}
variable {memory : Memory}
variable {fragment : Fragment}

/- A fragment that passes its tests returns what it blends. -/
theorem shadedColor_of_commits
    (hCommits : state.commits memory fragment = true) :
    state.shadedColor memory fragment =
      state.blendedColor memory fragment := by
  have hAlpha :
      state.alphaPasses
        (state.sourceColor memory fragment) = true :=
    (Bool.and_eq_true_iff.mp hCommits).1
  exact if_pos hAlpha

/- The stored pixel shows its bits to programs that read. -/
theorem wordBit_seenPixel
    {i : Nat}
    (hFrame : state.InFrame fragment.x fragment.y i) :
    wordBit (state.seenPixel memory fragment)
        (state.pixelPlace fragment i) =
      (state.descriptor.readsColor && memory.bit i) := by
  have hFirst := hFrame.1
  have hLast := hFrame.2
  have hInside :
      state.pixelPlace fragment i <
        state.descriptor.frame.width.bits := by
    unfold pixelPlace
    omega
  have hBit :
      state.descriptor.frame.width.start
          (state.frameAddress fragment.x fragment.y) +
        state.pixelPlace fragment i = i := by
    unfold pixelPlace
    omega
  unfold seenPixel storedPixel
  split
  · rename_i hReads
    rw [Memory.wordBit_read, hBit, hReads]
    simp [hInside]
  · rename_i hReads
    simp [wordBit, hReads]

/- Without a depth, the pixel is all that is written. -/
theorem bit_shade_of_inFrame
    (hCommits : state.commits memory fragment = true)
    (hDepth : state.descriptor.writesDepth = false)
    {i : Nat}
    (hFrame : state.InFrame fragment.x fragment.y i) :
    (state.shade memory fragment).2.bit i =
      if wordBit state.params.writeMask
          (state.pixelPlace fragment i) then
        wordBit
          (state.descriptor.frame.encode
            (state.shade memory fragment).1)
          (state.pixelPlace fragment i)
      else
        state.descriptor.readsColor && memory.bit i := by
  have hWritten :
      state.written memory fragment i =
        some (wordBit (state.shadedPixel memory fragment)
          (state.pixelPlace fragment i)) := by
    unfold written
    rw [if_pos hCommits, if_neg (by simp [hDepth]),
      if_pos hFrame]
    rfl
  have hWord : state.pixelPlace fragment i < 32 := by
    have hLast := hFrame.2
    have hBits :
        state.descriptor.frame.width.bits ≤ 32 := by
      cases state.descriptor.frame <;> decide
    unfold pixelPlace
    omega
  rw [bit_shade, hWritten, Option.getD_some, fst_shade,
    shadedColor_of_commits hCommits, shadedPixel,
    mergedPixel, wordBit_or, wordBit_and, wordBit_and,
    wordBit_not, wordBit_seenPixel hFrame]
  cases wordBit state.params.writeMask
      (state.pixelPlace fragment i) with
  | true => simp
  | false => simp [hWord]

/-
  A fragment that passes its tests and writes no depth gives
  the bits under the mask those of the colour it returns.
  It keeps the others if its program reads the stored pixel
  and clears them if not, so they are all kept just when the
  pixel is read or has none of them set.
-/
theorem shade_under_mask
    (hCommits : state.commits memory fragment = true)
    (hDepth : state.descriptor.writesDepth = false) :
    let shaded := state.shade memory fragment
    (∀ i, state.Unmasked fragment i →
        shaded.2.bit i =
          wordBit (state.descriptor.frame.encode shaded.1)
            (state.pixelPlace fragment i)) ∧
      (∀ i, state.MaskedOut fragment i →
        shaded.2.bit i =
          (state.descriptor.readsColor && memory.bit i)) ∧
      (state.KeepsMaskedOut memory fragment ↔
        state.descriptor.readsColor = true ∨
          ∀ i, state.MaskedOut fragment i →
            memory.bit i = false) := by
  intro shaded
  have hMasked (i : Nat)
      (hOut : state.MaskedOut fragment i) :
      shaded.2.bit i =
        (state.descriptor.readsColor && memory.bit i) := by
    rw [bit_shade_of_inFrame hCommits hDepth hOut.1,
      hOut.2]
    rfl
  refine ⟨?_, hMasked, ?_, ?_⟩
  · intro i hIn
    rw [bit_shade_of_inFrame hCommits hDepth hIn.1,
      if_pos hIn.2]
  · intro hKeeps
    cases hReads : state.descriptor.readsColor with
    | true => exact Or.inl rfl
    | false =>
        refine Or.inr fun i hOut => ?_
        rw [← hKeeps i hOut, hMasked i hOut, hReads]
        rfl
  · rintro (hReads | hClear) i hOut
    · rw [hMasked i hOut, hReads, Bool.true_and]
    · rw [hMasked i hOut, hClear i hOut, Bool.and_false]

end Pixel

------------------------------------------------------------
-- A Mask Without Its Flag
------------------------------------------------------------

/-
  A draw that holds back two bytes of every pixel, by its
  mask alone: its program does not read the pixel.
-/
def maskedBytes : DrawState where
  descriptor := {}
  params :=
    { frameWidth := 64
      writeMask := 0x00FF00FF }
  bank := SwizzleBank.rowMajor
  palette := Palette.blank

/- A white fragment of the first pixel. -/
def whitePixel : Fragment :=
  ⟨0, 0, 0.0, ⟨1.0, 1.0, 1.0, 1.0⟩, 0.0, 0.0, 1.0⟩

/- A memory whose first pixel is stored. -/
def storedMemory : Memory :=
  Memory.empty.write .w32 (maskedBytes.frameAddress 0 0)
    0x11223344

/- The second byte of that pixel is held back and not zero. -/
theorem maskedOut_maskedBytes :
    let i :=
      Width.w32.start (maskedBytes.frameAddress 0 0) + 12
    maskedBytes.MaskedOut whitePixel i ∧
      storedMemory.bit i = true := by
  intro i
  have hCovered :
      Width.w32.Covers (maskedBytes.frameAddress 0 0) i :=
    ⟨Nat.le_add_right _ _,
      Nat.add_lt_add_left (by decide) _⟩
  have hPlace :
      i - Width.w32.start (maskedBytes.frameAddress 0 0) =
        12 :=
    Nat.add_sub_cancel_left _ _
  refine ⟨⟨hCovered, ?_⟩, ?_⟩
  · change wordBit 0x00FF00FF
      (i - Width.w32.start (maskedBytes.frameAddress 0 0)) =
        false
    rw [hPlace]
    decide
  · rw [storedMemory, Memory.bit_write, if_pos hCovered,
      hPlace]
    decide

/- Those bytes are cleared, so they are not all kept. -/
theorem shade_under_mask_maskedBytes :
    maskedBytes.commits storedMemory whitePixel = true ∧
      maskedBytes.descriptor.writesDepth = false ∧
      (∀ i, maskedBytes.MaskedOut whitePixel i →
        (maskedBytes.shade storedMemory whitePixel).2.bit
          i = false) ∧
      ¬maskedBytes.KeepsMaskedOut storedMemory
        whitePixel := by
  have hCommits :
      maskedBytes.commits storedMemory whitePixel = true :=
    rfl
  rcases shade_under_mask hCommits rfl with
    ⟨-, hMasked, hKeeps⟩
  refine ⟨hCommits, rfl, hMasked, ?_⟩
  rw [hKeeps]
  rintro (hReads | hClear)
  · cases hReads
  · rcases maskedOut_maskedBytes with ⟨hOut, hStored⟩
    rw [hClear _ hOut] at hStored
    cases hStored

/-
  Not every fragment that passes its tests and writes no
  depth keeps the bits that the mask holds back.
-/
theorem not_keepsMaskedOut :
    ¬∀ (state : DrawState)
        (memory : Memory)
        (fragment : Fragment),
      state.commits memory fragment = true →
      state.descriptor.writesDepth = false →
        state.KeepsMaskedOut memory fragment := by
  intro hKeeps
  have hCommits :
      maskedBytes.commits storedMemory whitePixel = true :=
    rfl
  rcases maskedOut_maskedBytes with ⟨hOut, hStored⟩
  have hKept :=
    hKeeps maskedBytes storedMemory whitePixel hCommits rfl
      _ hOut
  rw [bit_shade_of_inFrame hCommits rfl hOut.1, hOut.2,
    hStored] at hKept
  cases hKept

end DrawState

end PagedRaster
