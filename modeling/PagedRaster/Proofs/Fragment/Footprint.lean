import PagedRaster.Fragment.Shade
import PagedRaster.Proofs.Memory.Bits

/-
  This file states which bits of memory a fragment reads
  and which it writes.  A fragment is a patch: it decides,
  from the bits that it reads, which bits it replaces and
  by which values.

  Key definitions include:
    * `DrawState.InFrame`, `DrawState.InDepth`
    * `DrawState.InTexel`
    * `DrawState.Reads`, `DrawState.Writes`
    * `DrawState.commits`
    * `DrawState.written`
    * `DrawState.shadeAll`

  Key theorems include:
    * `DrawState.shade_eq`
    * `DrawState.shadedColor_congr`
    * `DrawState.written_congr`
    * `DrawState.bit_shade`
    * `DrawState.agreeOn_shade`
-/

namespace PagedRaster

/- Two memories have the same bits in a set of places. -/
def AgreeOn
    (places : Nat → Prop)
    (memory other : Memory) : Prop :=
  ∀ i, places i → memory.bit i = other.bit i

namespace DrawState

------------------------------------------------------------
-- Cells of a Fragment
------------------------------------------------------------

/- A bit belongs to the frame buffer pixel of a position. -/
abbrev InFrame
    (state : DrawState)
    (x y : Int32)
    (i : Nat) : Prop :=
  state.descriptor.frame.width.Covers
    (state.frameAddress x y) i

/- A bit belongs to the stored depth of a position. -/
abbrev InDepth
    (state : DrawState)
    (x y : Int32)
    (i : Nat) : Prop :=
  state.descriptor.depth.width.Covers
    (state.depthAddress x y) i

/- A bit belongs to the texel that a fragment samples. -/
def InTexel
    (state : DrawState)
    (fragment : Fragment)
    (i : Nat) : Prop :=
  state.descriptor.textured = true ∧
    state.descriptor.texture.width.Covers
      (state.descriptor.texture.readAddress
        (state.texelAddress
          (state.texelPlace fragment).1
          (state.texelPlace fragment).2))
      i

/- A bit that a fragment reads. -/
def Reads
    (state : DrawState)
    (fragment : Fragment)
    (i : Nat) : Prop :=
  state.InTexel fragment i ∨
    (state.descriptor.readsColor = true ∧
      state.InFrame fragment.x fragment.y i) ∨
    (state.descriptor.depthTest.readsDepth = true ∧
      state.InDepth fragment.x fragment.y i)

/- A bit that a fragment may write. -/
def Writes
    (state : DrawState)
    (fragment : Fragment)
    (i : Nat) : Prop :=
  state.InFrame fragment.x fragment.y i ∨
    (state.descriptor.writesDepth = true ∧
      state.InDepth fragment.x fragment.y i)

------------------------------------------------------------
-- Outcome of a Fragment
------------------------------------------------------------

/- The depth that a fragment compares and stores. -/
def shadedDepth
    (state : DrawState)
    (fragment : Fragment) : UInt32 :=
  fragment.depthWord &&& state.descriptor.depth.mask

/- Compared depths fit their cells. -/
theorem shadedDepth_and_mask
    (state : DrawState)
    (fragment : Fragment) :
    state.shadedDepth fragment &&&
        state.descriptor.depth.width.mask =
      state.shadedDepth fragment := by
  have hMask :
      state.descriptor.depth.width.mask =
        state.descriptor.depth.mask := by
    cases state.descriptor.depth <;> rfl
  rw [shadedDepth, hMask, UInt32.and_assoc,
    UInt32.and_self]

/- The stored pixel as far as a fragment reads it. -/
def seenPixel
    (state : DrawState)
    (memory : Memory)
    (fragment : Fragment) : UInt32 :=
  state.storedPixel memory
    (state.frameAddress fragment.x fragment.y)

/- The colour of a fragment after blending. -/
def blendedColor
    (state : DrawState)
    (memory : Memory)
    (fragment : Fragment) : Color :=
  state.outputColor (state.sourceColor memory fragment)
    (state.storedColor (state.seenPixel memory fragment))

/- The pixel that a fragment writes. -/
def shadedPixel
    (state : DrawState)
    (memory : Memory)
    (fragment : Fragment) : UInt32 :=
  state.mergedPixel (state.blendedColor memory fragment)
    (state.seenPixel memory fragment)

/-
  Without blending and under a full mask, the pixel is the
  encoded colour.
-/
theorem shadedPixel_of_unblended
    (state : DrawState)
    (memory : Memory)
    (fragment : Fragment)
    (hBlends : state.descriptor.blends = false)
    (hMask : state.params.writeMask = 0xFFFFFFFF) :
    state.shadedPixel memory fragment =
      state.descriptor.frame.encode
        (state.sourceColor memory fragment) := by
  have hAll : (0xFFFFFFFF : UInt32) = -1 := by
    decide
  unfold shadedPixel mergedPixel blendedColor outputColor
  rw [hBlends, hMask, hAll]
  simp only [UInt32.and_neg_one, UInt32.not_neg_one,
    UInt32.and_zero, UInt32.or_zero, Bool.false_eq_true,
    if_false]

/- The colour that a fragment returns. -/
def shadedColor
    (state : DrawState)
    (memory : Memory)
    (fragment : Fragment) : Color :=
  if state.alphaPasses
      (state.sourceColor memory fragment) then
    state.blendedColor memory fragment
  else
    state.sourceColor memory fragment

/- A fragment passes the alpha test and the depth test. -/
def commits
    (state : DrawState)
    (memory : Memory)
    (fragment : Fragment) : Bool :=
  state.alphaPasses (state.sourceColor memory fragment) &&
    state.depthPasses memory
      (state.depthAddress fragment.x fragment.y)
      (state.shadedDepth fragment)

/- What a fragment returns, and what it stores. -/
theorem shade_eq
    (state : DrawState)
    (memory : Memory)
    (fragment : Fragment) :
    state.shade memory fragment =
      (state.shadedColor memory fragment,
        if state.commits memory fragment then
          state.store memory
            (state.frameAddress fragment.x fragment.y)
            (state.depthAddress fragment.x fragment.y)
            (state.shadedPixel memory fragment)
            (state.shadedDepth fragment)
        else
          memory) := by
  unfold shade shadedColor commits
  by_cases hAlpha :
      state.alphaPasses (state.sourceColor memory fragment)
  · by_cases hDepth :
        state.depthPasses memory
          (state.depthAddress fragment.x fragment.y)
          (state.shadedDepth fragment)
    · simp only [hAlpha, hDepth, if_true, Bool.and_self]
      unfold commit
      exact if_pos hDepth
    · simp only [hAlpha, hDepth, if_true, Bool.and_false]
      unfold commit
      exact if_neg hDepth
  · simp only [hAlpha, Bool.false_and]
    rfl

/- The colour that shading returns. -/
@[simp]
theorem fst_shade
    (state : DrawState)
    (memory : Memory)
    (fragment : Fragment) :
    (state.shade memory fragment).1 =
      state.shadedColor memory fragment := by
  rw [shade_eq]

------------------------------------------------------------
-- Reading
------------------------------------------------------------

section Agreement

variable {state : DrawState}
variable {fragment : Fragment}
variable {memory other : Memory}

/- Memories that agree on the texel give one colour. -/
theorem sourceColor_congr
    (hAgree : AgreeOn (state.InTexel fragment) memory other) :
    state.sourceColor memory fragment =
      state.sourceColor other fragment := by
  unfold sourceColor
  by_cases hTextured : state.descriptor.textured = true
  · have hTexel :
        state.texelBits memory
            (state.texelPlace fragment).1
            (state.texelPlace fragment).2 =
          state.texelBits other
            (state.texelPlace fragment).1
            (state.texelPlace fragment).2 :=
      Memory.read_congr fun i hCovered =>
        hAgree i ⟨hTextured, hCovered⟩
    simp only [hTextured, if_true, texturedColor, texel,
      hTexel]
  · simp only [hTextured, Bool.false_eq_true, if_false]

/- Memories that agree on what is read show one pixel. -/
theorem seenPixel_congr
    (hAgree : AgreeOn (state.Reads fragment) memory other) :
    state.seenPixel memory fragment =
      state.seenPixel other fragment := by
  unfold seenPixel storedPixel
  by_cases hReads : state.descriptor.readsColor = true
  · rw [if_pos hReads, if_pos hReads]
    exact Memory.read_congr fun i hCovered =>
      hAgree i (Or.inr (Or.inl ⟨hReads, hCovered⟩))
  · rw [if_neg hReads, if_neg hReads]

/-
  Memories that agree on what is read agree on the depth
  test.
-/
theorem depthPasses_congr
    (hAgree : AgreeOn (state.Reads fragment) memory other) :
    state.depthPasses memory
        (state.depthAddress fragment.x fragment.y)
        (state.shadedDepth fragment) =
      state.depthPasses other
        (state.depthAddress fragment.x fragment.y)
        (state.shadedDepth fragment) := by
  unfold depthPasses
  by_cases hReads :
      state.descriptor.depthTest.readsDepth = true
  · have hRead :
        memory.read state.descriptor.depth.width
            (state.depthAddress fragment.x fragment.y) =
          other.read state.descriptor.depth.width
            (state.depthAddress fragment.x fragment.y) :=
      Memory.read_congr fun i hCovered =>
        hAgree i (Or.inr (Or.inr ⟨hReads, hCovered⟩))
    rw [hRead]
  · exact DepthTest.passes_congr
      (Bool.eq_false_iff.mpr hReads) _ _ _

/- The blended colour follows from what is read. -/
theorem blendedColor_congr
    (hAgree : AgreeOn (state.Reads fragment) memory other) :
    state.blendedColor memory fragment =
      state.blendedColor other fragment := by
  unfold blendedColor
  rw [seenPixel_congr hAgree,
    sourceColor_congr fun i hTexel =>
      hAgree i (Or.inl hTexel)]

/- The returned colour follows from what is read. -/
theorem shadedColor_congr
    (hAgree : AgreeOn (state.Reads fragment) memory other) :
    state.shadedColor memory fragment =
      state.shadedColor other fragment := by
  unfold shadedColor
  rw [blendedColor_congr hAgree,
    sourceColor_congr fun i hTexel =>
      hAgree i (Or.inl hTexel)]

/- The written pixel follows from what is read. -/
theorem shadedPixel_congr
    (hAgree : AgreeOn (state.Reads fragment) memory other) :
    state.shadedPixel memory fragment =
      state.shadedPixel other fragment := by
  unfold shadedPixel
  rw [blendedColor_congr hAgree, seenPixel_congr hAgree]

/-
  Memories that agree on what is read agree on both tests.
-/
theorem commits_congr
    (hAgree : AgreeOn (state.Reads fragment) memory other) :
    state.commits memory fragment =
      state.commits other fragment := by
  unfold commits
  rw [depthPasses_congr hAgree,
    sourceColor_congr fun i hTexel =>
      hAgree i (Or.inl hTexel)]

end Agreement

------------------------------------------------------------
-- Writing
------------------------------------------------------------

/-
  The value that a fragment gives a bit of memory, if it
  writes that bit.  The depth is written last.
-/
def written
    (state : DrawState)
    (memory : Memory)
    (fragment : Fragment)
    (i : Nat) : Option Bool :=
  let frameStart :=
    state.descriptor.frame.width.start
      (state.frameAddress fragment.x fragment.y)
  let depthStart :=
    state.descriptor.depth.width.start
      (state.depthAddress fragment.x fragment.y)
  if state.commits memory fragment then
    if state.descriptor.writesDepth = true ∧
        state.InDepth fragment.x fragment.y i then
      some (wordBit (state.shadedDepth fragment)
        (i - depthStart))
    else if state.InFrame fragment.x fragment.y i then
      some (wordBit (state.shadedPixel memory fragment)
        (i - frameStart))
    else
      none
  else
    none

/- Only bits of the two cells are written. -/
theorem writes_of_written
    {state : DrawState}
    {memory : Memory}
    {fragment : Fragment}
    {i : Nat}
    {value : Bool}
    (hWritten :
      state.written memory fragment i = some value) :
    state.Writes fragment i := by
  unfold written at hWritten
  split at hWritten
  · split at hWritten
    · next hDepth => exact Or.inr hDepth
    · split at hWritten
      · next hFrame => exact Or.inl hFrame
      · simp at hWritten
  · simp at hWritten

/- What is written follows from what is read. -/
theorem written_congr
    {state : DrawState}
    {fragment : Fragment}
    {memory other : Memory}
    (hAgree : AgreeOn (state.Reads fragment) memory other) :
    state.written memory fragment =
      state.written other fragment := by
  funext i
  unfold written
  rw [commits_congr hAgree, shadedPixel_congr hAgree]

/- Shading replaces the written bits and no other ones. -/
theorem bit_shade
    (state : DrawState)
    (memory : Memory)
    (fragment : Fragment)
    (i : Nat) :
    (state.shade memory fragment).2.bit i =
      (state.written memory fragment i).getD
        (memory.bit i) := by
  rw [shade_eq]
  unfold written
  by_cases hCommits : state.commits memory fragment = true
  · simp only [hCommits, if_true, store]
    by_cases hDepth :
        state.descriptor.writesDepth = true
    · simp only [hDepth, if_true, true_and,
        Memory.bit_write]
      split
      · rfl
      · split <;> rfl
    · simp only [hDepth, Bool.false_eq_true, if_false,
        false_and, Memory.bit_write]
      split <;> rfl
  · simp only [hCommits, Bool.false_eq_true, if_false,
      Option.getD_none]

/- A fragment leaves the bits that it does not write. -/
theorem agreeOn_shade
    (state : DrawState)
    (memory : Memory)
    (fragment : Fragment)
    {places : Nat → Prop}
    (hPlaces : ∀ i, state.Writes fragment i → ¬places i) :
    AgreeOn places (state.shade memory fragment).2
      memory := by
  intro i hPlace
  rw [bit_shade]
  cases hWritten : state.written memory fragment i with
  | none => rfl
  | some value =>
      have hWrites := writes_of_written hWritten
      exact absurd hPlace (hPlaces i hWrites)

------------------------------------------------------------
-- Lists of Fragments
------------------------------------------------------------

/-
  Shade fragments one after the other: the colours that
  they return, and the memory afterwards.
-/
def shadeAll
    (state : DrawState)
    (memory : Memory) :
    List Fragment → List Color × Memory
  | [] => ([], memory)
  | fragment :: rest =>
      let shaded := state.shade memory fragment
      let others := state.shadeAll shaded.2 rest
      (shaded.1 :: others.1, others.2)

/- The memory after a list of fragments. -/
theorem snd_shadeAll
    (state : DrawState)
    (memory : Memory)
    (fragments : List Fragment) :
    (state.shadeAll memory fragments).2 =
      fragments.foldl
        (fun memory fragment =>
          (state.shade memory fragment).2)
        memory := by
  induction fragments generalizing memory with
  | nil => rfl
  | cons fragment rest ih => exact ih _

end DrawState

end PagedRaster
