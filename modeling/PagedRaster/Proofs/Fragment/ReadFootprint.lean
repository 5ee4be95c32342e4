import PagedRaster.Proofs.Fragment.Commute

/-
  This file proves that the outcome of a fragment depends on
  no more of memory than the bits that it reads: its texel
  for textured programs, its frame buffer pixel for programs
  that blend or mask, and its stored depth for depth tests
  that compare.  It compares two runs on memories that agree
  there and differ anywhere else.

  Key definitions include:
    * `DrawState.SameOutcome`

  Key theorems include:
    * `DrawState.written_of_writes`
    * `DrawState.reads_iff_inTexel`
    * `DrawState.shade_sameOutcome`
-/

namespace PagedRaster

namespace DrawState

------------------------------------------------------------
-- Two Runs
------------------------------------------------------------

/-
  Two runs of a fragment have the same outcome.  They return
  one colour, both of them pass the two tests or neither
  does, the bits that they write have equal values, and a
  run that fails a test leaves its memory as it was.
-/
structure SameOutcome
    (state : DrawState)
    (fragment : Fragment)
    (memory other : Memory) : Prop where
  color :
    (state.shade memory fragment).1 =
      (state.shade other fragment).1
  commits :
    state.commits memory fragment =
      state.commits other fragment
  written :
    state.commits memory fragment = true →
      AgreeOn (state.Writes fragment)
        (state.shade memory fragment).2
        (state.shade other fragment).2
  kept :
    state.commits memory fragment = false →
      (state.shade memory fragment).2 = memory ∧
        (state.shade other fragment).2 = other

section Outcome

variable {state : DrawState}
variable {fragment : Fragment}
variable {memory other : Memory}

/- A fragment that passes its tests writes all its bits. -/
theorem written_of_writes
    (hCommits : state.commits memory fragment = true)
    {i : Nat}
    (hWrites : state.Writes fragment i) :
    ∃ value,
      state.written memory fragment i = some value := by
  unfold written
  rw [if_pos hCommits]
  by_cases hDepth :
      state.descriptor.writesDepth = true ∧
        state.InDepth fragment.x fragment.y i
  · exact ⟨_, if_pos hDepth⟩
  · have hFrame := hWrites.resolve_right hDepth
    exact ⟨_, (if_neg hDepth).trans (if_pos hFrame)⟩

/- What is read decides the outcome. -/
theorem sameOutcome_of_agreeOn
    (hAgree : AgreeOn (state.Reads fragment) memory other) :
    state.SameOutcome fragment memory other where
  color := by
    rw [fst_shade, fst_shade]
    exact shadedColor_congr hAgree
  commits := commits_congr hAgree
  written := by
    intro hCommits i hWrites
    rcases written_of_writes hCommits hWrites with
      ⟨value, hValue⟩
    have hOther := congrFun (written_congr hAgree) i
    rw [hValue] at hOther
    rw [bit_shade, bit_shade, hValue, ← hOther]
    rfl
  kept := by
    intro hFails
    have hOther := (commits_congr hAgree).symm.trans hFails
    rw [shade_eq, shade_eq, hFails, hOther]
    exact ⟨rfl, rfl⟩

/-
  A program that neither blends nor masks, and whose depth
  test does not compare, reads its texel only.
-/
theorem reads_iff_inTexel
    (hBlends : state.descriptor.blends = false)
    (hMasks : state.descriptor.masksColor = false)
    (hDepth :
      state.descriptor.depthTest.readsDepth = false)
    (i : Nat) :
    state.Reads fragment i ↔ state.InTexel fragment i := by
  have hColor : state.descriptor.readsColor = false := by
    rw [Descriptor.readsColor, hBlends, hMasks,
      Bool.or_false]
  simp only [Reads, hColor, hDepth, Bool.false_eq_true,
    false_and, or_false]

end Outcome

/-
  A fragment depends on what it reads.  On memories that
  agree on its texel if it is textured, on its frame buffer
  pixel if the stored colour is read, and on its stored
  depth if the depth test compares, it has the same outcome.
  Without blending, masking and a test that compares, its
  texel alone decides.
-/
theorem shade_sameOutcome
    (state : DrawState)
    (fragment : Fragment)
    (memory other : Memory) :
    (AgreeOn (state.Reads fragment) memory other →
      state.SameOutcome fragment memory other) ∧
    (state.descriptor.blends = false →
      state.descriptor.masksColor = false →
      state.descriptor.depthTest.readsDepth = false →
      AgreeOn (state.InTexel fragment) memory other →
        state.SameOutcome fragment memory other) := by
  refine ⟨sameOutcome_of_agreeOn, ?_⟩
  intro hBlends hMasks hDepth hTexel
  apply sameOutcome_of_agreeOn
  intro i hReads
  exact hTexel i
    ((reads_iff_inTexel hBlends hMasks hDepth i).mp hReads)

------------------------------------------------------------
-- A Neighbour in the Same Word
------------------------------------------------------------

/- A memory with another pixel beside the first one. -/
def besideFirst : Memory :=
  Memory.empty.write .w16 (halfWords.frameAddress 1 0)
    0xFFFF

/- The first fragment of the draw reads none of its bits. -/
theorem agreeOn_besideFirst :
    AgreeOn (halfWords.Reads (fragmentAt 0 0)) Memory.empty
      besideFirst := by
  have hFirst : fragmentAt 0 0 ∈ neighbours :=
    List.mem_cons_self
  have hSecond : fragmentAt 1 0 ∈ neighbours :=
    List.mem_cons_of_mem _ List.mem_cons_self
  have hApart :
      ∀ i, halfWords.Reads (fragmentAt 0 0) i →
        ¬halfWords.InFrame (fragmentAt 1 0).x
          (fragmentAt 1 0).y i := by
    intro i hReads hBeside
    rcases hReads with hTexel | ⟨_, hFrame⟩ | ⟨_, hDepth⟩
    · exact (halfWords_texels hSecond _ i hTexel).1 hBeside
    · exact packs_halfWords.frame_apart
        (nonOverlapping_neighbours.inFrame _ hFirst)
        (nonOverlapping_neighbours.inFrame _ hSecond)
        (by decide) i hFrame hBeside
    · exact halfWords_planes hSecond hFirst i hBeside hDepth
  intro i hReads
  have hKept :
      besideFirst.bit i = Memory.empty.bit i :=
    (Memory.bit_write _ _ _ _ i).trans
      (if_neg (hApart i hReads))
  exact hKept.symm

/-
  The other half of its word makes no difference to a
  fragment that blends, tests its depth and is textured.
-/
theorem shade_sameOutcome_besideFirst :
    AgreeOn (halfWords.Reads (fragmentAt 0 0)) Memory.empty
        besideFirst ∧
      besideFirst.read .w16 (halfWords.frameAddress 1 0) =
        0xFFFF ∧
      halfWords.SameOutcome (fragmentAt 0 0) Memory.empty
        besideFirst := by
  refine ⟨agreeOn_besideFirst, ?_, ?_⟩
  · rw [besideFirst, Memory.read_write_self]
    rfl
  · exact
      (shade_sameOutcome halfWords (fragmentAt 0 0)
        Memory.empty besideFirst).1 agreeOn_besideFirst

end DrawState

end PagedRaster
