import Mathlib.Algebra.Ring.Nat
import PagedRaster.Gpu.Host

/-
  This file proves that words address the places of the
  parameter ring.  A ring that fits has places of at least
  the size of the parameters, no more of them taken than
  there are, and an end that words reach; so the next place
  of a ring with room has a word for an offset.

  Key definitions include:
    * `GpuHost.nextOffset`
    * `GpuHost.RingFits`
    * `GpuHost.SameRing`

  Key theorems include:
    * `GpuHost.RingFits.of_taken`
    * `GpuHost.toNat_strideFor`
    * `GpuHost.create_fits`
    * `GpuHost.toNat_nextParam`
    * `GpuHost.exists_ringOffset`
    * `GpuHost.pushParams_of_unaddressed`
-/

namespace PagedRaster

namespace GpuHost

------------------------------------------------------------
-- Rings that Fit
------------------------------------------------------------

/- The place of the next parameters in the ring. -/
def nextOffset
    (host : GpuHost) : Nat :=
  host.slot.nextParam.toNat * host.paramStride.toNat

/-
  The places of a ring are large enough, no more of them are
  taken than there are, and words address all of them.
-/
structure RingFits
    (host : GpuHost) : Prop where
  stride : Params.byteSize ≤ host.paramStride.toNat
  taken :
    host.slot.nextParam.toNat ≤ host.paramSlots.toNat
  addressed :
    host.paramSlots.toNat * host.paramStride.toNat ≤ 2 ^ 32

/- The ring in use is laid out and taken as it was. -/
structure SameRing
    (host next : GpuHost) : Prop where
  taken : next.slot.nextParam = host.slot.nextParam
  paramSlots : next.paramSlots = host.paramSlots
  paramStride : next.paramStride = host.paramStride

/- A ring that is laid out alike fits if it is taken so. -/
theorem RingFits.of_taken
    {host next : GpuHost}
    (hFits : host.RingFits)
    (hPlaces : next.paramSlots = host.paramSlots)
    (hStride : next.paramStride = host.paramStride)
    (hTaken :
      next.slot.nextParam.toNat ≤ next.paramSlots.toNat) :
    next.RingFits where
  stride := by
    rw [hStride]
    exact hFits.stride
  taken := hTaken
  addressed := by
    rw [hPlaces, hStride]
    exact hFits.addressed

/- The same ring still fits. -/
theorem RingFits.of_same
    {host next : GpuHost}
    (hFits : host.RingFits)
    (hSame : SameRing host next) :
    next.RingFits := by
  apply hFits.of_taken hSame.paramSlots hSame.paramStride
  rw [hSame.taken, hSame.paramSlots]
  exact hFits.taken

/- The slot in use is the one that it is changed to. -/
theorem slot_setSlot
    (host : GpuHost)
    (slot : FrameSlot) :
    (host.setSlot slot).slot = slot :=
  Vector.getElem_set_self host.current.isLt

/- A free ring that is laid out like another one fits. -/
theorem resetRing_fits
    {host next : GpuHost}
    (hFits : host.RingFits)
    (hPlaces : next.paramSlots = host.paramSlots)
    (hStride : next.paramStride = host.paramStride) :
    next.resetRing.RingFits := by
  refine RingFits.of_taken hFits hPlaces hStride ?_
  rw [resetRing, slot_setSlot]
  exact Nat.zero_le _

------------------------------------------------------------
-- Rings of a New Host
------------------------------------------------------------

/- A stride does not wrap, whatever the alignment is. -/
theorem toNat_strideFor
    {alignment : UInt32}
    (hAlignment : 0 < alignment) :
    let rest := Params.byteSize % alignment.toNat
    (strideFor alignment).toNat =
      if rest = 0 then Params.byteSize
      else Params.byteSize + (alignment.toNat - rest) := by
  intro rest
  have hSize :
      Params.byteSize.toUInt32.toNat = Params.byteSize :=
    rfl
  have hRest :
      (Params.byteSize.toUInt32 % alignment).toNat = rest := by
    rw [UInt32.toNat_mod, hSize]
  have hNone :
      (Params.byteSize.toUInt32 % alignment == 0) = true ↔
        rest = 0 := by
    rw [beq_iff_eq, ← UInt32.toNat_inj, hRest,
      UInt32.toNat_zero]
  have hLess : rest < alignment.toNat :=
    Nat.mod_lt _ (UInt32.lt_iff_toNat_lt.mp hAlignment)
  -- A wide alignment leaves the size as the rest.
  have hSum :
      Params.byteSize + (alignment.toNat - rest) <
        2 ^ 32 := by
    have hSmall : Params.byteSize < 2 ^ 31 := by decide
    have hWord : alignment.toNat < 2 ^ 32 :=
      alignment.toNat_lt
    rcases Nat.lt_or_ge Params.byteSize alignment.toNat with
      hWide | hNarrow
    · have hWhole : rest = Params.byteSize :=
        Nat.mod_eq_of_lt hWide
      omega
    · omega
  unfold strideFor
  simp only [hNone]
  split
  · exact hSize
  · have hWord :
        Params.byteSize.toUInt32 % alignment ≤ alignment := by
      rw [UInt32.le_iff_toNat_le, hRest]
      exact Nat.le_of_lt hLess
    rw [UInt32.toNat_add, UInt32.toNat_sub_of_le _ _ hWord,
      hRest, hSize, Nat.mod_eq_of_lt hSum]

/- The parameters of a draw fit into a stride. -/
theorem byteSize_le_strideFor
    {alignment : UInt32}
    (hAlignment : 0 < alignment) :
    Params.byteSize ≤ (strideFor alignment).toNat := by
  rw [toNat_strideFor hAlignment]
  split
  · exact Nat.le_refl _
  · exact Nat.le_add_right _ _

/- The ring of a new host is free, and it fits. -/
theorem create_fits
    {config : DrawConfig}
    {alignment : UInt32}
    (hAlignment : 0 < alignment)
    (hRing :
      config.paramSlots.toNat *
          (strideFor alignment).toNat ≤ 2 ^ 32)
    {made : Logged GpuHost}
    (hMade : create config alignment = .ok made) :
    made.value.RingFits := by
  unfold create at hMade
  split at hMade
  · rename_i hSlots
    cases hMade
    have hSlot :
        (Vector.replicate config.frameSlots
          ({} : FrameSlot)).get ⟨0, hSlots⟩ = {} :=
      Vector.getElem_replicate _
    refine ⟨byteSize_le_strideFor hAlignment, ?_, hRing⟩
    rw [slot, hSlot]
    exact Nat.zero_le _
  · cases hMade

------------------------------------------------------------
-- Offsets
------------------------------------------------------------

/- A ring that is not full has a place that is free. -/
theorem RingFits.taken_lt
    {host : GpuHost}
    (hFits : host.RingFits)
    (hRoom : host.ringIsFull = false) :
    host.slot.nextParam.toNat < host.paramSlots.toNat := by
  have hTaken := hFits.taken
  rw [ringIsFull, beq_eq_false_iff_ne, ne_eq,
    ← UInt32.toNat_inj] at hRoom
  omega

/- A word counts the places when one more is taken. -/
theorem toNat_nextParam
    {host : GpuHost}
    (hFits : host.RingFits)
    (hRoom : host.ringIsFull = false) :
    (host.slot.nextParam + 1).toNat =
      host.slot.nextParam.toNat + 1 := by
  have hTaken := hFits.taken_lt hRoom
  have hPlaces : host.paramSlots.toNat < 2 ^ 32 :=
    host.paramSlots.toNat_lt
  rw [UInt32.toNat_add, UInt32.toNat_one]
  exact Nat.mod_eq_of_lt (by omega)

/- A word addresses the next place of a ring with room. -/
theorem exists_ringOffset
    {host : GpuHost}
    (hFits : host.RingFits)
    (hRoom : host.ringIsFull = false) :
    ∃ offset,
      checkedMul host.slot.nextParam host.paramStride =
          some offset ∧
        offset.toNat = host.nextOffset := by
  have hStride := hFits.stride
  have hPlace :
      host.slot.nextParam.toNat + 1 ≤
        host.paramSlots.toNat :=
    hFits.taken_lt hRoom
  have hPositive : 0 < Params.byteSize := by decide
  apply exists_checkedProduct
  rw [UInt32.size]
  calc
    host.slot.nextParam.toNat * host.paramStride.toNat <
        host.slot.nextParam.toNat * host.paramStride.toNat +
          host.paramStride.toNat := by
      omega
    _ =
        (host.slot.nextParam.toNat + 1) *
          host.paramStride.toNat := by
      rw [Nat.succ_mul]
    _ ≤ host.paramSlots.toNat * host.paramStride.toNat :=
      Nat.mul_le_mul_right _ hPlace
    _ ≤ 4294967296 := hFits.addressed

/- A place that words do not address takes no parameters. -/
theorem pushParams_of_unaddressed
    {host : GpuHost}
    (hRoom : host.ringIsFull = false)
    (hFar : 2 ^ 32 ≤ host.nextOffset)
    (params : Params) :
    host.pushParams params = .error .wordOverflow := by
  have hNone :
      checkedMul host.slot.nextParam host.paramStride =
        none :=
    if_neg (Nat.not_lt.mpr hFar)
  simp only [pushParams, hRoom, hNone, Bool.false_eq_true,
    if_false]

end GpuHost

end PagedRaster
