import PagedRaster.Word

/-
  This file defines the open batch: the range of the vertex
  storage that waits to be drawn.  Both ends of a range are
  words.

  Key definitions include:
    * `Batch`
    * `Batch.first`, `Batch.last`
    * `Batch.grow?`
    * `Batch.close`
-/

namespace PagedRaster

/- A range of the vertex storage. -/
structure Batch where
  start : UInt32 := 0
  stop : UInt32 := 0
  start_le_stop : start ≤ stop := by decide
  deriving DecidableEq, Repr

instance : Inhabited Batch :=
  ⟨{}⟩

namespace Batch

/- The place in the storage where the range starts. -/
def first
    (batch : Batch) : Nat :=
  batch.start.toNat

/- The place behind the range: the first free one. -/
def last
    (batch : Batch) : Nat :=
  batch.stop.toNat

/- A range does not end before it starts. -/
theorem first_le_last
    (batch : Batch) :
    batch.first ≤ batch.last :=
  UInt32.le_iff_toNat_le.mp batch.start_le_stop

/- The number of waiting vertices. -/
def count
    (batch : Batch) : UInt32 :=
  batch.stop - batch.start

/- No vertices wait. -/
def isEmpty
    (batch : Batch) : Bool :=
  batch.start == batch.stop

/-
  The batch with more vertices at its end, if the end is a
  word.
-/
def grow?
    (batch : Batch)
    (count : UInt32) : Option Batch :=
  match hStop : checkedAdd batch.stop count with
  | some stop =>
      some
        { start := batch.start
          stop := stop
          start_le_stop := by
            have hOrder := batch.first_le_last
            have hSum := toNat_of_checkedAdd hStop
            rw [UInt32.le_iff_toNat_le, hSum]
            exact Nat.le_add_right_of_le hOrder }
  | none => none

/- The empty batch right after this one. -/
def close
    (batch : Batch) : Batch where
  start := batch.stop
  stop := batch.stop
  start_le_stop := UInt32.le_refl batch.stop

/- The empty batch at the start of the storage. -/
def fresh : Batch :=
  {}

/- The number of waiting vertices spans the range. -/
theorem toNat_count
    (batch : Batch) :
    batch.count.toNat = batch.last - batch.first :=
  UInt32.toNat_sub_of_le _ _ batch.start_le_stop

/- A batch is empty when its ends are the same. -/
theorem isEmpty_iff_ends
    (batch : Batch) :
    batch.isEmpty = true ↔ batch.first = batch.last := by
  rw [isEmpty, beq_iff_eq, ← UInt32.toNat_inj]
  rfl

/- A batch is empty when no vertices wait. -/
theorem isEmpty_iff
    (batch : Batch) :
    batch.isEmpty = true ↔ batch.count = 0 := by
  have hOrder := batch.first_le_last
  rw [isEmpty_iff_ends, ← UInt32.toNat_inj, toNat_count,
    UInt32.toNat_zero]
  omega

/- A batch that ends before the last word grows. -/
theorem exists_grow?
    (batch : Batch)
    {added : UInt32}
    (hFits : batch.last + added.toNat < UInt32.size) :
    ∃ grown,
      batch.grow? added = some grown ∧
        grown.first = batch.first ∧
        grown.last = batch.last + added.toNat := by
  rcases exists_checkedSum hFits with ⟨stop, hStop, hSum⟩
  unfold grow?
  split
  · rename_i found hFound
    rw [hStop] at hFound
    cases hFound
    exact ⟨_, rfl, rfl, hSum⟩
  · rename_i hNone
    rw [hStop] at hNone
    cases hNone

/- A batch that grows by nothing is the same. -/
theorem grow?_zero
    (batch : Batch) :
    batch.grow? 0 = some batch := by
  have hWord : batch.last + (0 : UInt32).toNat <
      UInt32.size :=
    batch.stop.toNat_lt
  rcases batch.exists_grow? hWord with
    ⟨grown, hGrown, hFirst, hLast⟩
  have hStart : grown.start = batch.start :=
    UInt32.toNat_inj.mp hFirst
  have hStop : grown.stop = batch.stop :=
    UInt32.toNat_inj.mp hLast
  rw [hGrown]
  cases grown
  cases hStart
  cases hStop
  rfl

/- Closing an empty batch changes nothing. -/
theorem close_of_isEmpty
    (batch : Batch)
    (hEmpty : batch.isEmpty = true) :
    batch.close = batch := by
  have hEnds : batch.start = batch.stop := by
    simpa [isEmpty] using hEmpty
  cases batch with
  | mk start stop hOrder =>
      cases hEnds
      rfl

/- No vertices wait in a closed batch. -/
@[simp]
theorem isEmpty_close
    (batch : Batch) :
    batch.close.isEmpty = true := by
  simp [close, isEmpty]

end Batch

end PagedRaster
