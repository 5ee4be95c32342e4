import Mathlib.Algebra.Ring.Nat
import PagedRaster.Proofs.Draw.Request

/-
  This file describes the vertices that wait in the open
  batch: what the vertex storage holds in its range.

  Key definitions include:
    * `Tracker.waiting`
    * `Tracker.InStorage`

  Key theorems include:
    * `Tracker.toList_overwrite`
    * `Tracker.store_eq`, `Tracker.store_of_room`
    * `Tracker.store_of_wraps`
    * `Tracker.waiting_store`
    * `Tracker.vertices_pass`
    * `Tracker.room_flushFrame`
    * `Tracker.append_cases`, `Tracker.append_keeps`
    * `Tracker.fault_of_append`, `Tracker.fault_of_perform`
-/

namespace PagedRaster

namespace Tracker

variable {β P R : Type}
variable [Backend β P R]

------------------------------------------------------------
-- Storage
------------------------------------------------------------

/- Overwriting replaces exactly the range it is given. -/
theorem toList_overwrite
    (storage : Array Vertex)
    (place : Nat)
    (vertices : List Vertex)
    (hRoom : place + vertices.length ≤ storage.size) :
    (overwrite storage place vertices).toList =
      storage.toList.take place ++ vertices ++
        storage.toList.drop (place + vertices.length) := by
  induction vertices generalizing storage place with
  | nil => simp [overwrite]
  | cons v rest ih =>
      have hPlace : place < storage.toList.length := by
        simp only [List.length_cons] at hRoom
        simp only [Array.length_toList]
        omega
      have hRest :
          place + 1 + rest.length ≤
            (storage.setIfInBounds place v).size := by
        simp only [List.length_cons] at hRoom
        simp only [Array.size_setIfInBounds]
        omega
      have hFront :
          (storage.toList.set place v).take (place + 1) =
            storage.toList.take place ++ [v] := by
        rw [List.take_succ_eq_append_getElem
            (by simpa using hPlace),
          List.take_set_of_le (Nat.le_refl place)]
        simp
      have hBack :
          (storage.toList.set place v).drop
              (place + 1 + rest.length) =
            storage.toList.drop
              (place + 1 + rest.length) :=
        List.drop_set_of_lt (by omega)
      have hEnd :
          place + 1 + rest.length =
            place + (v :: rest).length := by
        simp only [List.length_cons]
        omega
      rw [overwrite, ih _ _ hRest,
        Array.toList_setIfInBounds, hFront, hBack, hEnd]
      simp

------------------------------------------------------------
-- Waiting Vertices
------------------------------------------------------------

/- The vertices of the open batch. -/
def waiting
    (t : Tracker β) : List Vertex :=
  (t.storage.extract t.batch.first t.batch.last).toList

/-
  The open batch lies in the vertex storage, and a word
  counts the slots of the storage.
-/
structure InStorage
    (t : Tracker β) : Prop where
  last_le : t.batch.last ≤ t.storage.size
  size_lt : t.storage.size < 2 ^ 32

/- The same batch lies in the same storage. -/
theorem InStorage.of_same
    {γ Q S : Type}
    [Backend γ Q S]
    {t : Tracker β}
    {u : Tracker γ}
    (hRange : t.InStorage)
    (hStorage : u.storage = t.storage)
    (hBatch : u.batch = t.batch) :
    u.InStorage where
  last_le := by
    rw [hStorage, hBatch]
    exact hRange.last_le
  size_lt := by
    rw [hStorage]
    exact hRange.size_lt

/- As many vertices wait as the batch counts. -/
theorem length_waiting
    {t : Tracker β}
    (hRange : t.InStorage) :
    t.waiting.length = t.pending.toNat := by
  have hLast := hRange.last_le
  simp only [waiting, pending, Batch.toNat_count,
    Array.length_toList, Array.size_extract]
  omega

/- Whole triangles wait when the vertices do in threes. -/
theorem pending_whole_iff
    {t : Tracker β}
    (hRange : t.InStorage) :
    t.pending % 3 = 0 ↔ t.waiting.length % 3 = 0 := by
  rw [length_waiting hRange, ← UInt32.toNat_inj,
    UInt32.toNat_mod]
  rfl

/- The batch counts none when no vertices wait. -/
theorem pending_eq_zero_iff
    {t : Tracker β}
    (hRange : t.InStorage) :
    t.pending = 0 ↔ t.waiting = [] := by
  rw [← List.length_eq_zero_iff, length_waiting hRange,
    ← UInt32.toNat_inj]
  rfl

/- No vertices wait in an empty batch. -/
theorem waiting_of_isEmpty
    {t : Tracker β}
    (hEmpty : t.batch.isEmpty = true) :
    t.waiting = [] := by
  have hEnds := t.batch.isEmpty_iff_ends.mp hEmpty
  simp [waiting, hEnds]

/- The draw of the open batch draws what waits. -/
@[simp]
theorem vertices_pass
    (t : Tracker β)
    (program : P)
    (resources : R) :
    (t.pass program resources).vertices = t.waiting :=
  rfl

/- Storing copies, fault or not, and changes the batch. -/
theorem store_eq
    (t : Tracker β)
    (vertices : List Vertex) :
    ∃ batch,
      (t.store vertices).state =
        { t.copied vertices with batch := batch } := by
  unfold store
  split
  · rename_i batch hGrown
    exact ⟨batch, rfl⟩
  · exact ⟨t.batch, rfl⟩

/- Vertices with room are stored, and the batch grows. -/
theorem store_of_room
    {t : Tracker β}
    {vertices : List Vertex}
    (hSize : t.storage.size < 2 ^ 32)
    (hRoom :
      t.batch.last + vertices.length ≤ t.storage.size) :
    ∃ grown,
      t.store vertices =
          .done { t.copied vertices with batch := grown } ∧
        grown.first = t.batch.first ∧
        grown.last = t.batch.last + vertices.length := by
  have hCount :
      vertices.length.toUInt32.toNat = vertices.length :=
    UInt32.toNat_ofNat_of_lt' (by
      rw [UInt32.size]
      omega)
  have hFits :
      t.batch.last + vertices.length.toUInt32.toNat <
        UInt32.size := by
    rw [hCount, UInt32.size]
    omega
  rcases t.batch.exists_grow? hFits with
    ⟨grown, hGrown, hFirst, hLast⟩
  rw [hCount] at hLast
  refine ⟨grown, ?_, hFirst, hLast⟩
  unfold store
  rw [hGrown]

/- Vertices with room are stored without a fault. -/
theorem fault_store
    {t : Tracker β}
    {vertices : List Vertex}
    (hSize : t.storage.size < 2 ^ 32)
    (hRoom :
      t.batch.last + vertices.length ≤ t.storage.size) :
    (t.store vertices).fault = none := by
  rcases store_of_room hSize hRoom with ⟨grown, hDone, -⟩
  rw [hDone]
  rfl

/-
  A word does not count past its end.  Vertices in a number
  that wraps to zero are copied, and none of them waits; so
  what follows asks for a storage whose slots a word counts.
-/
theorem store_of_wraps
    (t : Tracker β)
    {vertices : List Vertex}
    (hWraps : 2 ^ 32 ∣ vertices.length) :
    t.store vertices = .done (t.copied vertices) := by
  have hNone : vertices.length.toUInt32 = 0 := by
    rw [← UInt32.toNat_inj]
    exact Nat.mod_eq_zero_of_dvd hWraps
  unfold store
  rw [hNone, Batch.grow?_zero]
  rfl

/- Storing keeps the size of the storage. -/
theorem size_store
    (t : Tracker β)
    (vertices : List Vertex) :
    (t.store vertices).state.storage.size =
      t.storage.size := by
  rcases store_eq t vertices with ⟨batch, hState⟩
  rw [hState]
  exact size_overwrite _ _ _

/- Storing makes no call to the backend. -/
theorem backend_store
    (t : Tracker β)
    (vertices : List Vertex) :
    (t.store vertices).state.backend = t.backend := by
  rcases store_eq t vertices with ⟨batch, hState⟩
  rw [hState]
  rfl

/- Storing keeps the render state. -/
theorem renderState_store
    (t : Tracker β)
    (vertices : List Vertex) :
    (t.store vertices).state.renderState =
      t.renderState := by
  rcases store_eq t vertices with ⟨batch, hState⟩
  rw [hState]
  rfl

/- Stored vertices wait behind those that waited before. -/
theorem waiting_store
    {t : Tracker β}
    {vertices : List Vertex}
    (hSize : t.storage.size < 2 ^ 32)
    (hRoom :
      t.batch.last + vertices.length ≤ t.storage.size) :
    (t.store vertices).state.waiting =
      t.waiting ++ vertices := by
  have hOrder := t.batch.first_le_last
  rcases store_of_room hSize hRoom with
    ⟨grown, hStored, hFirst, hLast⟩
  have hFront :
      (t.storage.toList.take t.batch.last).length =
        t.batch.last := by
    rw [List.length_take, Array.length_toList]
    omega
  have hLength :
      ((t.storage.toList.take t.batch.last).drop
          t.batch.first ++ vertices).length =
        t.batch.last + vertices.length -
          t.batch.first := by
    rw [List.length_append, List.length_drop, hFront]
    omega
  rw [hStored]
  simp only [waiting, Outcome.done, copied, hFirst, hLast,
    Array.toList_extract, List.extract_eq_take_drop]
  rw [toList_overwrite _ _ _ hRoom, List.append_assoc,
    List.drop_append_of_le_length (by omega),
    ← List.append_assoc, ← hLength, List.take_left,
    List.drop_take]

/- Storing with room keeps the batch in the storage. -/
theorem inStorage_store
    {t : Tracker β}
    {vertices : List Vertex}
    (hSize : t.storage.size < 2 ^ 32)
    (hRoom :
      t.batch.last + vertices.length ≤ t.storage.size) :
    (t.store vertices).state.InStorage where
  last_le := by
    rcases store_of_room hSize hRoom with
      ⟨grown, hStored, -, hLast⟩
    rw [size_store, hStored]
    exact Nat.le_trans (Nat.le_of_eq hLast) hRoom
  size_lt := by
    rw [size_store]
    exact hSize

/- Closing the batch keeps it in the storage. -/
theorem inStorage_close
    {t u : Tracker β}
    (hStorage : u.storage = t.storage)
    (hBatch : u.batch = t.batch.close)
    (hRange : t.InStorage) :
    u.InStorage where
  last_le := by
    rw [hStorage, hBatch]
    exact hRange.last_le
  size_lt := by
    rw [hStorage]
    exact hRange.size_lt

/- Having room is a bound on the end of the batch. -/
theorem hasRoom_iff
    (t : Tracker β)
    (vertices : List Vertex) :
    t.hasRoom vertices = true ↔
      t.batch.last + vertices.length ≤ t.storage.size := by
  simp [hasRoom]

/- A frame keeps the size of the vertex storage. -/
theorem flushFrame_storage
    {t : Tracker β}
    (hFault : t.flush.fault = none) :
    t.flushFrame.state.storage = t.storage := by
  rw [flushFrame_state hFault]
  exact (flush_keeps t).1

/- A frame keeps the render state. -/
theorem flushFrame_renderState
    {t : Tracker β}
    (hFault : t.flush.fault = none) :
    t.flushFrame.state.renderState = t.renderState := by
  rw [flushFrame_state hFault]
  exact (flush_keeps t).2

/- A frame starts over at the beginning of the storage. -/
theorem flushFrame_batch
    {t : Tracker β}
    (hFault : t.flush.fault = none) :
    t.flushFrame.state.batch = Batch.fresh := by
  rw [flushFrame_state hFault]
  rfl

/- In a new frame, all that the storage holds has room. -/
theorem room_flushFrame
    {t : Tracker β}
    (hFlush : t.flush.fault = none)
    {vertices : List Vertex}
    (hFits : vertices.length ≤ t.storage.size) :
    t.flushFrame.state.batch.last + vertices.length ≤
      t.flushFrame.state.storage.size := by
  have hFirst : Batch.fresh.last = 0 := rfl
  rw [flushFrame_batch hFlush, flushFrame_storage hFlush,
    hFirst, Nat.zero_add]
  exact hFits

/- An append that fits stores its vertices. -/
theorem append_of_room
    {t : Tracker β}
    {vertices : List Vertex}
    (hRoom :
      t.batch.last + vertices.length ≤ t.storage.size) :
    t.append vertices = t.store vertices := by
  rw [append, if_pos ((hasRoom_iff t vertices).mpr hRoom)]

/- An append that does not fit begins with a frame. -/
theorem append_of_full
    {t : Tracker β}
    {vertices : List Vertex}
    (hFull :
      t.storage.size < t.batch.last + vertices.length) :
    t.append vertices =
      (t.flushFrame.andThen fun u =>
        if vertices.length ≤ u.storage.size then
          u.store vertices
        else
          .stopped u
            (.appendTooLarge vertices.length
              u.storage.size)).after [fullMessage] := by
  rw [append, if_neg]
  rw [hasRoom_iff]
  exact Nat.not_le.mpr hFull

/-
  An append without fault stores its vertices behind the
  open batch, or at the start of the next frame.
-/
theorem append_cases
    {t : Tracker β}
    {vertices : List Vertex}
    (hFault : (t.append vertices).fault = none) :
    (t.batch.last + vertices.length ≤ t.storage.size ∧
        (t.append vertices).state =
          (t.store vertices).state) ∨
      (t.storage.size < t.batch.last + vertices.length ∧
        t.flush.fault = none ∧
        vertices.length ≤ t.storage.size ∧
        (t.append vertices).state =
          (t.flushFrame.state.store vertices).state) := by
  unfold append at hFault ⊢
  split
  · rename_i hRoom
    exact Or.inl ⟨(hasRoom_iff t vertices).mp hRoom, rfl⟩
  · rename_i hFull
    rw [if_neg hFull, Outcome.fault_after,
      Outcome.andThen_fault_eq_none, flushFrame_fault]
      at hFault
    rcases hFault with ⟨hFlush, hStored⟩
    have hFrame := (flushFrame_fault t).mpr hFlush
    by_cases hFits :
        vertices.length ≤ t.flushFrame.state.storage.size
    · have hSize := hFits
      rw [flushFrame_storage hFlush] at hSize
      rw [hasRoom_iff, Nat.not_le] at hFull
      refine Or.inr ⟨hFull, hFlush, hSize, ?_⟩
      rw [Outcome.state_after,
        Outcome.state_andThen hFrame, if_pos hFits]
    · rw [if_neg hFits] at hStored
      cases hStored

/-
  An append stores all its vertices where they have room, or
  none.  So it keeps, fault or not, what its frame keeps and
  what such a store keeps.
-/
theorem append_keeps
    {Property : Tracker β → Prop}
    {t : Tracker β}
    {vertices : List Vertex}
    (hHolds : Property t)
    (hFrame : Property t.flushFrame.state)
    (hStore :
      ∀ u, Property u →
        u.batch.last + vertices.length ≤ u.storage.size →
          Property (u.store vertices).state) :
    Property (t.append vertices).state := by
  rcases Nat.lt_or_ge t.storage.size
      (t.batch.last + vertices.length) with hFull | hRoom
  · rw [append_of_full hFull, Outcome.state_after]
    cases hFault : t.flushFrame.fault with
    | none =>
        have hFlush := (flushFrame_fault t).mp hFault
        rw [Outcome.state_andThen hFault]
        split
        · rename_i hFits
          rw [flushFrame_storage hFlush] at hFits
          exact hStore _ hFrame (room_flushFrame hFlush hFits)
        · exact hFrame
    | some fault =>
        rw [Outcome.andThen_of_fault hFault]
        exact hFrame
  · rw [append_of_room hRoom]
    exact hStore t hHolds hRoom

------------------------------------------------------------
-- Requests
------------------------------------------------------------

/- Storing with room faults when words do not count that. -/
theorem fault_of_store
    {t : Tracker β}
    {vertices : List Vertex}
    {fault : Fault}
    (hRoom :
      t.batch.last + vertices.length ≤ t.storage.size)
    (hFault : (t.store vertices).fault = some fault) :
    fault = .wordOverflow ∧ 2 ^ 32 ≤ t.storage.size := by
  constructor
  · unfold store at hFault
    split at hFault
    · cases hFault
    · cases hFault
      rfl
  · rcases Nat.lt_or_ge t.storage.size (2 ^ 32) with
      hSize | hSize
    · rw [fault_store hSize hRoom] at hFault
      cases hFault
    · exact hSize

/-
  An append faults as the flush in front of it, by its size,
  or in a storage that words do not count.
-/
theorem fault_of_append
    {t : Tracker β}
    {vertices : List Vertex}
    {fault : Fault}
    (hFault : (t.append vertices).fault = some fault) :
    t.flush.fault = some fault ∨
      (fault = .wordOverflow ∧ 2 ^ 32 ≤ t.storage.size) ∨
      ∃ count capacity,
        fault = .appendTooLarge count capacity := by
  rcases Nat.lt_or_ge t.storage.size
      (t.batch.last + vertices.length) with hFull | hRoom
  · rw [append_of_full hFull, Outcome.fault_after] at hFault
    cases hFrame : t.flushFrame.fault with
    | none =>
        have hFlush := (flushFrame_fault t).mp hFrame
        have hSame := flushFrame_storage hFlush
        rw [Outcome.fault_andThen hFrame, hSame] at hFault
        split at hFault
        · rename_i hFits
          have hStored :=
            fault_of_store (room_flushFrame hFlush hFits)
              hFault
          rw [hSame] at hStored
          exact Or.inr (Or.inl hStored)
        · cases hFault
          exact Or.inr (Or.inr ⟨_, _, rfl⟩)
    | some found =>
        rw [Outcome.andThen_of_fault hFrame,
          fault_flushFrame] at hFault
        exact Or.inl hFault
  · rw [append_of_room hRoom] at hFault
    exact Or.inr (Or.inl (fault_of_store hRoom hFault))

/- Only a flush can fault, or an append. -/
theorem fault_of_perform
    {t : Tracker β}
    {request : Request}
    {fault : Fault}
    (hFault : (t.perform request).fault = some fault) :
    t.flush.fault = some fault ∨
      (fault = .wordOverflow ∧ 2 ^ 32 ≤ t.storage.size) ∨
      ∃ count capacity,
        fault = .appendTooLarge count capacity := by
  cases request with
  | change wanted =>
      simp only [perform] at hFault
      by_cases hForce : t.InForce wanted
      · rw [change_of_inForce hForce] at hFault
        cases hFault
      · rw [change_fault hForce] at hFault
        exact Or.inl hFault
  | append added => exact fault_of_append hFault
  | flush => exact Or.inl hFault
  | beforeFrame => exact Or.inl hFault
  | afterFrame => cases hFault
  | flushFrame =>
      exact Or.inl ((fault_flushFrame t).symm.trans hFault)

/- A request without fault keeps the size of the storage. -/
theorem perform_size
    {t : Tracker β}
    {request : Request}
    (hFault : (t.perform request).fault = none) :
    (t.perform request).state.storage.size =
      t.storage.size := by
  have hFlush := congrArg Array.size (flush_keeps t).1
  cases request with
  | change wanted =>
      rcases change_cases hFault with
        ⟨hForce, hState⟩ | ⟨hFlushed, hState⟩
      · rw [perform, hState]
      · rw [perform, hState]
        exact hFlush
  | append added =>
      rcases append_cases hFault with
        ⟨hRoom, hState⟩ | ⟨hFull, hFlushed, hFits, hState⟩
      · rw [perform, hState, size_store]
      · rw [perform, hState, size_store,
          flushFrame_storage hFlushed]
  | flush => exact hFlush
  | beforeFrame => exact hFlush
  | afterFrame => rfl
  | flushFrame =>
      exact congrArg Array.size
        (flushFrame_storage ((flushFrame_fault t).mp hFault))

end Tracker

end PagedRaster
