import PagedRaster.Proofs.Draw.Coherence

/-
  This file proves that faults are atomic.  A request faults
  exactly if it would draw a batch that ends inside of a
  triangle, and then nothing has happened, or if it hands
  over more vertices than the storage can hold, and then a
  frame was submitted and nothing else has happened.

  Key definitions include:
    * `Tracker.Flushes`
    * `Tracker.CutsTriangle`, `Tracker.Oversized`
    * `Tracker.TakesDraw`
    * `Tracker.FaultsAtomically`

  Key theorems include:
    * `Tracker.flush_fault_iff`
    * `Tracker.perform_of_flush_fault`
    * `Tracker.perform_oversized`
    * `Tracker.faults_atomic`
    * `Tracker.attempt_canvas_takesDraw`
-/

namespace PagedRaster

namespace Tracker

variable {β P R : Type}
variable [Backend β P R]

------------------------------------------------------------
-- Reasons of Faults
------------------------------------------------------------

/-
  A request flushes the open batch: a change that changes
  something, an append that does not fit behind the batch,
  and whatever flushes by its name.
-/
def Flushes
    (t : Tracker β) : Request → Prop
  | .change wanted =>
      wanted.apply t.renderState ≠ t.renderState
  | .append added =>
      t.storage.size < t.batch.last + added.length
  | .flush => True
  | .beforeFrame => True
  | .afterFrame => False
  | .flushFrame => True

/- The open batch ends inside of a triangle. -/
def EndsInside
    (t : Tracker β) : Prop :=
  t.batch.isEmpty = false ∧ t.pending % 3 ≠ 0

/- A request flushes a batch that ends in a triangle. -/
def CutsTriangle
    (t : Tracker β)
    (request : Request) : Prop :=
  t.Flushes request ∧ t.EndsInside

/- A request hands over more than the storage can hold. -/
def Oversized
    (t : Tracker β)
    (request : Request) : Prop :=
  t.storage.size < request.vertices.length

/-
  The backend takes the draw that a flush of the open batch
  hands over, if it hands one over.
-/
def TakesDraw
    (t : Tracker β) : Prop :=
  t.batch.isEmpty = false →
    t.pending % 3 = 0 →
      (Backend.recordDraw t.ready.backend
        (t.ready.pass t.prepareProgram.value.1
          t.prepareProgram.value.2.prepareResources.value.1)
      ).fault = none

------------------------------------------------------------
-- Flushes
------------------------------------------------------------

/- A batch that ends inside of a triangle stops a flush. -/
theorem flush_of_endsInside
    {t : Tracker β}
    (hEnds : t.EndsInside) :
    t.flush = .stopped t (.partialBatch t.pending) := by
  rw [flush, if_neg (by simp [hEnds.1]),
    if_pos (by exact hEnds.2)]
  rfl

/- Nothing else stops a flush whose draw is taken. -/
theorem flush_fault_iff
    {t : Tracker β}
    (hTakes : t.TakesDraw) :
    t.flush.fault ≠ none ↔ t.EndsInside := by
  constructor
  · intro hFault
    cases hEmpty : t.batch.isEmpty with
    | true =>
        rw [flush_of_isEmpty hEmpty] at hFault
        exact absurd rfl hFault
    | false =>
        refine ⟨hEmpty, fun hWhole => hFault ?_⟩
        rcases flush_of_waiting hEmpty hWhole with
          ⟨messages, hFlush⟩
        rw [hFlush, Outcome.fault_after, record_fault]
        exact hTakes hEmpty hWhole
  · intro hEnds
    rw [flush_of_endsInside hEnds]
    nofun

------------------------------------------------------------
-- Requests
------------------------------------------------------------

/- A request that flushes stops where its flush does. -/
theorem perform_of_flush_fault
    {t : Tracker β}
    {request : Request}
    {fault : Fault}
    (hFlushes : t.Flushes request)
    (hFault : t.flush.fault = some fault) :
    (t.perform request).fault = some fault ∧
      (t.perform request).state = t.flush.state := by
  have hFrame := flushFrame_of_fault hFault
  cases request with
  | change wanted =>
      simp only [perform]
      rw [change_eq, if_neg hFlushes,
        Outcome.andThen_of_fault hFault]
      exact ⟨hFault, rfl⟩
  | append added =>
      have hStopped : t.flushFrame.fault = some fault := by
        rw [hFrame]
        exact hFault
      simp only [perform]
      rw [append_of_full hFlushes, Outcome.fault_after,
        Outcome.state_after,
        Outcome.andThen_of_fault hStopped, hFrame]
      exact ⟨hFault, rfl⟩
  | flush => exact ⟨hFault, rfl⟩
  | beforeFrame => exact ⟨hFault, rfl⟩
  | afterFrame => exact absurd hFlushes not_false
  | flushFrame =>
      simp only [perform]
      rw [hFrame]
      exact ⟨hFault, rfl⟩

/- Only an append can be too large. -/
theorem Oversized.eq_append
    {t : Tracker β}
    {request : Request}
    (hOversized : t.Oversized request) :
    ∃ added,
      request = .append added ∧
        t.storage.size < added.length := by
  cases request with
  | append added => exact ⟨added, rfl, hOversized⟩
  | _ => exact absurd hOversized (Nat.not_lt_zero _)

/- What is too large does not fit behind the batch. -/
theorem Oversized.flushes
    {t : Tracker β}
    {request : Request}
    (hOversized : t.Oversized request) :
    t.Flushes request := by
  rcases hOversized.eq_append with ⟨added, rfl, hSize⟩
  exact Nat.lt_of_lt_of_le hSize (Nat.le_add_left _ _)

/- An append that no storage can hold ends with a frame. -/
theorem perform_oversized
    {t : Tracker β}
    {request : Request}
    (hFlush : t.flush.fault = none)
    (hOversized : t.Oversized request) :
    (t.perform request).fault =
        some
          (.appendTooLarge request.vertices.length
            t.storage.size) ∧
      (t.perform request).state = t.flushFrame.state := by
  have hFull := hOversized.flushes
  have hFrame := (flushFrame_fault t).mpr hFlush
  have hStorage := flushFrame_storage hFlush
  rcases hOversized.eq_append with ⟨added, rfl, hSize⟩
  have hRest :
      ¬added.length ≤ t.flushFrame.state.storage.size := by
    rw [hStorage]
    exact Nat.not_le.mpr hSize
  simp only [perform, Request.vertices]
  rw [append_of_full hFull, Outcome.fault_after,
    Outcome.state_after, Outcome.fault_andThen hFrame,
    Outcome.state_andThen hFrame, if_neg hRest, hStorage]
  exact ⟨rfl, rfl⟩

/-
  There is no third reason: a request whose flush, if it has
  one, goes through, and that is not too large, goes
  through.
-/
theorem perform_fault_eq_none
    {t : Tracker β}
    {request : Request}
    (hSize : t.storage.size < 2 ^ 32)
    (hFlush : t.Flushes request → t.flush.fault = none)
    (hHeld : ¬t.Oversized request) :
    (t.perform request).fault = none := by
  cases request with
  | change wanted =>
      simp only [perform]
      by_cases hForce : t.InForce wanted
      · rw [change_of_inForce hForce]
        rfl
      · rw [change_fault hForce]
        exact hFlush hForce
  | append added =>
      have hFits : added.length ≤ t.storage.size :=
        Nat.not_lt.mp hHeld
      simp only [perform]
      rcases Nat.lt_or_ge t.storage.size
          (t.batch.last + added.length) with hFull | hRoom
      · have hFlushed := hFlush hFull
        have hFrame := (flushFrame_fault t).mpr hFlushed
        have hSame := flushFrame_storage hFlushed
        have hRoom := room_flushFrame hFlushed hFits
        rw [append_of_full hFull, Outcome.fault_after,
          Outcome.fault_andThen hFrame, hSame,
          if_pos hFits]
        apply fault_store _ hRoom
        rw [hSame]
        exact hSize
      · rw [append_of_room hRoom]
        exact fault_store hSize hRoom
  | flush => exact hFlush trivial
  | beforeFrame => exact hFlush trivial
  | afterFrame => rfl
  | flushFrame =>
      exact (flushFrame_fault t).mpr (hFlush trivial)

------------------------------------------------------------
-- Atomic Faults
------------------------------------------------------------

/-
  A request faults for one of two reasons.  If it would cut
  a triangle, then nothing has happened and no call was made
  to the backend.  If it is too large, then what happened is
  exactly a frame, down to the calls to the backend, and no
  slot of the storage was written.
-/
structure FaultsAtomically
    (t : Tracker β)
    (request : Request) : Prop where
  fault_iff :
    (t.perform request).fault ≠ none ↔
      t.CutsTriangle request ∨ t.Oversized request
  cut :
    t.CutsTriangle request →
      (t.perform request).fault =
          some (.partialBatch t.pending) ∧
        (t.perform request).state = t ∧
        (t.observe.perform request).state = t.observe
  oversized :
    ¬t.CutsTriangle request →
      t.Oversized request →
        (t.perform request).fault =
            some
              (.appendTooLarge request.vertices.length
                t.storage.size) ∧
          t.flushFrame.fault = none ∧
          (t.perform request).state = t.flushFrame.state ∧
          (t.perform request).state.storage = t.storage ∧
          (t.observe.perform request).state =
            t.observe.flushFrame.state

/- A request that would cut a triangle does nothing. -/
theorem perform_of_cutsTriangle
    {t : Tracker β}
    {request : Request}
    (hCuts : t.CutsTriangle request) :
    (t.perform request).fault =
        some (.partialBatch t.pending) ∧
      (t.perform request).state = t := by
  have hFlush := flush_of_endsInside hCuts.2
  have hFault :
      t.flush.fault = some (.partialBatch t.pending) := by
    rw [hFlush]
    rfl
  have hStopped := perform_of_flush_fault hCuts.1 hFault
  rw [hFlush] at hStopped
  exact hStopped

/-
  Faults are atomic.  For every tracker, reachable or not,
  over a storage whose slots a word counts, and every
  request: if the backend takes the draw that it is handed,
  then the request faults only for its two reasons, and it
  leaves behind what belongs to them.
-/
theorem faults_atomic
    (t : Tracker β)
    (request : Request)
    (hSize : t.storage.size < 2 ^ 32)
    (hTakes : t.TakesDraw) :
    t.FaultsAtomically request := by
  have hFlush :
      ¬t.CutsTriangle request →
        t.Flushes request → t.flush.fault = none := by
    intro hWhole hFlushes
    by_contra hFault
    exact hWhole
      ⟨hFlushes, (flush_fault_iff hTakes).mp hFault⟩
  refine ⟨⟨?_, ?_⟩, ?_, ?_⟩
  · -- Without a reason the flush, if any, goes through.
    intro hFault
    by_contra hReasons
    rw [not_or] at hReasons
    exact hFault
      (perform_fault_eq_none hSize (hFlush hReasons.1)
        hReasons.2)
  · intro hReasons
    by_cases hCuts : t.CutsTriangle request
    · rw [(perform_of_cutsTriangle hCuts).1]
      nofun
    · have hOversized := hReasons.resolve_left hCuts
      have hFlushed := hFlush hCuts hOversized.flushes
      rw [(perform_oversized hFlushed hOversized).1]
      nofun
  · intro hCuts
    have hObserved : t.observe.CutsTriangle request := hCuts
    rcases perform_of_cutsTriangle hCuts with
      ⟨hFault, hState⟩
    exact ⟨hFault, hState,
      (perform_of_cutsTriangle hObserved).2⟩
  · intro hCuts hOversized
    have hFlushed := hFlush hCuts hOversized.flushes
    -- The calls are those of the observed tracker, whose
    -- flush goes through with this one.
    have hObserved : t.observe.flush.fault = none := by
      have hSame := flush_forget Observed.wraps t.observe
      rw [← hFlushed, ← Outcome.fault_map, hSame]
      rfl
    rcases perform_oversized hFlushed hOversized with
      ⟨hFault, hState⟩
    refine
      ⟨hFault, (flushFrame_fault t).mpr hFlushed, hState,
        ?_, (perform_oversized hObserved hOversized).2⟩
    rw [hState]
    exact flushFrame_storage hFlushed

/- A journal over a storage of four with some waiting. -/
def journalWith
    (count : Nat) : Tracker Journal :=
  (fresh {} (Array.replicate 4 Vertex.zero)).attempt
    [.request (.append (numbered 1 count))]

/- The depths in the storage of a tracker. -/
def storedDepths
    (t : Tracker β) : List UInt32 :=
  t.storage.toList.map Vertex.z

/-
  Over a storage of four vertices, a change stops at four
  waiting ones and does nothing.  At three waiting ones,
  five more submit a frame and stop, and none is stored.
-/
theorem faults_atomic_small :
    let change := Request.change (.fixedAlpha 7)
    let large := Request.append (numbered 5 5)
    (journalWith 4).storage.size < 2 ^ 32 ∧
      (journalWith 4).TakesDraw ∧
      (journalWith 4).CutsTriangle change ∧
      ((journalWith 4).perform change).fault =
        some (.partialBatch 4) ∧
      ((journalWith 4).perform change).state =
        journalWith 4 ∧
      (journalWith 3).storage.size < 2 ^ 32 ∧
      (journalWith 3).TakesDraw ∧
      ¬(journalWith 3).CutsTriangle large ∧
      (journalWith 3).Oversized large ∧
      ((journalWith 3).perform large).fault =
        some (.appendTooLarge 5 4) ∧
      ((journalWith 3).perform large).state =
        (journalWith 3).flushFrame.state ∧
      (journalWith 3).flushFrame.state.stats.draws = 1 ∧
      (journalWith 4).storedDepths = [1, 2, 3, 4] ∧
      ((journalWith 3).perform large).state.storedDepths =
        [1, 2, 3, 0] := by
  intro change large
  have hSizeFour :
      (journalWith 4).storage.size < 2 ^ 32 := by
    decide +kernel
  have hSizeThree :
      (journalWith 3).storage.size < 2 ^ 32 := by
    decide +kernel
  have hFour : (journalWith 4).TakesDraw := fun _ _ => rfl
  have hThree : (journalWith 3).TakesDraw := fun _ _ => rfl
  have hCuts : (journalWith 4).CutsTriangle change :=
    ⟨by change ¬_; decide +kernel, by decide +kernel,
      by decide +kernel⟩
  have hWhole : ¬(journalWith 3).CutsTriangle large :=
    fun hCuts => hCuts.2.2 (by decide +kernel)
  have hLarge : (journalWith 3).Oversized large := by
    change 4 < 5
    decide
  have hCut :=
    (faults_atomic _ change hSizeFour hFour).cut hCuts
  have hFault :=
    (faults_atomic _ large hSizeThree hThree).oversized
      hWhole hLarge
  exact
    ⟨hSizeFour, hFour, hCuts, hCut.1, hCut.2.1, hSizeThree,
      hThree, hWhole, hLarge, hFault.1, hFault.2.2.1,
      by decide +kernel, by decide +kernel,
      by decide +kernel⟩

------------------------------------------------------------
-- Canvases
------------------------------------------------------------

/- A flush without fault has its draw taken. -/
theorem takesDraw_of_flush
    {t : Tracker β}
    (hFlush : t.pending % 3 = 0 → t.flush.fault = none) :
    t.TakesDraw := by
  intro hEmpty hWhole
  rcases flush_of_waiting hEmpty hWhole with
    ⟨messages, hDrawn⟩
  have hFault := hFlush hWhole
  rw [hDrawn, Outcome.fault_after, record_fault] at hFault
  exact hFault

/- A flush keeps the end of the open batch. -/
theorem flush_last
    (t : Tracker β) :
    t.flush.state.batch.last = t.batch.last := by
  have hRecord (t : Tracker β) (program : P)
      (resources : R) :
      (t.record program resources).state.batch.last =
        t.batch.last := by
    unfold record
    split
    · rfl
    · rfl
  rcases flush_cases t with
    ⟨messages, hFlush⟩ | hFlush | hFlush
  · rw [hFlush, Outcome.state_after, hRecord,
      (ready_sameDrawing t).batch]
  · rw [hFlush]
    rfl
  · rw [hFlush]
    rfl

/- A flush keeps the batch in the storage. -/
theorem flush_inStorage
    {t : Tracker β}
    (hRange : t.InStorage) :
    t.flush.state.InStorage where
  last_le := by
    rw [flush_last, (flush_keeps t).1]
    exact hRange.last_le
  size_lt := by
    rw [(flush_keeps t).1]
    exact hRange.size_lt

/- A request keeps the batch in the storage. -/
theorem perform_inStorage
    {t : Tracker β}
    (hRange : t.InStorage)
    (request : Request) :
    (t.perform request).state.InStorage := by
  have hFrame : t.flushFrame.state.InStorage := by
    refine Outcome.andThen_keeps (flush_inStorage hRange) ?_
    intro u hFlushed
    exact ⟨Nat.zero_le _, hFlushed.size_lt⟩
  cases request with
  | change wanted =>
      exact change_keeps hRange (flush_inStorage hRange)
        (fun u state hKept => hKept.of_same rfl rfl) wanted
  | append added =>
      exact append_keeps hRange hFrame
        fun u hHolds hRoom =>
          inStorage_store hHolds.size_lt hRoom
  | flush => exact flush_inStorage hRange
  | beforeFrame => exact flush_inStorage hRange
  | afterFrame => exact ⟨Nat.zero_le _, hRange.size_lt⟩
  | flushFrame => exact hFrame

/- Moves keep the batch in the storage. -/
theorem attempt_inStorage
    {t : Tracker β}
    (hRange : t.InStorage)
    (moves : List (Move β)) :
    (t.attempt moves).InStorage := by
  induction moves generalizing t with
  | nil => exact hRange
  | cons first rest ih =>
      apply ih
      cases first with
      | request request =>
          exact perform_inStorage hRange request
      | edit change => exact hRange.of_same rfl rfl

/-
  A canvas takes every draw that it is handed, whatever its
  owner has done before.
-/
theorem attempt_canvas_takesDraw
    (canvas : Canvas)
    {storage : Array Vertex}
    (hSize : storage.size < 2 ^ 32)
    (moves : List (Move Canvas)) :
    ((fresh canvas storage).attempt moves).TakesDraw := by
  have hFresh := fresh_lags canvas hSize
  have hCaches := attempt_coherent hFresh.coherent moves
  have hRange := attempt_inStorage hFresh.inStorage moves
  apply takesDraw_of_flush
  intro hWhole
  exact (flush_canvas hCaches hRange hWhole).1

end Tracker

end PagedRaster
