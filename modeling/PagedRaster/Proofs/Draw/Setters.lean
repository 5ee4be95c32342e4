import PagedRaster.Proofs.Draw.Atomicity

/-
  This file proves the law of the setters.  A setter of what
  is in force does nothing.  Any other one draws the open
  batch, whole and under the render state from before, and
  then changes the fields that are its own.  So setters of
  what is in force may be added to a run, or left out of it,
  and no call to the backend and no state shows it.

  Key definitions include:
    * `Tracker.DrawsOnce`, `Tracker.SetsByLaw`
    * `Tracker.Padded`, `Tracker.SameRun`

  Key theorems include:
    * `Tracker.change_drawsOnce`
    * `Tracker.change_setsByLaw`
    * `Tracker.attempt_padded`, `Tracker.run_padded`
    * `Tracker.setters_lawful`
-/

namespace PagedRaster

namespace Tracker

variable {β P R : Type}
variable [Backend β P R]

------------------------------------------------------------
-- One Draw
------------------------------------------------------------

/- A change calls the backend for its flush alone. -/
theorem change_backend
    {t : Tracker β}
    {change : Change}
    (hChanges : ¬t.InForce change) :
    (t.change change).state.backend =
      t.flush.state.backend := by
  by_cases hFault : t.flush.fault = none
  · rw [(change_of_flush hChanges hFault).2]
    rfl
  · rw [change_of_flush_fault hChanges hFault]

/- Whole triangles are flushed if their draw is taken. -/
theorem flush_fault_of_waiting
    {t : Tracker β}
    (hWhole : t.pending % 3 = 0) :
    t.flush.fault = none ↔ t.TakesDraw := by
  constructor
  · intro hFault
    exact takesDraw_of_flush fun _ => hFault
  · intro hTakes
    by_contra hFault
    exact ((flush_fault_iff hTakes).mp hFault).2 hWhole

/- A draw that the backend refuses leaves the batch open. -/
theorem record_batch_of_fault
    {t : Tracker β}
    {program : P}
    {resources : R}
    (hFault : (t.record program resources).fault ≠ none) :
    (t.record program resources).state.batch = t.batch := by
  unfold record at hFault ⊢
  split
  · rename_i hRecorded
    rw [hRecorded] at hFault
    exact absurd rfl hFault
  · rfl

/- A flush that stops leaves the batch open. -/
theorem flush_batch_of_fault
    {t : Tracker β}
    (hFault : t.flush.fault ≠ none) :
    t.flush.state.batch = t.batch := by
  rcases flush_cases t with
    ⟨messages, hFlush⟩ | hFlush | hFlush
  · rw [hFlush, Outcome.fault_after] at hFault
    rw [hFlush, Outcome.state_after,
      record_batch_of_fault hFault,
      (ready_sameDrawing t).batch]
  · rw [hFlush]
    rfl
  · rw [hFlush]
    rfl

/- The flush of a tracker under observation is its own. -/
theorem flush_observe
    (t : Tracker β) :
    t.observe.flush.map unobserved = t.flush :=
  flush_forget Observed.wraps t.observe

/-
  What a setter leaves that drew the open batch: the batch
  is closed and counted, the render state is the changed
  one, and the vertex storage is as it was.
-/
structure SetAfterDraw
    (t : Tracker β)
    (change : Change)
    (u : Tracker β) : Prop where
  batch : u.batch = t.batch.close
  renderState : u.renderState = change.apply t.renderState
  storage : u.storage = t.storage
  draws : u.stats.draws = t.stats.draws + 1
  vertices :
    u.stats.vertices =
      t.stats.vertices + t.pending.toNat
  frames : u.stats.frames = t.stats.frames

/-
  A setter draws once.  The backend is handed the whole open
  batch under the render state from before, and no frame.
  If it takes the draw, as it does unless the setter faults,
  then the change is made; else it is not, and the batch
  stays open.
-/
structure DrawsOnce
    (t : Tracker β)
    (change : Change) : Prop where
  passes :
    ∃ program resources,
      (t.observe.change change).state.backend.passes =
        [t.pass program resources]
  submissions :
    (t.observe.change change).state.backend.submissions = 0
  fault_iff :
    (t.change change).fault = none ↔ t.TakesDraw
  taken :
    t.TakesDraw →
      t.SetAfterDraw change (t.change change).state
  refused :
    ¬t.TakesDraw →
      (t.change change).state.batch = t.batch ∧
        (t.change change).state.renderState = t.renderState

/- A setter that flushes whole triangles draws once. -/
theorem change_drawsOnce
    {t : Tracker β}
    {change : Change}
    (hChanges : ¬t.InForce change)
    (hWaiting : t.batch.isEmpty = false)
    (hWhole : t.pending % 3 = 0) :
    t.DrawsOnce change := by
  have hObserved : ¬t.observe.InForce change := hChanges
  have hTaken := flush_fault_of_waiting hWhole
  have hRecords :
      (∃ program resources,
        t.observe.flush.state.backend.passes =
          [t.pass program resources]) ∧
        t.observe.flush.state.backend.submissions = 0 :=
    flush_calls hWaiting hWhole
  refine ⟨?_, ?_, ?_, ?_, ?_⟩
  · rw [change_backend hObserved]
    exact hRecords.1
  · rw [change_backend hObserved]
    exact hRecords.2
  · rw [change_fault hChanges]
    exact hTaken
  · intro hTakes
    have hFault := hTaken.mpr hTakes
    -- The draw is known of the observed tracker; the flush
    -- itself is what it leaves without the calls.
    have hFlush := flush_observe t
    have hDrew : Drew t.observe t.observe.flush.state := by
      apply flush_drew hWaiting
      rw [← hFault, ← hFlush, Outcome.fault_map]
    rw [(change_of_flush hChanges hFault).2, ← hFlush]
    exact
      { batch := hDrew.batch
        renderState := rfl
        storage := hDrew.storage
        draws := hDrew.draws
        vertices := hDrew.vertices
        frames := hDrew.frames }
  · intro hRefused
    have hStopped := mt hTaken.mp hRefused
    rw [change_of_flush_fault hChanges hStopped]
    exact ⟨flush_batch_of_fault hStopped, (flush_keeps t).2⟩

/-
  The law of a setter.  If it sets what is in force, then
  nothing happens, down to messages and backend.  Else its
  fields are changed: at once and without any call to the
  backend if no vertices wait, and after one draw of them
  if they are whole triangles.
-/
structure SetsByLaw
    (t : Tracker β)
    (change : Change) : Prop where
  inForce :
    t.InForce change →
      t.change change = .done t ∧
        t.observe.change change = .done t.observe
  empty :
    ¬t.InForce change →
      t.batch.isEmpty = true →
        let state := change.apply t.renderState
        t.change change = .done (t.withRenderState state) ∧
          t.observe.change change =
            .done (t.observe.withRenderState state)
  waiting :
    ¬t.InForce change →
      t.batch.isEmpty = false →
        t.pending % 3 = 0 →
          t.DrawsOnce change

/- Every setter keeps to the law, in every state. -/
theorem change_setsByLaw
    (t : Tracker β)
    (change : Change) :
    t.SetsByLaw change := by
  refine ⟨?_, ?_, change_drawsOnce⟩
  · intro hForce
    have hObserved : t.observe.InForce change := hForce
    exact ⟨change_of_inForce hForce,
      change_of_inForce hObserved⟩
  · intro hChanges hEmpty state
    have hObserved : ¬t.observe.InForce change := hChanges
    have hNone : t.observe.flush = .done t.observe :=
      flush_of_isEmpty hEmpty
    rw [change_of_not_inForce hChanges,
      change_of_not_inForce hObserved,
      flush_of_isEmpty hEmpty, hNone,
      Outcome.done_andThen, Outcome.done_andThen]
    exact ⟨rfl, rfl⟩

------------------------------------------------------------
-- Setters Without Effect
------------------------------------------------------------

/-
  The second list of moves adds to the first, which starts
  in a given state, setters of what is in force where they
  are added.
-/
inductive Padded :
    Tracker β → List (Move β) → List (Move β) → Prop where
  | nil
      (t : Tracker β) :
      Padded t [] []
  | keep
      {t : Tracker β}
      {moves padded : List (Move β)}
      (move : Move β) :
      Padded (t.move move).state moves padded →
        Padded t (move :: moves) (move :: padded)
  | add
      {t : Tracker β}
      {moves padded : List (Move β)}
      {change : Change} :
      t.InForce change →
        Padded t moves padded →
          Padded t moves
            (.request (.change change) :: padded)

/- Added setters do not change what moves lead to. -/
theorem attempt_padded
    {t : Tracker β}
    {moves padded : List (Move β)}
    (hPadded : t.Padded moves padded) :
    t.attempt padded = t.attempt moves := by
  induction hPadded with
  | nil t => rfl
  | keep move hRest ih => exact ih
  | @add t moves padded change hForce hRest ih =>
      have hStay :
          (t.move (.request (.change change))).state = t :=
        congrArg Outcome.state (change_of_inForce hForce)
      simp only [attempt, List.foldl_cons, hStay]
      exact ih

/- Nor do they change what a run of requests leaves. -/
theorem run_padded
    {t : Tracker β}
    {requests padded : List Request}
    (hPadded :
      t.Padded (requests.map Move.request)
        (padded.map Move.request)) :
    t.run padded = t.run requests := by
  generalize hMoves :
    (requests.map Move.request : List (Move β)) = moves
    at hPadded
  generalize hAdded :
    (padded.map Move.request : List (Move β)) = added
    at hPadded
  induction hPadded generalizing requests padded with
  | nil t =>
      rw [List.map_eq_nil_iff] at hMoves hAdded
      rw [hMoves, hAdded]
  | keep move hRest ih =>
      rcases List.map_eq_cons_iff.mp hMoves with
        ⟨request, rest, rfl, rfl, hOld⟩
      rcases List.map_eq_cons_iff.mp hAdded with
        ⟨same, more, rfl, hSame, hNew⟩
      cases hSame
      exact Outcome.andThen_congr (ih hOld hNew)
  | add hForce hRest ih =>
      rcases List.map_eq_cons_iff.mp hAdded with
        ⟨setter, more, rfl, hSetter, hNew⟩
      cases hSetter
      rw [run, perform, change_of_inForce hForce,
        Outcome.done_andThen]
      exact ih hMoves hNew

/- Setters are added under observation as well. -/
theorem Padded.observed
    {t : Tracker (Observed β)}
    {moves padded : List (Move β)}
    (hPadded : t.unobserved.Padded moves padded) :
    t.Padded (moves.map Move.observed)
      (padded.map Move.observed) := by
  generalize hPlain : t.unobserved = plain at hPadded
  induction hPadded generalizing t with
  | nil plain => exact .nil t
  | keep move hRest ih =>
      subst hPlain
      exact .keep move.observed (ih (move_unobserved t move))
  | add hForce hRest ih =>
      subst hPlain
      exact .add hForce (ih rfl)

/-
  Two lists of moves do the same from a given state: they
  lead to the same state with the same calls to the backend
  on the way.
-/
structure SameRun
    (t : Tracker β)
    (moves other : List (Move β)) : Prop where
  state : t.attempt other = t.attempt moves
  calls :
    t.observe.attempt (other.map Move.observed) =
      t.observe.attempt (moves.map Move.observed)

/- Added setters make no difference. -/
theorem Padded.sameRun
    {t : Tracker β}
    {moves padded : List (Move β)}
    (hPadded : t.Padded moves padded) :
    t.SameRun moves padded where
  state := attempt_padded hPadded
  calls := by
    have hSame : t.observe.unobserved.Padded moves padded :=
      hPadded
    exact attempt_padded hSame.observed

/- Nor to a run of requests that is observed. -/
theorem run_observe_padded
    {t : Tracker β}
    {requests padded : List Request}
    (hPadded :
      t.Padded (requests.map Move.request)
        (padded.map Move.request)) :
    t.observe.run padded = t.observe.run requests := by
  have hSame :
      t.observe.unobserved.Padded
        (requests.map Move.request)
        (padded.map Move.request) :=
    hPadded
  have hObserved := hSame.observed
  rw [List.map_map, List.map_map] at hObserved
  exact run_padded hObserved

------------------------------------------------------------
-- Lawful Setters
------------------------------------------------------------

/-
  Setters are lawful.  Over any backend and any storage
  whose slots a word counts, whatever the owner has done
  before: the open batch lies in the storage, every setter
  keeps to the law, and setters of what is in force make no
  difference to moves or runs that go on from there, nor to
  the calls that these make.  Over a canvas no setter faults
  that finds whole triangles.
-/
theorem setters_lawful
    (backend : β)
    (storage : Array Vertex)
    (hSize : storage.size < 2 ^ 32)
    (moves : List (Move β)) :
    let t := (fresh backend storage).attempt moves
    t.InStorage ∧
      t.waiting.length = t.pending.toNat ∧
      (∀ change, t.SetsByLaw change) ∧
      (∀ later padded,
        t.Padded later padded → t.SameRun later padded) ∧
      (∀ requests padded : List Request,
        t.Padded (requests.map Move.request)
            (padded.map Move.request) →
          t.run padded = t.run requests ∧
            t.observe.run padded =
              t.observe.run requests) ∧
      ∀ (canvas : Canvas) (moves : List (Move Canvas))
          change,
        let u := (fresh canvas storage).attempt moves
        u.pending % 3 = 0 →
          (u.change change).fault = none := by
  intro t
  have hRange : t.InStorage :=
    attempt_inStorage ⟨Nat.zero_le _, hSize⟩ moves
  refine
    ⟨hRange, length_waiting hRange, change_setsByLaw t,
      ?_, ?_, ?_⟩
  · intro later padded hPadded
    exact hPadded.sameRun
  · intro requests padded hPadded
    exact ⟨run_padded hPadded, run_observe_padded hPadded⟩
  · intro canvas moves change u hWhole
    have hTakes : u.TakesDraw :=
      attempt_canvas_takesDraw canvas hSize moves
    by_cases hForce : u.InForce change
    · rw [change_of_inForce hForce]
      rfl
    · rw [change_fault hForce]
      exact (flush_fault_of_waiting hWhole).mpr hTakes

/-
  With three vertices waiting, a new fixed factor draws them
  once.  Setting it again and setting the reference that is
  in force make no difference.
-/
theorem setters_lawful_fixedAlpha :
    let t := journalWith 3
    let change := Change.fixedAlpha 7
    let moves : List (Move Journal) :=
      [.request (.change change), .request .flushFrame]
    let padded : List (Move Journal) :=
      [.request (.change (.alphaReference 0)),
        .request (.change change),
        .request (.change change),
        .request .flushFrame]
    t.waiting.map Vertex.z = [1, 2, 3] ∧
      ¬t.InForce change ∧
      t.TakesDraw ∧
      t.DrawsOnce change ∧
      t.SetAfterDraw change (t.change change).state ∧
      t.Padded moves padded ∧
      t.attempt padded = t.attempt moves ∧
      (t.attempt padded).stats.draws = 1 := by
  intro t change moves padded
  have hChanges : ¬t.InForce change := by decide +kernel
  have hTakes : t.TakesDraw := fun _ _ => rfl
  have hPadded : t.Padded moves padded :=
    .add (by decide +kernel) (.keep _
      (.add (by decide +kernel) (.keep _ (.nil _))))
  rcases setters_lawful ({} : Journal)
      (Array.replicate 4 Vertex.zero) (by decide)
      [.request (.append (numbered 1 3))] with
    ⟨-, -, hLaw, hRuns, -⟩
  have hDraws : t.DrawsOnce change :=
    (hLaw change).waiting hChanges (by decide +kernel)
      (by decide +kernel)
  have hSame : t.attempt padded = t.attempt moves :=
    (hRuns moves padded hPadded).state
  refine
    ⟨by decide +kernel, hChanges, hTakes, hDraws,
      hDraws.taken hTakes, hPadded, hSame, ?_⟩
  rw [hSame]
  decide +kernel

end Tracker

end PagedRaster
