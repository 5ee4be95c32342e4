import Mathlib.Logic.Relation
import PagedRaster.Proofs.Draw.Coherence

/-
  This file proves that the vertex storage of a frame is
  never overwritten while it is in use.  Draws lie in it one
  after the other without gaps, and vertices are only put
  behind the last draw, until the frame is submitted.  It
  takes runs that restart the storage by frames only.

  Key definitions include:
    * `Framed`
    * `Tiles`
    * `Tracker.FrameStep`
    * `Tracker.FrameIntact`
    * `Tracker.Extends`

  Key theorems include:
    * `Tracker.perform_frameSteps`
    * `Tracker.FrameStep.intact`
    * `Tracker.extends_of_frameSteps`
    * `Tracker.frameStorage_intact`
-/

namespace PagedRaster

------------------------------------------------------------
-- Framed Backends
------------------------------------------------------------

/-
  A backend with the draws that it took since the last
  submission, oldest first, and with the number of its
  submissions.  A draw that faults was not taken.
-/
structure Framed
    (β : Type)
    {P R : Type}
    [Backend β P R] where
  backend : β
  draws : List (Pass P R)
  submissions : Nat

namespace Framed

variable {β P R : Type}
variable [Backend β P R]

/- Write down a draw that the backend took. -/
def recordDraw
    (framed : Framed β)
    (pass : Pass P R) : Outcome (Framed β) :=
  match Backend.recordDraw framed.backend pass with
  | ⟨backend, messages, none⟩ =>
      ⟨⟨backend, framed.draws ++ [pass],
        framed.submissions⟩, messages, none⟩
  | ⟨backend, messages, some fault⟩ =>
      ⟨⟨backend, framed.draws, framed.submissions⟩,
        messages, some fault⟩

instance : Backend (Framed β) P R where
  interlock framed := Backend.interlock framed.backend
  makeProgram framed descriptor source :=
    let made :=
      Backend.makeProgram framed.backend descriptor source
    ⟨(made.value.1,
      { framed with backend := made.value.2 }),
      made.messages⟩
  makeResources framed key bindings :=
    let made :=
      Backend.makeResources framed.backend key bindings
    ⟨(made.value.1,
      { framed with backend := made.value.2 }),
      made.messages⟩
  recordDraw := recordDraw
  submitFrame framed :=
    let submitted := Backend.submitFrame framed.backend
    ⟨⟨submitted.value, [], framed.submissions + 1⟩,
      submitted.messages⟩

/- A framed backend wraps the one that it writes about. -/
theorem wraps :
    Backend.Wraps (Framed.backend : Framed β → β) where
  makeProgram _ _ _ := rfl
  makeResources _ _ _ := rfl
  recordDraw framed pass := by
    change (framed.recordDraw pass).map backend = _
    unfold recordDraw
    rcases Backend.recordDraw framed.backend pass with
      ⟨state, messages, fault⟩
    cases fault with
    | none => rfl
    | some fault => rfl
  submitFrame _ := rfl

end Framed

/- The same move over a framed backend. -/
def Move.framed
    {β P R : Type}
    [Backend β P R] : Move β → Move (Framed β)
  | .request asked => .request asked
  | .edit change =>
      .edit fun framed =>
        { framed with backend := change framed.backend }

namespace Tracker

variable {β P R : Type}
variable [Backend β P R]

/- The tracker, written about from a new frame on. -/
def framed
    (t : Tracker β) : Tracker (Framed β) where
  backend := ⟨t.backend, [], 0⟩
  storage := t.storage
  programs := t.programs
  resources := t.resources
  descriptor := t.descriptor
  params := t.params
  scissor := t.scissor
  batch := t.batch
  stats := t.stats

/- What is written does not change what attempts lead to. -/
theorem attempt_framed
    (t : Tracker (Framed β))
    (moves : List (Move β)) :
    (t.attempt (moves.map Move.framed)).forget
        Framed.backend =
      (t.forget Framed.backend).attempt moves := by
  refine attempt_forget Framed.backend ?_ t moves
  intro t move
  cases move with
  | request request =>
      exact congrArg Outcome.state
        (perform_forget Framed.wraps t request)
  | edit change => rfl

end Tracker

------------------------------------------------------------
-- Ranges Without Gaps
------------------------------------------------------------

/- The range of a draw in the vertex storage. -/
def Pass.range
    {P R : Type}
    (pass : Pass P R) : Nat × Nat :=
  (pass.first, pass.last)

/-
  Ranges lead from a start to a stop: none of them is empty,
  and each one starts where the one before it ended.
-/
def Tiles
    (start : Nat) : List (Nat × Nat) → Nat → Prop
  | [], stop => start = stop
  | range :: rest, stop =>
      range.1 = start ∧ range.1 < range.2 ∧
        Tiles range.2 rest stop

namespace Tiles

/- One more range leads on from the stop. -/
theorem concat
    {start middle stop : Nat}
    {ranges : List (Nat × Nat)}
    (hTiles : Tiles start ranges middle)
    (hRange : middle < stop) :
    Tiles start (ranges ++ [(middle, stop)]) stop := by
  induction ranges generalizing start with
  | nil =>
      cases hTiles
      exact ⟨rfl, hRange, rfl⟩
  | cons range rest ih =>
      rcases hTiles with ⟨hFirst, hProper, hRest⟩
      exact ⟨hFirst, hProper, ih hRest⟩

/- The ranges lead forwards. -/
theorem start_le_stop
    {start stop : Nat}
    {ranges : List (Nat × Nat)}
    (hTiles : Tiles start ranges stop) :
    start ≤ stop := by
  induction ranges generalizing start with
  | nil => exact Nat.le_of_eq hTiles
  | cons range rest ih =>
      rcases hTiles with ⟨hFirst, hProper, hRest⟩
      have hLater := ih hRest
      omega

/- Each range ends at the stop or before it. -/
theorem last_le_stop
    {start stop : Nat}
    {ranges : List (Nat × Nat)}
    (hTiles : Tiles start ranges stop)
    {range : Nat × Nat}
    (hRange : range ∈ ranges) :
    range.2 ≤ stop := by
  induction ranges generalizing start with
  | nil => cases hRange
  | cons first rest ih =>
      rcases hTiles with ⟨-, -, hRest⟩
      rcases List.mem_cons.mp hRange with rfl | hLater
      · exact hRest.start_le_stop
      · exact ih hRest hLater

end Tiles

------------------------------------------------------------
-- Overwriting From a Place On
------------------------------------------------------------

namespace Tracker

/- Overwriting leaves the slots before its place alone. -/
theorem getElem?_overwrite_of_lt
    (storage : Array Vertex)
    {place slot : Nat}
    (hSlot : slot < place)
    (vertices : List Vertex) :
    (overwrite storage place vertices)[slot]? =
      storage[slot]? := by
  induction vertices generalizing storage place with
  | nil => rfl
  | cons v rest ih =>
      rw [overwrite, ih _ (Nat.lt_succ_of_lt hSlot),
        Array.getElem?_setIfInBounds_ne
          (Nat.ne_of_gt hSlot)]

/- Overwriting leaves the ranges before its place alone. -/
theorem extract_overwrite
    (storage : Array Vertex)
    {place stop : Nat}
    (hStop : stop ≤ place)
    (start : Nat)
    (vertices : List Vertex) :
    (overwrite storage place vertices).extract start stop =
      storage.extract start stop := by
  apply Array.ext_getElem?
  intro slot
  rw [Array.getElem?_extract, Array.getElem?_extract,
    size_overwrite]
  split
  · exact getElem?_overwrite_of_lt storage (by omega) _
  · rfl

/- Vertices may be put down in two parts. -/
theorem overwrite_append
    (storage : Array Vertex)
    (place : Nat)
    (first second : List Vertex) :
    overwrite storage place (first ++ second) =
      overwrite (overwrite storage place first)
        (place + first.length) second := by
  induction first generalizing storage place with
  | nil => rfl
  | cons v rest ih =>
      have hPlace :
          place + 1 + rest.length =
            place + (v :: rest).length := by
        simp only [List.length_cons]
        omega
      rw [List.cons_append, overwrite, ih, overwrite, hPlace]

variable {β P R : Type}
variable [Backend β P R]

------------------------------------------------------------
-- Steps of a Frame
------------------------------------------------------------

/-
  One step, as a frame sees it: nothing happens to the
  frame, what waits is drawn, vertices are put behind the
  open batch, or the frame is submitted.
-/
inductive FrameStep :
    Tracker (Framed β) → Tracker (Framed β) → Prop where
  | idle
      {t u : Tracker (Framed β)}
      (storage : u.storage = t.storage)
      (batch : u.batch = t.batch)
      (draws : u.backend.draws = t.backend.draws)
      (submissions :
        u.backend.submissions = t.backend.submissions) :
      FrameStep t u
  | draw
      {t u : Tracker (Framed β)}
      (program : P)
      (resources : R)
      (waiting : t.batch.isEmpty = false)
      (storage : u.storage = t.storage)
      (batch : u.batch = t.batch.close)
      (draws :
        u.backend.draws =
          t.backend.draws ++ [t.pass program resources])
      (submissions :
        u.backend.submissions = t.backend.submissions) :
      FrameStep t u
  | store
      {t u : Tracker (Framed β)}
      (vertices : List Vertex)
      (room :
        t.batch.last + vertices.length ≤ t.storage.size)
      (storage :
        u.storage =
          overwrite t.storage t.batch.last vertices)
      (first : u.batch.first = t.batch.first)
      (last :
        u.batch.last = t.batch.last + vertices.length)
      (backend : u.backend = t.backend) :
      FrameStep t u
  | submit
      {t u : Tracker (Framed β)}
      (storage : u.storage = t.storage)
      (batch : u.batch = Batch.fresh)
      (draws : u.backend.draws = [])
      (submissions :
        u.backend.submissions =
          t.backend.submissions + 1) :
      FrameStep t u

/- Steps that lead from one tracker to another. -/
abbrev FrameSteps :
    Tracker (Framed β) → Tracker (Framed β) → Prop :=
  Relation.ReflTransGen FrameStep

/- A step keeps the size of the storage. -/
theorem FrameStep.size_eq
    {t u : Tracker (Framed β)}
    (hStep : FrameStep t u) :
    u.storage.size = t.storage.size := by
  cases hStep with
  | idle hStorage => rw [hStorage]
  | draw _ _ _ hStorage => rw [hStorage]
  | store vertices _ hStorage =>
      rw [hStorage, size_overwrite]
  | submit hStorage => rw [hStorage]

/- Steps keep the size of the storage. -/
theorem FrameSteps.size_eq
    {t u : Tracker (Framed β)}
    (hSteps : FrameSteps t u) :
    u.storage.size = t.storage.size := by
  induction hSteps with
  | refl => rfl
  | tail _ hStep ih => rw [hStep.size_eq, ih]

/- Storing with room is a step. -/
theorem store_frameStep
    {t : Tracker (Framed β)}
    {vertices : List Vertex}
    (hSize : t.storage.size < 2 ^ 32)
    (hRoom :
      t.batch.last + vertices.length ≤ t.storage.size) :
    FrameStep t (t.store vertices).state := by
  rcases store_of_room hSize hRoom with
    ⟨grown, hDone, hFirst, hLast⟩
  rw [hDone]
  exact .store vertices hRoom rfl hFirst hLast rfl

/- Getting ready for a draw leaves the frame alone. -/
theorem ready_frame
    (t : Tracker (Framed β)) :
    t.ready.backend.draws = t.backend.draws ∧
      t.ready.backend.submissions =
        t.backend.submissions := by
  have hProgram (t : Tracker (Framed β)) :
      t.prepareProgram.value.2.backend.draws =
          t.backend.draws ∧
        t.prepareProgram.value.2.backend.submissions =
          t.backend.submissions := by
    unfold prepareProgram
    split
    · exact ⟨rfl, rfl⟩
    · exact ⟨rfl, rfl⟩
  have hResources (t : Tracker (Framed β)) :
      t.prepareResources.value.2.backend.draws =
          t.backend.draws ∧
        t.prepareResources.value.2.backend.submissions =
          t.backend.submissions := by
    unfold prepareResources
    dsimp only
    split
    · exact ⟨rfl, rfl⟩
    · exact ⟨rfl, rfl⟩
  exact ⟨(hResources _).1.trans (hProgram t).1,
    (hResources _).2.trans (hProgram t).2⟩

/- Recording a draw is that draw, or idle after a fault. -/
theorem record_frameStep
    {t : Tracker (Framed β)}
    (hWaiting : t.batch.isEmpty = false)
    (program : P)
    (resources : R) :
    let u := (t.record program resources).state
    FrameStep t u ∧
      u.backend.submissions = t.backend.submissions := by
  have hRecorded :
      Backend.recordDraw t.backend
          (t.pass program resources) =
        t.backend.recordDraw (t.pass program resources) :=
    rfl
  unfold record
  rw [hRecorded, Framed.recordDraw]
  rcases Backend.recordDraw t.backend.backend
      (t.pass program resources) with
    ⟨backend, messages, fault⟩
  cases fault with
  | none =>
      exact ⟨.draw program resources hWaiting
        rfl rfl rfl rfl, rfl⟩
  | some fault => exact ⟨.idle rfl rfl rfl rfl, rfl⟩

/- A flush steps inside of its frame, fault or not. -/
theorem flush_frameSteps
    (t : Tracker (Framed β)) :
    FrameSteps t t.flush.state ∧
      t.flush.state.backend.submissions =
        t.backend.submissions := by
  cases hEmpty : t.batch.isEmpty with
  | true =>
      rw [flush_of_isEmpty hEmpty]
      exact ⟨.refl, rfl⟩
  | false =>
      by_cases hWhole : t.batch.count % 3 = 0
      · rcases flush_of_waiting hEmpty hWhole with
          ⟨messages, hFlush⟩
        have hSame := ready_sameDrawing t
        rcases ready_frame t with ⟨hDraws, hSubmissions⟩
        have hReady : FrameStep t t.ready :=
          .idle hSame.storage hSame.batch hDraws hSubmissions
        have hWaiting : t.ready.batch.isEmpty = false := by
          rw [hSame.batch]
          exact hEmpty
        rcases record_frameStep hWaiting
            t.prepareProgram.value.1
            t.prepareProgram.value.2.prepareResources.value.1
          with ⟨hStep, hFrame⟩
        rw [hFlush, Outcome.state_after]
        exact
          ⟨(Relation.ReflTransGen.single hReady).tail hStep,
            hFrame.trans hSubmissions⟩
      · rw [flush, if_neg (by simp [hEmpty]), if_pos hWhole]
        exact ⟨.refl, rfl⟩

/- A frame takes steps up to its submission. -/
theorem flushFrame_frameSteps
    (t : Tracker (Framed β)) :
    FrameSteps t t.flushFrame.state := by
  refine Outcome.andThen_keeps (flush_frameSteps t).1 ?_
  intro u hFlushed
  exact hFlushed.tail (.submit rfl rfl rfl rfl)

/- An append stores behind the batch, or in a new frame. -/
theorem append_frameSteps
    {t : Tracker (Framed β)}
    (hSize : t.storage.size < 2 ^ 32)
    (vertices : List Vertex) :
    FrameSteps t (t.append vertices).state := by
  refine append_keeps .refl (flushFrame_frameSteps t) ?_
  intro u hSteps hRoom
  have hSame := FrameSteps.size_eq hSteps
  refine hSteps.tail (store_frameStep ?_ hRoom)
  rw [hSame]
  exact hSize

/- Requests take steps, but for a restart by hand. -/
theorem perform_frameSteps
    {t : Tracker (Framed β)}
    (hSize : t.storage.size < 2 ^ 32)
    {request : Request}
    (hRequest : request ≠ .afterFrame) :
    FrameSteps t (t.perform request).state := by
  cases request with
  | change wanted =>
      refine change_keeps .refl (flush_frameSteps t).1 ?_
        wanted
      intro u state hKept
      exact hKept.tail (.idle rfl rfl rfl rfl)
  | append added => exact append_frameSteps hSize added
  | flush => exact (flush_frameSteps t).1
  | beforeFrame => exact (flush_frameSteps t).1
  | afterFrame => exact absurd rfl hRequest
  | flushFrame => exact flushFrame_frameSteps t

------------------------------------------------------------
-- Invariant
------------------------------------------------------------

/-
  The storage of a frame is intact.  The open batch lies in
  it, the draws of the frame lead from its start to the open
  batch, and the range of each of them still holds what it
  drew.
-/
structure FrameIntact
    (t : Tracker (Framed β))
    (capacity : Nat) : Prop where
  size : t.storage.size = capacity
  ordered : t.batch.first ≤ t.batch.last
  inStorage : t.batch.last ≤ capacity
  tiled :
    Tiles 0 (t.backend.draws.map Pass.range) t.batch.first
  intact :
    ∀ pass ∈ t.backend.draws,
      (t.storage.extract pass.first pass.last).toList =
        pass.vertices

/- A fresh frame is intact. -/
theorem framed_intact
    (backend : β)
    (storage : Array Vertex) :
    FrameIntact (fresh backend storage).framed
      storage.size where
  size := rfl
  ordered := Nat.le_refl 0
  inStorage := Nat.zero_le _
  tiled := rfl
  intact _ hPass := absurd hPass List.not_mem_nil

/- Each draw of an intact frame ends before the batch. -/
theorem FrameIntact.last_le_first
    {t : Tracker (Framed β)}
    {capacity : Nat}
    (hIntact : t.FrameIntact capacity)
    {pass : Pass P R}
    (hPass : pass ∈ t.backend.draws) :
    pass.last ≤ t.batch.first :=
  hIntact.tiled.last_le_stop
    (List.mem_map_of_mem hPass)

/- A step keeps the frame intact. -/
theorem FrameStep.intact
    {t u : Tracker (Framed β)}
    {capacity : Nat}
    (hStep : FrameStep t u)
    (hIntact : t.FrameIntact capacity) :
    u.FrameIntact capacity := by
  have hOrdered := hIntact.ordered
  cases hStep with
  | idle hStorage hBatch hDraws hSubmissions =>
      constructor
      · rw [hStorage]
        exact hIntact.size
      · rw [hBatch]
        exact hIntact.ordered
      · rw [hBatch]
        exact hIntact.inStorage
      · rw [hBatch, hDraws]
        exact hIntact.tiled
      · rw [hStorage, hDraws]
        exact hIntact.intact
  | draw program resources hWaiting hStorage hBatch hDraws
      hSubmissions =>
      -- A drawn batch is not empty, so its range is proper.
      have hProper : t.batch.first < t.batch.last := by
        rw [← Bool.not_eq_true, Batch.isEmpty_iff_ends]
          at hWaiting
        omega
      constructor
      · rw [hStorage]
        exact hIntact.size
      · rw [hBatch]
        exact Nat.le_refl _
      · rw [hBatch]
        exact hIntact.inStorage
      · rw [hBatch, hDraws, List.map_append]
        exact hIntact.tiled.concat hProper
      · rw [hStorage, hDraws]
        intro pass hPass
        rcases List.mem_append.mp hPass with hOld | hNew
        · exact hIntact.intact pass hOld
        · rw [List.mem_singleton] at hNew
          subst hNew
          rfl
  | store vertices hRoom hStorage hFirst hLast hBackend =>
      constructor
      · rw [hStorage, size_overwrite]
        exact hIntact.size
      · exact u.batch.first_le_last
      · rw [hLast, ← hIntact.size]
        exact hRoom
      · rw [hFirst, hBackend]
        exact hIntact.tiled
      · -- Old draws end where the batch starts, or before.
        rw [hStorage, hBackend]
        intro pass hPass
        have hBefore : pass.last ≤ t.batch.last :=
          Nat.le_trans (hIntact.last_le_first hPass) hOrdered
        rw [← hIntact.intact pass hPass]
        exact congrArg Array.toList
          (extract_overwrite t.storage hBefore pass.first
            vertices)
  | submit hStorage hBatch hDraws hSubmissions =>
      constructor
      · rw [hStorage]
        exact hIntact.size
      · rw [hBatch]
        exact Nat.le_refl 0
      · rw [hBatch]
        exact Nat.zero_le _
      · rw [hBatch, hDraws]
        rfl
      · rw [hDraws]
        exact fun _ hPass => absurd hPass List.not_mem_nil

/- Steps keep the frame intact. -/
theorem FrameSteps.intact
    {t u : Tracker (Framed β)}
    {capacity : Nat}
    (hSteps : FrameSteps t u)
    (hIntact : t.FrameIntact capacity) :
    u.FrameIntact capacity := by
  induction hSteps with
  | refl => exact hIntact
  | tail _ hStep ih => exact hStep.intact ih

------------------------------------------------------------
-- What Stays Until a Submission
------------------------------------------------------------

/-
  The second tracker holds all that the first one has
  stored, and more vertices at most behind that.
-/
def Extends
    (t u : Tracker β) : Prop :=
  ∃ vertices,
    u.storage =
        overwrite t.storage t.batch.last vertices ∧
      u.batch.last = t.batch.last + vertices.length

/- A tracker extends itself. -/
theorem Extends.refl
    (t : Tracker β) :
    Extends t t :=
  ⟨[], rfl, rfl⟩

/- What extends an extension stores behind both. -/
theorem Extends.trans
    {t u v : Tracker β}
    (hFirst : Extends t u)
    (hSecond : Extends u v) :
    Extends t v := by
  rcases hFirst with ⟨first, hStorage, hLast⟩
  rcases hSecond with ⟨second, hNextStorage, hNextLast⟩
  refine ⟨first ++ second, ?_, ?_⟩
  · rw [hNextStorage, hStorage, hLast, overwrite_append]
  · rw [hNextLast, hLast, List.length_append, Nat.add_assoc]

/- An extension leaves every stored slot as it is. -/
theorem Extends.getElem?_eq
    {t u : Tracker β}
    (hExtends : Extends t u)
    {slot : Nat}
    (hSlot : slot < t.batch.last) :
    u.storage[slot]? = t.storage[slot]? := by
  rcases hExtends with ⟨vertices, hStorage, -⟩
  rw [hStorage]
  exact getElem?_overwrite_of_lt t.storage hSlot vertices

/- No step takes a submission back. -/
theorem FrameStep.submissions_le
    {t u : Tracker (Framed β)}
    (hStep : FrameStep t u) :
    t.backend.submissions ≤ u.backend.submissions := by
  cases hStep with
  | idle _ _ _ hSubmissions =>
      exact Nat.le_of_eq hSubmissions.symm
  | draw _ _ _ _ _ _ hSubmissions =>
      exact Nat.le_of_eq hSubmissions.symm
  | store _ _ _ _ _ hBackend =>
      exact Nat.le_of_eq
        (congrArg Framed.submissions hBackend).symm
  | submit _ _ _ hSubmissions =>
      rw [hSubmissions]
      exact Nat.le_succ _

/- No steps take a submission back. -/
theorem FrameSteps.submissions_le
    {t u : Tracker (Framed β)}
    (hSteps : FrameSteps t u) :
    t.backend.submissions ≤ u.backend.submissions := by
  induction hSteps with
  | refl => exact Nat.le_refl _
  | tail _ hStep ih =>
      exact Nat.le_trans ih hStep.submissions_le

/- Only a submission does not extend what is stored. -/
theorem FrameStep.extends
    {t u : Tracker (Framed β)}
    (hStep : FrameStep t u)
    (hFrame :
      u.backend.submissions = t.backend.submissions) :
    Extends t u := by
  cases hStep with
  | idle hStorage hBatch _ _ =>
      refine ⟨[], hStorage, ?_⟩
      rw [hBatch]
      rfl
  | draw _ _ _ hStorage hBatch _ _ =>
      refine ⟨[], hStorage, ?_⟩
      rw [hBatch]
      rfl
  | store vertices _ hStorage _ hLast _ =>
      exact ⟨vertices, hStorage, hLast⟩
  | submit _ _ _ hSubmissions => omega

/- Steps inside of one frame extend what is stored. -/
theorem FrameSteps.extends
    {t u : Tracker (Framed β)}
    (hSteps : FrameSteps t u)
    (hFrame :
      u.backend.submissions = t.backend.submissions) :
    Extends t u := by
  induction hSteps with
  | refl => exact Extends.refl t
  | tail hBefore hStep ih =>
      -- Submissions only grow, so no step here is one.
      have hFirst := FrameSteps.submissions_le hBefore
      have hSecond := hStep.submissions_le
      exact (ih (by omega)).trans (hStep.extends (by omega))

------------------------------------------------------------
-- Submissions
------------------------------------------------------------

/- A frame submits what its flush recorded, if it does. -/
theorem flushFrame_submits
    (t : Tracker (Framed β)) :
    t.flush.fault = none ∧
        t.flushFrame.state.backend =
          t.flush.state.submit.state.backend ∨
      t.flushFrame.state.backend.submissions =
        t.backend.submissions := by
  cases hFlush : t.flush.fault with
  | none =>
      refine Or.inl ⟨rfl, ?_⟩
      rw [flushFrame_state hFlush]
      rfl
  | some fault =>
      rw [flushFrame_of_fault hFlush]
      exact Or.inr (flush_frameSteps t).2

/- An append that does not fit leaves what a frame does. -/
theorem append_backend_of_full
    {t : Tracker β}
    {vertices : List Vertex}
    (hFull :
      t.storage.size < t.batch.last + vertices.length) :
    (t.append vertices).state.backend =
      t.flushFrame.state.backend := by
  let OfFrame (u : Tracker β) : Prop :=
    u.backend = t.flushFrame.state.backend
  have hAppend : OfFrame (t.append vertices).state := by
    rw [append_of_full hFull, Outcome.state_after]
    refine Outcome.andThen_keeps rfl ?_
    intro u hSame
    split
    · exact (backend_store u vertices).trans hSame
    · exact hSame
  exact hAppend

/-
  A request that submits does so right after its flush, with
  the storage that the flush left behind.
-/
theorem perform_submits
    {t : Tracker (Framed β)}
    {request : Request}
    (hSubmits :
      (t.perform request).state.backend.submissions ≠
        t.backend.submissions) :
    t.flush.fault = none ∧
      (t.perform request).state.backend =
        t.flush.state.submit.state.backend := by
  have hFlush := (flush_frameSteps t).2
  cases request with
  | change wanted =>
      let InFrame (u : Tracker (Framed β)) : Prop :=
        u.backend.submissions = t.backend.submissions
      have hStart : InFrame t := rfl
      have hChange : InFrame (t.change wanted).state :=
        change_keeps hStart hFlush
          (fun u state hKept => hKept) wanted
      exact absurd hChange hSubmits
  | append added =>
      simp only [perform] at hSubmits ⊢
      rcases Nat.lt_or_ge t.storage.size
          (t.batch.last + added.length) with hFull | hRoom
      · rw [append_backend_of_full hFull] at hSubmits ⊢
        exact (flushFrame_submits t).resolve_right hSubmits
      · rw [append_of_room hRoom, backend_store] at hSubmits
        exact absurd rfl hSubmits
  | flush => exact absurd hFlush hSubmits
  | beforeFrame => exact absurd hFlush hSubmits
  | afterFrame => exact absurd rfl hSubmits
  | flushFrame =>
      exact (flushFrame_submits t).resolve_right hSubmits

------------------------------------------------------------
-- Runs
------------------------------------------------------------

/- Moves take steps, but for a restart by hand. -/
theorem attempt_frameSteps
    {t : Tracker (Framed β)}
    (hSize : t.storage.size < 2 ^ 32)
    {moves : List (Move β)}
    (hMoves :
      ∀ move ∈ moves, move ≠ .request .afterFrame) :
    FrameSteps t (t.attempt (moves.map Move.framed)) := by
  induction moves generalizing t with
  | nil => exact .refl
  | cons first rest ih =>
      rcases List.forall_mem_cons.mp hMoves with
        ⟨hFirst, hRest⟩
      have hMove :
          FrameSteps t (t.move first.framed).state := by
        cases first with
        | request request =>
            apply perform_frameSteps hSize
            exact fun hSame =>
              hFirst (congrArg Move.request hSame)
        | edit change => exact .single (.idle rfl rfl rfl rfl)
      have hSame := FrameSteps.size_eq hMove
      refine hMove.trans (ih ?_ hRest)
      rw [hSame]
      exact hSize

/- An append without fault writes inside of the storage. -/
theorem append_inBounds
    {t : Tracker β}
    {vertices : List Vertex}
    (hFault : (t.append vertices).fault = none) :
    ∃ u,
      (u = t ∨ u = t.flushFrame.state) ∧
        (t.append vertices).state =
          (u.store vertices).state ∧
        u.batch.last + vertices.length ≤
          u.storage.size := by
  rcases append_cases hFault with
    ⟨hRoom, hState⟩ | ⟨-, hFlush, hFits, hState⟩
  · exact ⟨t, Or.inl rfl, hState, hRoom⟩
  · exact
      ⟨t.flushFrame.state, Or.inr rfl, hState,
        room_flushFrame hFlush hFits⟩

/- An append that fits only moves the end of the batch. -/
theorem append_of_fits
    {t : Tracker β}
    {vertices : List Vertex}
    (hSize : t.storage.size < 2 ^ 32)
    (hRoom :
      t.batch.last + vertices.length ≤ t.storage.size) :
    (t.append vertices).fault = none ∧
      (t.append vertices).state.batch.first =
        t.batch.first ∧
      (t.append vertices).state.batch.last =
        t.batch.last + vertices.length := by
  rcases store_of_room hSize hRoom with
    ⟨grown, hDone, hFirst, hLast⟩
  rw [append_of_room hRoom, hDone]
  exact ⟨rfl, hFirst, hLast⟩

/-
  Frame storage is never overwritten while it is in use.
  Over every backend and every storage whose slots a word
  counts, whatever its owner does and also after faults, as
  long as only frames restart the storage: the frame is
  intact; what comes later in the same frame only stores
  behind the open batch; a frame that is submitted is still
  intact at that moment; and an append without fault stores
  inside of the storage, as every append that fits does.
-/
theorem frameStorage_intact
    (backend : β)
    (storage : Array Vertex)
    (hSize : storage.size < 2 ^ 32)
    (moves : List (Move β))
    (hMoves :
      ∀ move ∈ moves, move ≠ .request .afterFrame) :
    let t :=
      (fresh backend storage).framed.attempt
        (moves.map Move.framed)
    t.forget Framed.backend =
        (fresh backend storage).attempt moves ∧
      t.FrameIntact storage.size ∧
      (∀ later : List (Move β),
        (∀ move ∈ later, move ≠ .request .afterFrame) →
          let u := t.attempt (later.map Move.framed)
          u.backend.submissions = t.backend.submissions →
            Extends t u ∧
              ∀ slot < t.batch.last,
                u.storage[slot]? = t.storage[slot]?) ∧
      (∀ request,
        (t.perform request).state.backend.submissions ≠
            t.backend.submissions →
          t.flush.fault = none ∧
            t.flush.state.FrameIntact storage.size ∧
            (t.perform request).state.backend =
              t.flush.state.submit.state.backend) ∧
      (∀ vertices,
        (t.append vertices).fault = none →
          ∃ u,
            (u = t ∨ u = t.flushFrame.state) ∧
              (t.append vertices).state =
                (u.store vertices).state ∧
              u.batch.last + vertices.length ≤
                u.storage.size) ∧
      ∀ vertices : List Vertex,
        t.batch.last + vertices.length ≤ storage.size →
          (t.append vertices).fault = none ∧
            (t.append vertices).state.batch.first =
              t.batch.first ∧
            (t.append vertices).state.batch.last =
              t.batch.last + vertices.length := by
  intro t
  have hStart :
      (fresh backend storage).framed.storage.size < 2 ^ 32 :=
    hSize
  have hIntact : t.FrameIntact storage.size :=
    (attempt_frameSteps hStart hMoves).intact
      (framed_intact backend storage)
  have hCounted : t.storage.size < 2 ^ 32 := by
    rw [hIntact.size]
    exact hSize
  refine ⟨attempt_framed _ moves, hIntact, ?_, ?_, ?_, ?_⟩
  · intro later hLater u hFrame
    have hExtends : Extends t u :=
      (attempt_frameSteps hCounted hLater).extends hFrame
    exact ⟨hExtends, fun slot => hExtends.getElem?_eq⟩
  · intro request hSubmits
    rcases perform_submits hSubmits with ⟨hFault, hBackend⟩
    exact ⟨hFault, (flush_frameSteps t).1.intact hIntact,
      hBackend⟩
  · intro vertices hFault
    exact append_inBounds hFault
  · intro vertices hRoom
    rw [← hIntact.size] at hRoom
    exact append_of_fits hCounted hRoom

/-
  A run that fills a storage of six vertices to its end,
  with an empty append there and a change in between.
-/
def fillingRun : List (Move Journal) :=
  [.request (.append (numbered 1 3)),
    .request (.change (.fixedAlpha 7)),
    .request (.append (numbered 4 3)),
    .request (.append [])]

/- The tracker after that run, with its frame. -/
def filled : Tracker (Framed Journal) :=
  (fresh ({} : Journal)
    (Array.replicate 6 Vertex.zero)).framed.attempt
      (fillingRun.map Move.framed)

/- The ranges and depths of the draws of a frame. -/
def drawnDepths
    (t : Tracker (Framed β)) :
    List ((Nat × Nat) × List UInt32) :=
  t.backend.draws.map fun pass =>
    (pass.range, pass.vertices.map Vertex.z)

/-
  After that run one more triangle submits a frame of two
  draws, which is intact when it is submitted; the triangle
  is stored at the start of the next frame.
-/
theorem frameStorage_intact_filled :
    let next := Request.append (numbered 7 3)
    let after := (filled.perform next).state
    (∀ move ∈ fillingRun, move ≠ .request .afterFrame) ∧
      filled.drawnDepths = [((0, 3), [1, 2, 3])] ∧
      filled.batch.last = 6 ∧
      filled.flush.state.drawnDepths =
        [((0, 3), [1, 2, 3]), ((3, 6), [4, 5, 6])] ∧
      filled.flush.state.FrameIntact 6 ∧
      after.backend.submissions = 1 ∧
      after.storage.toList.map Vertex.z =
        [7, 8, 9, 4, 5, 6] := by
  intro next after
  have hMoves :
      ∀ move ∈ fillingRun, move ≠ .request .afterFrame := by
    simp [fillingRun]
  rcases frameStorage_intact ({} : Journal)
      (Array.replicate 6 Vertex.zero) (by decide)
      fillingRun hMoves with
    ⟨-, -, -, hSubmitted, -⟩
  have hIntact :=
    (hSubmitted next (by decide +kernel)).2.1
  rw [Array.size_replicate] at hIntact
  exact
    ⟨hMoves, by decide +kernel, by decide +kernel,
      by decide +kernel, hIntact, by decide +kernel,
      by decide +kernel⟩

end Tracker

end PagedRaster
