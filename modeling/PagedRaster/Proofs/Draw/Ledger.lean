import PagedRaster.Draw.Journal
import PagedRaster.Proofs.Draw.Observed
import PagedRaster.Proofs.Draw.Waiting

/-
  This file proves that every appended vertex is drawn once,
  in order and under the render state it was appended
  under.  The invariant of a run says so of the recorded
  draws together with the open batch.

  Key definitions include:
    * `Observed.drawn`
    * `Tracker.ledger`
    * `Request.appended`
    * `Tracker.RestartsEmpty`
    * `Tracker.Accounts`

  Key theorems include:
    * `Tracker.flush_accounts`
    * `Tracker.perform_accounts`
    * `Tracker.run_accounts`
    * `Tracker.ledger_run`
-/

namespace PagedRaster

------------------------------------------------------------
-- Tagged Vertices
------------------------------------------------------------

/- The render state that a pass is drawn under. -/
def Pass.renderState
    {P R : Type}
    (pass : Pass P R) : RenderState where
  descriptor := pass.descriptor
  params := pass.params
  scissor := pass.scissor

/- Vertices together with one render state. -/
def RenderState.tag
    (state : RenderState)
    (vertices : List Vertex) :
    List (Vertex × RenderState) :=
  vertices.map fun vertex => (vertex, state)

/- Tagging keeps the number of vertices. -/
@[simp]
theorem RenderState.length_tag
    (state : RenderState)
    (vertices : List Vertex) :
    (state.tag vertices).length = vertices.length := by
  simp [tag]

/- No vertices are tagged to none. -/
@[simp]
theorem RenderState.tag_nil
    (state : RenderState) :
    state.tag [] = [] :=
  rfl

/- Tagging goes along with appending. -/
theorem RenderState.tag_append
    (state : RenderState)
    (first second : List Vertex) :
    state.tag (first ++ second) =
      state.tag first ++ state.tag second := by
  simp [tag]

/-
  All vertices that a run hands over, in order, each with
  the render state in force when it is appended.
-/
def Request.appended
    (state : RenderState) :
    List Request → List (Vertex × RenderState)
  | [] => []
  | request :: rest =>
      state.tag request.vertices ++
        appended (request.nextState state) rest

namespace Observed

variable {β P R : Type}
variable [Backend β P R]

/-
  The vertices of the recorded draws, each with the render
  state of its draw.  A draw holds the vertex storage as it
  was when it was recorded.
-/
def drawn
    (observed : Observed β) : List (Vertex × RenderState) :=
  observed.passes.flatMap fun pass =>
    pass.renderState.tag pass.vertices

end Observed

namespace Tracker

variable {β P R : Type}
variable [Backend β P R]

/- What was drawn, followed by what waits. -/
def ledger
    (t : Tracker (Observed β)) :
    List (Vertex × RenderState) :=
  t.backend.drawn ++ t.renderState.tag t.waiting

/-
  A run restarts the vertex storage by hand only while no
  vertices wait.
-/
def RestartsEmpty
    (t : Tracker β) : List Request → Prop
  | [] => True
  | request :: rest =>
      (request = .afterFrame → t.pending = 0) ∧
        (t.perform request).state.RestartsEmpty rest

------------------------------------------------------------
-- Invariant
------------------------------------------------------------

/-
  The books of a tracker after a history of appended
  vertices: they are drawn or waiting, and the counters
  agree with the calls to the backend.
-/
structure Accounts
    (t : Tracker (Observed β))
    (history : List (Vertex × RenderState)) : Prop where
  inStorage : t.InStorage
  ledger : t.ledger = history
  draws : t.stats.draws = t.backend.passes.length
  vertices : t.stats.vertices = t.backend.drawn.length
  frames : t.stats.frames = t.backend.submissions

/- A fresh tracker has an empty history. -/
theorem fresh_accounts
    (backend : β)
    {storage : Array Vertex}
    (hSize : storage.size < 2 ^ 32) :
    Accounts (fresh backend storage).observe [] where
  inStorage := ⟨Nat.zero_le _, hSize⟩
  ledger := by
    have hWaiting :
        (fresh backend storage).observe.waiting = [] :=
      waiting_of_isEmpty rfl
    rw [Tracker.ledger, hWaiting]
    rfl
  draws := rfl
  vertices := rfl
  frames := rfl

------------------------------------------------------------
-- Flushes
------------------------------------------------------------

/- Making programs and resources records no draw. -/
theorem ready_calls
    (t : Tracker (Observed β)) :
    t.ready.backend.passes = t.backend.passes ∧
      t.ready.backend.submissions =
        t.backend.submissions := by
  have hProgram :
      t.prepareProgram.value.2.backend.passes =
          t.backend.passes ∧
        t.prepareProgram.value.2.backend.submissions =
          t.backend.submissions := by
    unfold prepareProgram
    split
    · exact ⟨rfl, rfl⟩
    · simp [Backend.makeProgram, Call.pass?,
        Call.isSubmit]
  rw [← hProgram.1, ← hProgram.2]
  unfold ready prepareResources
  dsimp only
  split
  · exact ⟨rfl, rfl⟩
  · simp [Backend.makeResources, Call.pass?, Call.isSubmit]

/- Recording adds its draw and no frame, fault or not. -/
theorem record_calls
    (t : Tracker (Observed β))
    (program : P)
    (resources : R) :
    let u := (t.record program resources).state
    u.backend.passes =
        t.backend.passes ++ [t.pass program resources] ∧
      u.backend.submissions = t.backend.submissions := by
  intro u
  have hBackend := record_backend t program resources
  simp [u, hBackend, Call.pass?, Call.isSubmit]

/-
  A flush of whole triangles records one draw of them, also
  if the backend stops at it.
-/
theorem flush_calls
    {t : Tracker (Observed β)}
    (hWaiting : t.batch.isEmpty = false)
    (hWhole : t.pending % 3 = 0) :
    (∃ program resources,
      t.flush.state.backend.passes =
        t.backend.passes ++ [t.pass program resources]) ∧
      t.flush.state.backend.submissions =
        t.backend.submissions := by
  rcases flush_of_waiting hWaiting hWhole with
    ⟨messages, hFlush⟩
  rcases record_calls t.ready t.prepareProgram.value.1
      t.prepareProgram.value.2.prepareResources.value.1 with
    ⟨hPasses, hSubmissions⟩
  rcases ready_calls t with ⟨hReady, hReadySubmissions⟩
  rw [hReady, (ready_sameDrawing t).pass_eq] at hPasses
  rw [hFlush, Outcome.state_after]
  exact
    ⟨⟨_, _, hPasses⟩,
      hSubmissions.trans hReadySubmissions⟩

/-
  What a flush of a nonempty batch leaves: one more draw,
  made of exactly that batch.
-/
structure Drew
    (t u : Tracker (Observed β)) : Prop where
  passes :
    ∃ program resources,
      u.backend.passes =
        t.backend.passes ++ [t.pass program resources]
  submissions :
    u.backend.submissions = t.backend.submissions
  storage : u.storage = t.storage
  renderState : u.renderState = t.renderState
  batch : u.batch = t.batch.close
  draws : u.stats.draws = t.stats.draws + 1
  vertices :
    u.stats.vertices =
      t.stats.vertices + t.pending.toNat
  frames : u.stats.frames = t.stats.frames

/- Recording the open batch is one draw of it. -/
theorem record_drew
    {t : Tracker (Observed β)}
    {program : P}
    {resources : R}
    (hFault : (t.record program resources).fault = none) :
    Drew t (t.record program resources).state := by
  rcases record_calls t program resources with
    ⟨hPasses, hSubmissions⟩
  unfold record at hFault hPasses hSubmissions ⊢
  split
  · rename_i backend messages hDraw
    rw [hDraw] at hPasses hSubmissions
    exact
      { passes := ⟨program, resources, hPasses⟩
        submissions := hSubmissions
        storage := rfl
        renderState := rfl
        batch := rfl
        draws := rfl
        vertices := rfl
        frames := rfl }
  · rename_i backend messages fault hDraw
    rw [hDraw] at hFault
    cases hFault

/- A flush of waiting vertices is one draw of them. -/
theorem flush_drew
    {t : Tracker (Observed β)}
    (hWaiting : t.batch.isEmpty = false)
    (hFault : t.flush.fault = none) :
    Drew t t.flush.state := by
  have hWhole := whole_of_flush hWaiting hFault
  rcases flush_of_waiting hWaiting hWhole with
    ⟨messages, hFlush⟩
  rw [hFlush, Outcome.fault_after] at hFault
  have hSame := ready_sameDrawing t
  have hCalls := flush_calls hWaiting hWhole
  have hDrew := record_drew hFault
  rw [hFlush, Outcome.state_after] at hCalls ⊢
  exact
    { passes := hCalls.1
      submissions := hCalls.2
      storage := hDrew.storage.trans hSame.storage
      renderState :=
        hDrew.renderState.trans hSame.renderState
      batch := by rw [hDrew.batch, hSame.batch]
      draws := by rw [hDrew.draws, hSame.draws]
      vertices := by
        rw [hDrew.vertices, hSame.vertices, pending,
          hSame.batch, pending]
      frames := hDrew.frames.trans hSame.frames }

/- A draw moves the open batch to the drawn vertices. -/
theorem Drew.drawn_eq
    {t u : Tracker (Observed β)}
    (hDrew : Drew t u) :
    u.backend.drawn = t.ledger := by
  rcases hDrew.passes with ⟨program, resources, hPasses⟩
  simp only [Observed.drawn, ledger, hPasses,
    List.flatMap_append, List.flatMap_cons,
    List.flatMap_nil, List.append_nil, vertices_pass]
  rfl

/- A draw keeps the books. -/
theorem Drew.accounts
    {t u : Tracker (Observed β)}
    {history : List (Vertex × RenderState)}
    (hDrew : Drew t u)
    (hBooks : Accounts t history) :
    Accounts u history where
  inStorage :=
    inStorage_close hDrew.storage hDrew.batch
      hBooks.inStorage
  ledger := by
    have hEmpty : u.batch.isEmpty = true := by
      rw [hDrew.batch]
      exact t.batch.isEmpty_close
    rw [Tracker.ledger, waiting_of_isEmpty hEmpty,
      hDrew.drawn_eq, hBooks.ledger, RenderState.tag_nil,
      List.append_nil]
  draws := by
    rcases hDrew.passes with ⟨program, resources, hPasses⟩
    rw [hDrew.draws, hBooks.draws, hPasses]
    simp
  vertices := by
    rw [hDrew.vertices, hBooks.vertices, hDrew.drawn_eq,
      Tracker.ledger, List.length_append,
      RenderState.length_tag,
      length_waiting hBooks.inStorage]
  frames := by
    rw [hDrew.frames, hBooks.frames, hDrew.submissions]

/- A flush keeps the books and empties the batch. -/
theorem flush_accounts
    {t : Tracker (Observed β)}
    {history : List (Vertex × RenderState)}
    (hBooks : Accounts t history)
    (hFault : t.flush.fault = none) :
    Accounts t.flush.state history ∧
      t.flush.state.batch.isEmpty = true := by
  cases hEmpty : t.batch.isEmpty with
  | true =>
      rw [flush_of_isEmpty hEmpty]
      exact ⟨hBooks, hEmpty⟩
  | false =>
      have hDrew := flush_drew hEmpty hFault
      refine ⟨hDrew.accounts hBooks, ?_⟩
      rw [hDrew.batch]
      exact t.batch.isEmpty_close

------------------------------------------------------------
-- Steps
------------------------------------------------------------

/- A restart keeps the books of an empty batch. -/
theorem Accounts.afterFrame
    {t : Tracker (Observed β)}
    {history : List (Vertex × RenderState)}
    (hBooks : Accounts t history)
    (hEmpty : t.batch.isEmpty = true) :
    Accounts t.afterFrame history where
  inStorage := ⟨Nat.zero_le _, hBooks.inStorage.size_lt⟩
  ledger := by
    have hLedger := hBooks.ledger
    have hWaiting : t.afterFrame.waiting = [] :=
      waiting_of_isEmpty rfl
    rw [Tracker.ledger, waiting_of_isEmpty hEmpty]
      at hLedger
    rw [Tracker.ledger, hWaiting]
    exact hLedger
  draws := hBooks.draws
  vertices := hBooks.vertices
  frames := hBooks.frames

/- No vertices wait for a new render state. -/
theorem Accounts.withRenderState
    {t : Tracker (Observed β)}
    {history : List (Vertex × RenderState)}
    (hBooks : Accounts t history)
    (hEmpty : t.batch.isEmpty = true)
    (state : RenderState) :
    Accounts (t.withRenderState state) history where
  inStorage :=
    ⟨hBooks.inStorage.last_le, hBooks.inStorage.size_lt⟩
  ledger := by
    have hLedger := hBooks.ledger
    have hWaiting :
        (t.withRenderState state).waiting = [] :=
      waiting_of_isEmpty hEmpty
    rw [Tracker.ledger, waiting_of_isEmpty hEmpty]
      at hLedger
    rw [Tracker.ledger, hWaiting]
    exact hLedger
  draws := hBooks.draws
  vertices := hBooks.vertices
  frames := hBooks.frames

/- A frame keeps the books. -/
theorem flushFrame_accounts
    {t : Tracker (Observed β)}
    {history : List (Vertex × RenderState)}
    (hBooks : Accounts t history)
    (hFault : t.flush.fault = none) :
    Accounts t.flushFrame.state history := by
  rcases flush_accounts hBooks hFault with
    ⟨hFlushed, hEmpty⟩
  have hRestarted := hFlushed.afterFrame hEmpty
  have hPasses :
      t.flush.state.submit.state.backend.passes =
        t.flush.state.backend.passes := by
    simp [submit, Backend.submitFrame, Call.pass?]
  have hSubmissions :
      t.flush.state.submit.state.backend.submissions =
        t.flush.state.backend.submissions + 1 := by
    simp [submit, Backend.submitFrame, Call.isSubmit]
  have hDrawn :
      t.flush.state.submit.state.backend.drawn =
        t.flush.state.backend.drawn := by
    rw [Observed.drawn, hPasses, Observed.drawn]
  rw [flushFrame_state hFault]
  exact
    { inStorage :=
        ⟨Nat.zero_le _, hRestarted.inStorage.size_lt⟩
      ledger := by
        have hLedger := hRestarted.ledger
        rw [Tracker.ledger] at hLedger ⊢
        rw [← hLedger]
        exact congrArg (· ++ _) hDrawn
      draws := hRestarted.draws.trans
        (congrArg List.length hPasses).symm
      vertices := hRestarted.vertices.trans
        (congrArg List.length hDrawn).symm
      frames := by
        have hFrames := hRestarted.frames
        exact (congrArg (· + 1) hFrames).trans
          hSubmissions.symm }

/- Stored vertices join the history. -/
theorem store_accounts
    {t : Tracker (Observed β)}
    {history : List (Vertex × RenderState)}
    (hBooks : Accounts t history)
    {vertices : List Vertex}
    (hRoom :
      t.batch.last + vertices.length ≤ t.storage.size) :
    Accounts (t.store vertices).state
      (history ++ t.renderState.tag vertices) := by
  have hSize := hBooks.inStorage.size_lt
  have hBackend := backend_store t vertices
  have hStats : (t.store vertices).state.stats = t.stats := by
    rcases store_eq t vertices with ⟨batch, hState⟩
    rw [hState]
    rfl
  exact
    { inStorage := inStorage_store hSize hRoom
      ledger := by
        rw [Tracker.ledger, waiting_store hSize hRoom,
          renderState_store, hBackend, ← hBooks.ledger,
          Tracker.ledger, List.append_assoc,
          ← RenderState.tag_append]
      draws := by
        rw [hBackend, hStats]
        exact hBooks.draws
      vertices := by
        rw [hBackend, hStats]
        exact hBooks.vertices
      frames := by
        rw [hBackend, hStats]
        exact hBooks.frames }

/- A change of the render state keeps the books. -/
theorem change_accounts
    {t : Tracker (Observed β)}
    {history : List (Vertex × RenderState)}
    (hBooks : Accounts t history)
    (change : Change)
    (hFault : (t.change change).fault = none) :
    Accounts (t.change change).state history ∧
      (t.change change).state.renderState =
        change.apply t.renderState := by
  rcases change_cases hFault with
    ⟨hForce, hState⟩ | ⟨hFlush, hState⟩
  · rw [hState]
    exact ⟨hBooks, hForce.symm⟩
  · rcases flush_accounts hBooks hFlush with
      ⟨hFlushed, hEmpty⟩
    rw [hState]
    exact ⟨hFlushed.withRenderState hEmpty _, rfl⟩

/- Appended vertices join the history. -/
theorem append_accounts
    {t : Tracker (Observed β)}
    {history : List (Vertex × RenderState)}
    (hBooks : Accounts t history)
    (vertices : List Vertex)
    (hFault : (t.append vertices).fault = none) :
    Accounts (t.append vertices).state
        (history ++ t.renderState.tag vertices) ∧
      (t.append vertices).state.renderState =
        t.renderState := by
  rcases append_cases hFault with
    ⟨hRoom, hState⟩ | ⟨hFull, hFlush, hFits, hState⟩
  · rw [hState]
    exact ⟨store_accounts hBooks hRoom,
      renderState_store t vertices⟩
  · have hFrame := flushFrame_accounts hBooks hFlush
    have hKept := flushFrame_renderState hFlush
    have hStored :=
      store_accounts hFrame (room_flushFrame hFlush hFits)
    rw [hKept] at hStored
    rw [hState]
    exact ⟨hStored, (renderState_store _ _).trans hKept⟩

/-
  A request without fault adds its vertices to the history,
  under the render state it finds.
-/
theorem perform_accounts
    {t : Tracker (Observed β)}
    {history : List (Vertex × RenderState)}
    (hBooks : Accounts t history)
    (request : Request)
    (hFault : (t.perform request).fault = none)
    (hRestart : request = .afterFrame → t.pending = 0) :
    Accounts (t.perform request).state
        (history ++ t.renderState.tag request.vertices) ∧
      (t.perform request).state.renderState =
        request.nextState t.renderState := by
  cases request with
  | change wanted =>
      simp only [Request.vertices, RenderState.tag_nil,
        List.append_nil]
      exact change_accounts hBooks wanted hFault
  | append added =>
      exact append_accounts hBooks added hFault
  | flush =>
      simp only [Request.vertices, RenderState.tag_nil,
        List.append_nil]
      exact ⟨(flush_accounts hBooks hFault).1,
        (flush_keeps t).2⟩
  | beforeFrame =>
      simp only [Request.vertices, RenderState.tag_nil,
        List.append_nil]
      exact ⟨(flush_accounts hBooks hFault).1,
        (flush_keeps t).2⟩
  | afterFrame =>
      have hEmpty : t.batch.isEmpty = true :=
        (Batch.isEmpty_iff t.batch).mpr (hRestart rfl)
      simp only [Request.vertices, RenderState.tag_nil,
        List.append_nil]
      exact ⟨hBooks.afterFrame hEmpty, rfl⟩
  | flushFrame =>
      have hFlush : t.flush.fault = none :=
        (flushFrame_fault t).mp hFault
      simp only [Request.vertices, RenderState.tag_nil,
        List.append_nil]
      exact ⟨flushFrame_accounts hBooks hFlush,
        flushFrame_renderState hFlush⟩

------------------------------------------------------------
-- Runs
------------------------------------------------------------

/- A run without fault adds all its vertices in order. -/
theorem run_accounts
    {t : Tracker (Observed β)}
    {history : List (Vertex × RenderState)}
    (hBooks : Accounts t history)
    (requests : List Request)
    (hFault : (t.run requests).fault = none)
    (hRestarts : t.RestartsEmpty requests) :
    Accounts (t.run requests).state
      (history ++
        Request.appended t.renderState requests) := by
  induction requests generalizing t history with
  | nil => simpa [run, Outcome.done, Request.appended]
  | cons request rest ih =>
      rcases run_cons_fault.mp hFault with ⟨hFirst, hRest⟩
      rcases perform_accounts hBooks request hFirst
          hRestarts.1 with
        ⟨hNext, hState⟩
      have hRun := ih hNext hRest hRestarts.2
      rw [run_cons_state hFirst, Request.appended,
        ← List.append_assoc, ← hState]
      exact hRun

/- Restarts are the same with and without observation. -/
theorem restartsEmpty_unobserved
    (t : Tracker (Observed β))
    (requests : List Request) :
    t.unobserved.RestartsEmpty requests ↔
      t.RestartsEmpty requests := by
  induction requests generalizing t with
  | nil => exact Iff.rfl
  | cons request rest ih =>
      have hNext :
          (t.unobserved.perform request).state =
            (t.perform request).state.unobserved := by
        rw [← perform_unobserved]
        rfl
      simp only [RestartsEmpty, hNext, ih]
      rfl

/-
  Exactly once, in order and under the right state.  For
  every run without fault, over any backend and any vertex
  storage whose slots a word counts, the vertices of the
  recorded draws followed by the waiting ones are all
  vertices ever appended, each under the render state in
  force when it was appended; and the counters are those of
  the calls to the backend.
-/
theorem ledger_run
    (backend : β)
    (storage : Array Vertex)
    (hSize : storage.size < 2 ^ 32)
    (requests : List Request)
    (hFault :
      ((fresh backend storage).run requests).fault = none)
    (hRestarts :
      (fresh backend storage).RestartsEmpty requests) :
    let plain := ((fresh backend storage).run requests).state
    let t :=
      ((fresh backend storage).observe.run requests).state
    let history := Request.appended {} requests
    t.unobserved = plain ∧
      t.backend.drawn ++ t.renderState.tag t.waiting =
        history ∧
      t.stats.vertices + t.pending.toNat =
        history.length ∧
      t.stats.draws = t.backend.passes.length ∧
      t.stats.frames = t.backend.submissions := by
  intro plain t history
  have hSame :=
    run_unobserved (fresh backend storage).observe requests
  rw [unobserved_observe] at hSame
  have hObserved :
      ((fresh backend storage).observe.run
        requests).fault = none := by
    rw [← hFault, ← hSame, Outcome.fault_map]
  have hBooks : Accounts t history :=
    run_accounts (fresh_accounts backend hSize) requests
      hObserved
      ((restartsEmpty_unobserved _ requests).mp hRestarts)
  refine
    ⟨?_, hBooks.ledger, ?_, hBooks.draws, hBooks.frames⟩
  · exact congrArg Outcome.state hSame
  · rw [← hBooks.ledger, Tracker.ledger,
      List.length_append, RenderState.length_tag,
      length_waiting hBooks.inStorage, hBooks.vertices]

/- Vertices that are told apart by their depths. -/
def numbered
    (first count : Nat) : List Vertex :=
  (List.range' first count).map fun depth =>
    { Vertex.zero with z := depth.toUInt32 }

/-
  A run with a change of state, a frame that is full in the
  middle of it, a restart by hand and an open batch.
-/
def recyclingRun : List Request :=
  [.append (numbered 1 3),
    .change (.fixedAlpha 7),
    .append (numbered 4 3),
    .append (numbered 7 3),
    .flush,
    .afterFrame,
    .append (numbered 10 1)]

/- A journal over a storage of six vertices. -/
def smallStart : Tracker Journal :=
  fresh {} (Array.replicate 6 Vertex.zero)

/- What that run leaves behind it. -/
def recycled : Tracker (Observed Journal) :=
  (smallStart.observe.run recyclingRun).state

/- The books of that run, vertex by vertex. -/
theorem ledger_run_recycling :
    smallStart.storage.size < 2 ^ 32 ∧
      (smallStart.run recyclingRun).fault = none ∧
      smallStart.RestartsEmpty recyclingRun ∧
      recycled.stats.draws = 3 ∧
      recycled.backend.drawn.map (fun entry => entry.1.z) =
        [1, 2, 3, 4, 5, 6, 7, 8, 9] ∧
      recycled.waiting.map Vertex.z = [10] ∧
      recycled.backend.drawn ++
          recycled.renderState.tag recycled.waiting =
        Request.appended {} recyclingRun := by
  have hSize : smallStart.storage.size < 2 ^ 32 := by
    decide +kernel
  have hFault :
      (smallStart.run recyclingRun).fault = none := by
    decide +kernel
  have hRestarts :
      smallStart.RestartsEmpty recyclingRun :=
    ⟨nofun, nofun, nofun, nofun, nofun,
      fun _ => by decide +kernel, nofun, trivial⟩
  have hLedger :=
    ledger_run ({} : Journal)
      (Array.replicate 6 Vertex.zero) hSize recyclingRun
      hFault hRestarts
  exact
    ⟨hSize, hFault, hRestarts, by decide +kernel,
      by decide +kernel, by decide +kernel, hLedger.2.1⟩

end Tracker

end PagedRaster
