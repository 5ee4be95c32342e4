import PagedRaster.Canvas
import PagedRaster.Proofs.Draw.Waiting

/-
  This file proves that batching is invisible in memory.  A
  tracker over a canvas draws late, in batches and frames;
  after a last flush the memory is the one that shading
  every triangle at its append leaves.

  Key definitions include:
    * `Canvas.Step`
    * `Tracker.takeSteps`
    * `Immediate`, `Immediate.step`, `Immediate.run`
    * `Canvas.Padded`
    * `Tracker.Lags`

  Key theorems include:
    * `Immediate.drawVertices_eq`
    * `Tracker.flush_lags`
    * `Tracker.takeStep_lags`
    * `Tracker.takeSteps_lags`
    * `Tracker.flush_takeSteps_eq_immediate`
-/

namespace PagedRaster

------------------------------------------------------------
-- Steps of the Owner
------------------------------------------------------------

/-
  What the owner of a tracked canvas does: ask the tracker,
  or change memory and palette past it.
-/
inductive Canvas.Step where
  | request (request : Request)
  | edit (change : Memory × Palette → Memory × Palette)

namespace Canvas

namespace Step

/-
  Appends are whole triangles that a frame can hold, and
  the vertex storage is restarted by frames alone.
-/
def Fits
    (capacity : Nat) : Step → Prop
  | .request (.append vertices) =>
      vertices.length % 3 = 0 ∧ vertices.length ≤ capacity
  | .request .afterFrame => False
  | _ => True

/- Memory and palette are changed past the tracker. -/
def isEdit : Step → Bool
  | .edit _ => true
  | .request _ => false

/- A flush or a frame that may be added anywhere. -/
inductive IsPadding : Step → Prop where
  | flush : IsPadding (.request .flush)
  | frame : IsPadding (.request .flushFrame)

end Step

/- The second list adds flushes and frames to the first. -/
inductive Padded : List Step → List Step → Prop where
  | nil : Padded [] []
  | keep
      {steps padded : List Step}
      (step : Step) :
      Padded steps padded →
        Padded (step :: steps) (step :: padded)
  | add
      {steps padded : List Step}
      {step : Step} :
      step.IsPadding → Padded steps padded →
        Padded steps (step :: padded)

/- The canvas after a change of memory and palette. -/
def edit
    (canvas : Canvas)
    (change : Memory × Palette → Memory × Palette) :
    Canvas :=
  let changed := change (canvas.memory, canvas.palette)
  { canvas with
    memory := changed.1
    palette := changed.2 }

end Canvas

namespace Tracker

/- Take one step. -/
def takeStep
    (t : Tracker Canvas) :
    Canvas.Step → Outcome (Tracker Canvas)
  | .request request => t.perform request
  | .edit change =>
      .done { t with backend := t.backend.edit change }

/- Take steps in order, up to the first fault. -/
def takeSteps
    (t : Tracker Canvas) :
    List Canvas.Step → Outcome (Tracker Canvas)
  | [] => .done t
  | step :: rest =>
      (t.takeStep step).andThen fun t => t.takeSteps rest

/- Memory and palette change only while nothing waits. -/
def EditsQuiet
    (t : Tracker Canvas) : List Canvas.Step → Prop
  | [] => True
  | step :: rest =>
      (step.isEdit = true → t.pending = 0) ∧
        (t.takeStep step).state.EditsQuiet rest

end Tracker

------------------------------------------------------------
-- Immediate Drawing
------------------------------------------------------------

/- What drawing without batches keeps. -/
structure Immediate where
  memory : Memory
  palette : Palette
  state : RenderState

namespace Immediate

/- What the fragments drawn now share. -/
def drawState
    (bank : SwizzleBank)
    (m : Immediate) : DrawState where
  descriptor := m.state.descriptor
  params := m.state.params
  bank := bank
  palette := m.palette

/- Shade the pixel of a hit under the state in force. -/
def drawHit
    (bank : SwizzleBank)
    (t : Triangle)
    (m : Immediate)
    (hit : Hit) : Immediate :=
  let shaded :=
    (m.drawState bank).shade m.memory
      (Fragment.interpolate t hit)
  { m with memory := shaded.2 }

/- Shade all pixels that a triangle covers, one by one. -/
def drawTriangle
    (bank : SwizzleBank)
    (m : Immediate)
    (t : Triangle) : Immediate :=
  (t.hits m.state.scissor).foldl (drawHit bank t) m

/- Draw vertices, three by three. -/
def drawVertices
    (bank : SwizzleBank)
    (m : Immediate) : List Vertex → Immediate
  | a :: b :: c :: rest =>
      (m.drawTriangle bank ⟨a, b, c⟩).drawVertices bank rest
  | _ => m

/-
  Draw the vertices of a request at once, under the render
  state in force.
-/
def step
    (bank : SwizzleBank)
    (m : Immediate) : Canvas.Step → Immediate
  | .request request =>
      { m.drawVertices bank request.vertices with
        state := request.nextState m.state }
  | .edit change =>
      let changed := change (m.memory, m.palette)
      { m with
        memory := changed.1
        palette := changed.2 }

/- Take all steps with immediate drawing. -/
def run
    (bank : SwizzleBank)
    (m : Immediate)
    (steps : List Canvas.Step) : Immediate :=
  steps.foldl (step bank) m

/- Added flushes and frames draw nothing. -/
theorem run_padded
    {steps padded : List Canvas.Step}
    (hPadded : Canvas.Padded steps padded)
    (bank : SwizzleBank)
    (m : Immediate) :
    run bank m padded = run bank m steps := by
  induction hPadded generalizing m with
  | nil => rfl
  | keep step hRest ih => exact ih (m.step bank step)
  | add hPadding hRest ih =>
      cases hPadding with
      | flush => exact ih m
      | frame => exact ih m

end Immediate

------------------------------------------------------------
-- Whole Triangles
------------------------------------------------------------

/- Whole triangles in front are read first. -/
theorem Triangle.ofVertices_append
    {first : List Vertex}
    (hWhole : first.length % 3 = 0)
    (second : List Vertex) :
    ofVertices (first ++ second) =
      ofVertices first ++ ofVertices second := by
  induction first using ofVertices.induct with
  | case1 a b c rest ih =>
      have hRest : rest.length % 3 = 0 := by
        simp only [List.length_cons] at hWhole
        omega
      simpa [ofVertices] using ih hRest
  | case2 vertices hShort =>
      rcases vertices with _ | ⟨a, _ | ⟨b, _ | ⟨c, rest⟩⟩⟩
      · rfl
      · simp at hWhole
      · simp at hWhole
      · exact (hShort a b c rest rfl).elim

/- Drawing more triangles goes on from the memory reached. -/
theorem DrawState.drawTriangles_append
    (state : DrawState)
    (scissor : Scissor)
    (memory : Memory)
    (first second : List Triangle) :
    state.drawTriangles scissor memory (first ++ second) =
      state.drawTriangles scissor
        (state.drawTriangles scissor memory first)
        second := by
  simp [drawTriangles]

------------------------------------------------------------
-- Canvases Refine Immediate Drawing
------------------------------------------------------------

namespace Immediate

/- Hits of a triangle go into memory one by one. -/
theorem foldl_drawHit
    (bank : SwizzleBank)
    (t : Triangle)
    (hits : List Hit)
    (m : Immediate) :
    hits.foldl (drawHit bank t) m =
      { m with
        memory :=
          hits.foldl
            (fun memory hit =>
              ((m.drawState bank).shade memory
                (Fragment.interpolate t hit)).2)
            m.memory } := by
  induction hits generalizing m with
  | nil => rfl
  | cons hit rest ih => exact ih (m.drawHit bank t hit)

/- A triangle is drawn as a canvas draws it. -/
theorem drawTriangle_eq
    (bank : SwizzleBank)
    (m : Immediate)
    (t : Triangle) :
    m.drawTriangle bank t =
      { m with
        memory :=
          (m.drawState bank).drawTriangle m.state.scissor
            m.memory t } :=
  foldl_drawHit bank t _ m

/- Vertices are drawn as a canvas draws their triangles. -/
theorem drawVertices_eq
    (bank : SwizzleBank)
    (m : Immediate)
    (vertices : List Vertex) :
    m.drawVertices bank vertices =
      { m with
        memory :=
          (m.drawState bank).drawTriangles m.state.scissor
            m.memory (Triangle.ofVertices vertices) } := by
  induction vertices using Triangle.ofVertices.induct
      generalizing m with
  | case1 a b c rest ih =>
      rw [drawVertices, ih, drawTriangle_eq]
      rfl
  | case2 vertices hShort =>
      rcases vertices with _ | ⟨a, _ | ⟨b, _ | ⟨c, rest⟩⟩⟩
      · rfl
      · rfl
      · rfl
      · exact (hShort a b c rest rfl).elim

end Immediate

------------------------------------------------------------
-- Flushes of a Canvas
------------------------------------------------------------

/- Inserting what belongs to a key keeps a cache so. -/
theorem Cache.get?_insert_property
    {κ α : Type}
    [DecidableEq κ]
    {cache : Cache κ α}
    {Property : κ → α → Prop}
    (hCache :
      ∀ key value,
        cache.get? key = some value → Property key value)
    {added : κ}
    {made : α}
    (hMade : Property added made) :
    ∀ key value,
      (cache.insert added made).get? key = some value →
        Property key value := by
  intro key value hFound
  by_cases hKey : key = added
  · subst hKey
    rw [get?_insert_self] at hFound
    cases hFound
    exact hMade
  · rw [get?_insert_of_ne cache made hKey] at hFound
    exact hCache key value hFound

/- The bindings of a key name the palette it uses. -/
theorem ResourceKey.contains_palette_bindings
    (key : ResourceKey)
    (hUses : key.usesPalette = true) :
    key.bindings.contains .palette = true := by
  simp [bindings, hUses]

namespace Tracker

/-
  What the caches of a tracked canvas hold: the descriptor
  of each program and the bindings of each resource key.
-/
structure Coherent
    (t : Tracker Canvas) : Prop where
  programs :
    ∀ descriptor program,
      t.programs.get? descriptor = some program →
        program = descriptor
  resources :
    ∀ key resources,
      t.resources.get? key = some resources →
        resources = key.bindings

/- A canvas is given the program of the descriptor. -/
theorem prepareProgram_canvas
    {t : Tracker Canvas}
    (hCaches : Coherent t) :
    t.prepareProgram.value.1 = t.descriptor ∧
      t.prepareProgram.value.2.backend = t.backend ∧
      Coherent t.prepareProgram.value.2 := by
  unfold prepareProgram
  split
  · rename_i program hFound
    exact ⟨hCaches.programs _ _ hFound, rfl, hCaches⟩
  · refine ⟨rfl, rfl, ?_, hCaches.resources⟩
    exact Cache.get?_insert_property hCaches.programs rfl

/- A canvas is given the resources of the key. -/
theorem prepareResources_canvas
    {t : Tracker Canvas}
    (hCaches : Coherent t) :
    t.prepareResources.value.1 =
        t.descriptor.resourceKey.bindings ∧
      t.prepareResources.value.2.backend = t.backend ∧
      Coherent t.prepareResources.value.2 := by
  unfold prepareResources
  dsimp only
  split
  · rename_i resources hFound
    exact ⟨hCaches.resources _ _ hFound, rfl, hCaches⟩
  · refine ⟨rfl, rfl, hCaches.programs, ?_⟩
    exact Cache.get?_insert_property hCaches.resources rfl

/- The open batch drawn into its canvas. -/
def drawnCanvas
    (t : Tracker Canvas) : Canvas :=
  t.backend.draw t.descriptor t.params t.scissor
    (Triangle.ofVertices t.waiting)

/- A canvas draws a pass with its program and resources. -/
theorem recordDraw_canvas
    {t : Tracker Canvas}
    (hRange : t.InStorage) :
    Backend.recordDraw t.backend
        (t.pass t.descriptor
          t.descriptor.resourceKey.bindings) =
      .done t.drawnCanvas := by
  have hInside :
      (t.pass t.descriptor
        t.descriptor.resourceKey.bindings).InStorage :=
    ⟨t.batch.first_le_last, hRange.last_le⟩
  have hBound :
      (t.descriptor.usesPalette &&
        !t.descriptor.resourceKey.bindings.contains
          .palette) = false := by
    cases hUses : t.descriptor.usesPalette with
    | false => rfl
    | true =>
        have hContains :=
          t.descriptor.resourceKey.contains_palette_bindings
            hUses
        rw [hContains]
        rfl
  change Canvas.recordDraw _ _ = _
  unfold Canvas.recordDraw
  rw [if_neg (by simpa [pass] using hBound),
    if_pos hInside]
  rfl

/-
  A flush of whole triangles over a canvas cannot fault; it
  draws the open batch into the canvas.
-/
theorem flush_canvas
    {t : Tracker Canvas}
    (hCaches : Coherent t)
    (hRange : t.InStorage)
    (hWhole : t.pending % 3 = 0) :
    t.flush.fault = none ∧
      t.flush.state.backend = t.drawnCanvas ∧
      Coherent t.flush.state ∧
      t.flush.state.batch = t.batch.close := by
  cases hEmpty : t.batch.isEmpty with
  | true =>
      rw [flush_of_isEmpty hEmpty]
      refine ⟨rfl, ?_, hCaches, ?_⟩
      · rw [drawnCanvas, waiting_of_isEmpty hEmpty]
        rfl
      · exact (t.batch.close_of_isEmpty hEmpty).symm
  | false =>
      rcases flush_of_waiting hEmpty hWhole with
        ⟨messages, hFlush⟩
      rcases prepareProgram_canvas hCaches with
        ⟨hProgram, hSameBackend, hCached⟩
      rcases prepareResources_canvas hCached with
        ⟨hResources, hReadyBackend, hReadyCached⟩
      have hFirst := prepareProgram_sameDrawing t
      have hSame := ready_sameDrawing t
      have hDescriptor :
          t.prepareProgram.value.2.descriptor =
            t.descriptor :=
        congrArg RenderState.descriptor hFirst.renderState
      have hBackend : t.ready.backend = t.backend :=
        hReadyBackend.trans hSameBackend
      have hRecord :
          t.ready.record t.descriptor
              t.descriptor.resourceKey.bindings =
            .done (t.ready.drawn t.drawnCanvas) := by
        unfold record
        rw [hSame.pass_eq, hBackend,
          recordDraw_canvas hRange]
        rfl
      rw [hFlush, hProgram, hResources, hDescriptor,
        hRecord]
      refine ⟨rfl, rfl, ?_, ?_⟩
      · exact ⟨hReadyCached.programs,
          hReadyCached.resources⟩
      · exact congrArg Batch.close hSame.batch

------------------------------------------------------------
-- Simulation
------------------------------------------------------------

/-
  The tracked canvas lags behind immediate drawing by its
  open batch: drawing the batch now would give the memory
  of immediate drawing.
-/
structure Lags
    (bank : SwizzleBank)
    (t : Tracker Canvas)
    (m : Immediate) : Prop where
  coherent : Coherent t
  inStorage : t.InStorage
  whole : t.pending % 3 = 0
  bank : t.backend.bank = bank
  palette : t.backend.palette = m.palette
  state : t.renderState = m.state
  memory : t.drawnCanvas.memory = m.memory

/- Drawing into a canvas changes its memory alone. -/
theorem drawnCanvas_eq
    (t : Tracker Canvas) :
    t.drawnCanvas =
      { t.backend with
        memory :=
          (t.backend.drawState t.descriptor
            t.params).drawTriangles t.scissor
              t.backend.memory
              (Triangle.ofVertices t.waiting) } :=
  rfl

/- Nothing is behind when nothing waits. -/
theorem drawnCanvas_of_isEmpty
    {t : Tracker Canvas}
    (hEmpty : t.batch.isEmpty = true) :
    t.drawnCanvas = t.backend := by
  rw [drawnCanvas, waiting_of_isEmpty hEmpty]
  rfl

/- With nothing waiting, the two memories are equal. -/
theorem Lags.memory_eq
    {bank : SwizzleBank}
    {t : Tracker Canvas}
    {m : Immediate}
    (hLags : Lags bank t m)
    (hEmpty : t.batch.isEmpty = true) :
    t.backend.memory = m.memory := by
  rw [← hLags.memory, drawnCanvas_of_isEmpty hEmpty]

/- With nothing waiting, equal memories are enough. -/
theorem lags_of_isEmpty
    {bank : SwizzleBank}
    {t : Tracker Canvas}
    {m : Immediate}
    (hCaches : Coherent t)
    (hRange : t.InStorage)
    (hEmpty : t.batch.isEmpty = true)
    (hBank : t.backend.bank = bank)
    (hPalette : t.backend.palette = m.palette)
    (hState : t.renderState = m.state)
    (hMemory : t.backend.memory = m.memory) :
    Lags bank t m where
  coherent := hCaches
  inStorage := hRange
  whole := by
    have hNone : t.pending = 0 :=
      (Batch.isEmpty_iff t.batch).mp hEmpty
    rw [hNone]
    rfl
  bank := hBank
  palette := hPalette
  state := hState
  memory := by
    rw [drawnCanvas_of_isEmpty hEmpty, hMemory]

/-
  A flush catches up: it cannot fault, nothing waits any
  more, and the canvas has the memory of immediate drawing.
-/
theorem flush_lags
    {bank : SwizzleBank}
    {t : Tracker Canvas}
    {m : Immediate}
    (hLags : Lags bank t m) :
    t.flush.fault = none ∧
      t.flush.state.batch.isEmpty = true ∧
      Lags bank t.flush.state m := by
  rcases flush_canvas hLags.coherent hLags.inStorage
      hLags.whole with
    ⟨hFault, hBackend, hCaches, hBatch⟩
  rcases flush_keeps t with ⟨hStorage, hState⟩
  have hEmpty : t.flush.state.batch.isEmpty = true := by
    rw [hBatch]
    exact t.batch.isEmpty_close
  have hRange : t.flush.state.InStorage :=
    inStorage_close hStorage hBatch hLags.inStorage
  refine ⟨hFault, hEmpty, ?_⟩
  apply lags_of_isEmpty hCaches hRange hEmpty
  · rw [hBackend]
    exact hLags.bank
  · rw [hBackend]
    exact hLags.palette
  · exact hState.trans hLags.state
  · rw [hBackend]
    exact hLags.memory

/- A frame catches up and starts the storage over. -/
theorem flushFrame_lags
    {bank : SwizzleBank}
    {t : Tracker Canvas}
    {m : Immediate}
    (hLags : Lags bank t m) :
    t.flushFrame.fault = none ∧
      Lags bank t.flushFrame.state m := by
  rcases flush_lags hLags with ⟨hFault, hEmpty, hCaught⟩
  refine ⟨(flushFrame_fault t).mpr hFault, ?_⟩
  rw [flushFrame_state hFault]
  exact
    lags_of_isEmpty
      ⟨hCaught.coherent.programs,
        hCaught.coherent.resources⟩
      ⟨Nat.zero_le _, hCaught.inStorage.size_lt⟩ rfl
      hCaught.bank hCaught.palette hCaught.state
      (hCaught.memory_eq hEmpty)

/- Stored triangles are the ones drawn immediately. -/
theorem store_lags
    {bank : SwizzleBank}
    {t : Tracker Canvas}
    {m : Immediate}
    (hLags : Lags bank t m)
    {vertices : List Vertex}
    (hWhole : vertices.length % 3 = 0)
    (hRoom :
      t.batch.last + vertices.length ≤ t.storage.size) :
    (t.store vertices).fault = none ∧
      Lags bank (t.store vertices).state
        (m.step bank (.request (.append vertices))) := by
  have hSize := hLags.inStorage.size_lt
  have hWaits : t.waiting.length % 3 = 0 := by
    rw [← pending_whole_iff hLags.inStorage]
    exact hLags.whole
  have hStored := inStorage_store hSize hRoom
  have hAll := waiting_store hSize hRoom
  have hWholeAll :
      (t.store vertices).state.pending % 3 = 0 := by
    rw [pending_whole_iff hStored, hAll,
      List.length_append]
    omega
  have hMemory := hLags.memory
  have hState := hLags.state
  rcases store_of_room hSize hRoom with
    ⟨grown, hDone, hFirst, hLast⟩
  rw [hDone] at hStored hAll hWholeAll ⊢
  refine ⟨rfl, ?_⟩
  exact
    { coherent :=
        ⟨hLags.coherent.programs, hLags.coherent.resources⟩
      inStorage := hStored
      whole := hWholeAll
      bank := hLags.bank
      palette := by
        rw [Immediate.step, Immediate.drawVertices_eq]
        exact hLags.palette
      state := hLags.state
      memory := by
        rw [drawnCanvas_eq] at hMemory ⊢
        rw [hAll, Triangle.ofVertices_append hWaits,
          Immediate.step, Immediate.drawVertices_eq]
        simp only [Request.vertices, Immediate.drawState,
          ← hState, ← hMemory, ← hLags.palette, ← hLags.bank]
        exact DrawState.drawTriangles_append _ _ _ _ _ }

/- An append that fits is drawn immediately or later. -/
theorem append_lags
    {bank : SwizzleBank}
    {t : Tracker Canvas}
    {m : Immediate}
    (hLags : Lags bank t m)
    {vertices : List Vertex}
    (hWhole : vertices.length % 3 = 0)
    (hFits : vertices.length ≤ t.storage.size) :
    (t.append vertices).fault = none ∧
      Lags bank (t.append vertices).state
        (m.step bank (.request (.append vertices))) := by
  rcases flush_lags hLags with ⟨hFlush, hEmpty, hCaught⟩
  rcases flushFrame_lags hLags with ⟨hFrame, hLater⟩
  unfold append
  by_cases hRoom : t.hasRoom vertices = true
  · rw [if_pos hRoom]
    exact store_lags hLags hWhole
      ((hasRoom_iff t vertices).mp hRoom)
  · have hSize :
        vertices.length ≤
          t.flushFrame.state.storage.size := by
      rw [flushFrame_storage hFlush]
      exact hFits
    rw [if_neg hRoom, Outcome.fault_after,
      Outcome.state_after, Outcome.fault_andThen hFrame,
      Outcome.state_andThen hFrame, if_pos hSize]
    exact store_lags hLater hWhole
      (room_flushFrame hFlush hFits)

/- A change of state catches up before it is made. -/
theorem change_lags
    {bank : SwizzleBank}
    {t : Tracker Canvas}
    {m : Immediate}
    (hLags : Lags bank t m)
    (change : Change) :
    (t.change change).fault = none ∧
      Lags bank (t.change change).state
        (m.step bank (.request (.change change))) := by
  rw [change_eq]
  split
  · rename_i hSame
    refine ⟨rfl, ?_⟩
    exact
      { coherent := hLags.coherent
        inStorage := hLags.inStorage
        whole := hLags.whole
        bank := hLags.bank
        palette := hLags.palette
        state := by
          rw [hLags.state] at hSame
          exact hLags.state.trans hSame.symm
        memory := hLags.memory }
  · rcases flush_lags hLags with ⟨hFault, hEmpty, hCaught⟩
    rw [Outcome.fault_andThen hFault,
      Outcome.state_andThen hFault]
    refine ⟨rfl, ?_⟩
    exact
      lags_of_isEmpty
        ⟨hCaught.coherent.programs,
          hCaught.coherent.resources⟩
        (hCaught.inStorage.of_same rfl rfl) hEmpty
        hCaught.bank
        hCaught.palette (congrArg change.apply hLags.state)
        (hCaught.memory_eq hEmpty)

/- A quiet edit changes both memories in the same way. -/
theorem edit_lags
    {bank : SwizzleBank}
    {t : Tracker Canvas}
    {m : Immediate}
    (hLags : Lags bank t m)
    (change : Memory × Palette → Memory × Palette)
    (hQuiet : t.pending = 0) :
    Lags bank
      { t with backend := t.backend.edit change }
      (m.step bank (.edit change)) := by
  have hEmpty : t.batch.isEmpty = true :=
    (Batch.isEmpty_iff t.batch).mpr hQuiet
  have hBoth :
      (t.backend.memory, t.backend.palette) =
        (m.memory, m.palette) := by
    rw [hLags.memory_eq hEmpty, hLags.palette]
  exact
    lags_of_isEmpty
      ⟨hLags.coherent.programs, hLags.coherent.resources⟩
      (hLags.inStorage.of_same rfl rfl) hEmpty hLags.bank
      (congrArg (fun both => (change both).2) hBoth)
      hLags.state
      (congrArg (fun both => (change both).1) hBoth)

/- Every step that fits keeps the tracker behind. -/
theorem takeStep_lags
    {bank : SwizzleBank}
    {t : Tracker Canvas}
    {m : Immediate}
    (hLags : Lags bank t m)
    {step : Canvas.Step}
    (hFits : step.Fits t.storage.size)
    (hQuiet : step.isEdit = true → t.pending = 0) :
    (t.takeStep step).fault = none ∧
      Lags bank (t.takeStep step).state
        (m.step bank step) := by
  cases step with
  | edit change =>
      exact ⟨rfl, edit_lags hLags change (hQuiet rfl)⟩
  | request request =>
      cases request with
      | change wanted => exact change_lags hLags wanted
      | append added =>
          exact append_lags hLags hFits.1 hFits.2
      | flush =>
          have hFlush := flush_lags hLags
          exact ⟨hFlush.1, hFlush.2.2⟩
      | beforeFrame =>
          have hFlush := flush_lags hLags
          exact ⟨hFlush.1, hFlush.2.2⟩
      | afterFrame => exact hFits.elim
      | flushFrame => exact flushFrame_lags hLags

/- A step without fault keeps the size of the storage. -/
theorem takeStep_size
    {t : Tracker Canvas}
    {step : Canvas.Step}
    (hFault : (t.takeStep step).fault = none) :
    (t.takeStep step).state.storage.size =
      t.storage.size := by
  cases step with
  | edit change => rfl
  | request request => exact perform_size hFault

------------------------------------------------------------
-- Runs
------------------------------------------------------------

/- Steps that fit keep the tracker behind. -/
theorem takeSteps_lags
    {bank : SwizzleBank}
    {t : Tracker Canvas}
    {m : Immediate}
    (hLags : Lags bank t m)
    {steps : List Canvas.Step}
    (hFits : ∀ step ∈ steps, step.Fits t.storage.size)
    (hQuiet : t.EditsQuiet steps) :
    (t.takeSteps steps).fault = none ∧
      Lags bank (t.takeSteps steps).state
        (m.run bank steps) := by
  induction steps generalizing t m with
  | nil => exact ⟨rfl, hLags⟩
  | cons step rest ih =>
      rcases takeStep_lags hLags
          (hFits step List.mem_cons_self) hQuiet.1 with
        ⟨hFault, hNext⟩
      have hRest :
          ∀ later ∈ rest,
            later.Fits
              (t.takeStep step).state.storage.size := by
        intro later hLater
        rw [takeStep_size hFault]
        exact hFits later (List.mem_cons_of_mem step hLater)
      rw [takeSteps, Outcome.fault_andThen hFault,
        Outcome.state_andThen hFault]
      exact ih hNext hRest hQuiet.2

/-
  Whether nothing waits after a step, by whether nothing
  waited before.  The size of the storage has no part in
  it.
-/
def QuietAfter
    (state : RenderState)
    (quiet : Prop) : Canvas.Step → Prop
  | .edit _ => quiet
  | .request (.change change) =>
      quiet ∨ change.apply state ≠ state
  | .request (.append vertices) => quiet ∧ vertices = []
  | .request _ => True

/- Vertices wait after every append that hands some over. -/
theorem pending_append
    {t : Tracker Canvas}
    (hRange : t.InStorage)
    {vertices : List Vertex}
    (hFault : (t.append vertices).fault = none) :
    (t.append vertices).state.pending = 0 ↔
      t.pending = 0 ∧ vertices = [] := by
  have hSize := hRange.size_lt
  have hLast := hRange.last_le
  rcases append_cases hFault with
    ⟨hRoom, hState⟩ | ⟨hFull, hFlush, hFits, hState⟩
  · rw [hState,
      pending_eq_zero_iff (inStorage_store hSize hRoom),
      pending_eq_zero_iff hRange,
      waiting_store hSize hRoom, List.append_eq_nil_iff]
  · -- What opens a new frame is not the empty append.
    have hSome : vertices ≠ [] := by
      rintro rfl
      simp only [List.length_nil] at hFull
      omega
    have hFrame := flushFrame_storage hFlush
    have hNext : t.flushFrame.state.storage.size < 2 ^ 32 := by
      rw [hFrame]
      exact hSize
    have hRoom := room_flushFrame hFlush hFits
    rw [hState,
      pending_eq_zero_iff (inStorage_store hNext hRoom),
      waiting_store hNext hRoom, List.append_eq_nil_iff]
    simp [hSome]

/- The law of `QuietAfter`. -/
theorem takeStep_quiet
    {bank : SwizzleBank}
    {t : Tracker Canvas}
    {m : Immediate}
    (hLags : Lags bank t m)
    {step : Canvas.Step}
    (hFits : step.Fits t.storage.size)
    (hQuiet : step.isEdit = true → t.pending = 0) :
    (t.takeStep step).state.pending = 0 ↔
      QuietAfter t.renderState (t.pending = 0) step := by
  rcases flush_lags hLags with ⟨hFlush, hEmpty, _⟩
  have hFlushed : t.flush.state.pending = 0 :=
    (Batch.isEmpty_iff t.flush.state.batch).mp hEmpty
  have hFault := (takeStep_lags hLags hFits hQuiet).1
  cases step with
  | edit change => exact Iff.rfl
  | request request =>
      cases request with
      | change wanted =>
          simp only [takeStep, perform, QuietAfter]
          rw [change_eq]
          split
          · rename_i hSame
            simp [hSame, Outcome.done]
          · rename_i hChanged
            rw [Outcome.state_andThen hFlush]
            simp only [ne_eq, hChanged, not_false_eq_true,
              or_true, iff_true]
            exact hFlushed
      | append added =>
          exact pending_append hLags.inStorage hFault
      | flush => exact iff_of_true hFlushed trivial
      | beforeFrame => exact iff_of_true hFlushed trivial
      | afterFrame => exact hFits.elim
      | flushFrame =>
          have hNone : t.flushFrame.state.pending = 0 := by
            rw [pending, flushFrame_batch hFlush]
            rfl
          exact iff_of_true hNone trivial

/- The quieter of two trackers stays the quieter one. -/
theorem quietAfter_mono
    {state : RenderState}
    {quiet quieter : Prop}
    (hQuieter : quiet → quieter)
    {step : Canvas.Step}
    (hQuiet : QuietAfter state quiet step) :
    QuietAfter state quieter step := by
  cases step with
  | edit change => exact hQuieter hQuiet
  | request request =>
      cases request with
      | change wanted => exact hQuiet.imp_left hQuieter
      | append added => exact ⟨hQuieter hQuiet.1, hQuiet.2⟩
      | flush => trivial
      | beforeFrame => trivial
      | afterFrame => trivial
      | flushFrame => trivial

/- Added flushes and frames fit every storage. -/
theorem fits_padded
    {capacity : Nat}
    {steps padded : List Canvas.Step}
    (hPadded : Canvas.Padded steps padded)
    (hFits : ∀ step ∈ steps, step.Fits capacity) :
    ∀ step ∈ padded, step.Fits capacity := by
  induction hPadded with
  | nil => exact hFits
  | keep step hRest ih =>
      intro other hOther
      rcases List.mem_cons.mp hOther with rfl | hLater
      · exact hFits other List.mem_cons_self
      · exact
          ih (fun later hMem =>
            hFits later (List.mem_cons_of_mem step hMem))
            other hLater
  | add hPadding hRest ih =>
      intro other hOther
      rcases List.mem_cons.mp hOther with rfl | hLater
      · cases hPadding with
        | flush => trivial
        | frame => trivial
      · exact ih hFits other hLater

/-
  Edits that are quiet in one run are quiet with any other
  storage that holds the appends, and with flushes and
  frames added anywhere.
-/
theorem editsQuiet_padded
    {bank : SwizzleBank}
    {t u : Tracker Canvas}
    {m : Immediate}
    {steps padded : List Canvas.Step}
    (hPadded : Canvas.Padded steps padded)
    (hT : Lags bank t m)
    (hU : Lags bank u m)
    (hQuieter : t.pending = 0 → u.pending = 0)
    (hFitsT : ∀ step ∈ steps, step.Fits t.storage.size)
    (hFitsU : ∀ step ∈ steps, step.Fits u.storage.size)
    (hQuiet : t.EditsQuiet steps) :
    u.EditsQuiet padded := by
  induction hPadded generalizing t u m with
  | nil => trivial
  | keep step hRest ih =>
      have hStepT := hFitsT step List.mem_cons_self
      have hStepU := hFitsU step List.mem_cons_self
      have hEdit : step.isEdit = true → u.pending = 0 :=
        fun hIs => hQuieter (hQuiet.1 hIs)
      rcases takeStep_lags hT hStepT hQuiet.1 with
        ⟨hFaultT, hNextT⟩
      rcases takeStep_lags hU hStepU hEdit with
        ⟨hFaultU, hNextU⟩
      have hState : t.renderState = u.renderState :=
        hT.state.trans hU.state.symm
      refine ⟨hEdit, ih hNextT hNextU ?_ ?_ ?_ hQuiet.2⟩
      · rw [takeStep_quiet hT hStepT hQuiet.1,
          takeStep_quiet hU hStepU hEdit, hState]
        exact quietAfter_mono hQuieter
      · intro later hLater
        rw [takeStep_size hFaultT]
        exact hFitsT later (List.mem_cons_of_mem step hLater)
      · intro later hLater
        rw [takeStep_size hFaultU]
        exact hFitsU later (List.mem_cons_of_mem step hLater)
  | add hPadding hRest ih =>
      rename_i rest added padding
      have hFits : padding.Fits u.storage.size := by
        cases hPadding with
        | flush => trivial
        | frame => trivial
      have hNoEdit :
          padding.isEdit = true → u.pending = 0 := by
        cases hPadding with
        | flush => nofun
        | frame => nofun
      rcases takeStep_lags hU hFits hNoEdit with
        ⟨hFault, hNext⟩
      have hSame : m.step bank padding = m := by
        cases hPadding with
        | flush => rfl
        | frame => rfl
      rw [hSame] at hNext
      refine
        ⟨hNoEdit, ih hT hNext ?_ hFitsT ?_ hQuiet⟩
      · intro _
        rw [takeStep_quiet hU hFits hNoEdit]
        cases hPadding with
        | flush => trivial
        | frame => trivial
      · intro later hLater
        rw [takeStep_size hFault]
        exact hFitsU later hLater

/- The caches of a fresh tracker hold nothing. -/
theorem fresh_coherent
    (canvas : Canvas)
    (storage : Array Vertex) :
    Coherent (fresh canvas storage) := by
  constructor
  · intro descriptor program hFound
    cases hFound
  · intro key resources hFound
    cases hFound

/- A fresh tracker has nothing to catch up with. -/
theorem fresh_lags
    (canvas : Canvas)
    {storage : Array Vertex}
    (hSize : storage.size < 2 ^ 32) :
    Lags canvas.bank (fresh canvas storage)
      ⟨canvas.memory, canvas.palette, {}⟩ :=
  lags_of_isEmpty (fresh_coherent canvas storage)
    ⟨Nat.zero_le _, hSize⟩ rfl rfl rfl rfl rfl

/- The memory after all steps and a last flush. -/
def finish
    (t : Tracker Canvas)
    (steps : List Canvas.Step) : Outcome (Tracker Canvas) :=
  (t.takeSteps steps).andThen flush

/- A finished run has the memory of immediate drawing. -/
theorem finish_of_lags
    {bank : SwizzleBank}
    {t : Tracker Canvas}
    {m : Immediate}
    (hLags : Lags bank t m)
    {steps : List Canvas.Step}
    (hFits : ∀ step ∈ steps, step.Fits t.storage.size)
    (hQuiet : t.EditsQuiet steps) :
    (t.finish steps).fault = none ∧
      (t.finish steps).state.backend.memory =
        (m.run bank steps).memory := by
  rcases takeSteps_lags hLags hFits hQuiet with
    ⟨hFault, hAfter⟩
  rcases flush_lags hAfter with ⟨hFlush, hEmpty, hCaught⟩
  rw [finish, Outcome.fault_andThen hFault,
    Outcome.state_andThen hFault]
  exact ⟨hFlush, hCaught.memory_eq hEmpty⟩

/-
  Batching is invisible in memory.  A run whose appends are
  whole triangles that fit, and whose edits are quiet, has
  no fault and ends in the memory of immediate drawing.
  With any other storage that holds the appends, and with
  flushes and frames added anywhere, it ends in the same
  memory.
-/
theorem flush_takeSteps_eq_immediate
    (canvas : Canvas)
    (storage : Array Vertex)
    (hSize : storage.size < 2 ^ 32)
    (steps : List Canvas.Step)
    (hFits : ∀ step ∈ steps, step.Fits storage.size)
    (hQuiet : (fresh canvas storage).EditsQuiet steps) :
    ((fresh canvas storage).finish steps).fault = none ∧
      ((fresh canvas storage).finish
          steps).state.backend.memory =
        (Immediate.run canvas.bank
          ⟨canvas.memory, canvas.palette, {}⟩
          steps).memory ∧
      ∀ (other : Array Vertex) (padded : List Canvas.Step),
        other.size < 2 ^ 32 →
        (∀ step ∈ steps, step.Fits other.size) →
        Canvas.Padded steps padded →
        (fresh canvas other).EditsQuiet padded ∧
          ((fresh canvas other).finish padded).fault =
            none ∧
          ((fresh canvas other).finish
              padded).state.backend.memory =
            ((fresh canvas storage).finish
              steps).state.backend.memory := by
  have hStart := fresh_lags canvas hSize
  rcases finish_of_lags hStart hFits hQuiet with
    ⟨hFault, hMemory⟩
  refine ⟨hFault, hMemory, ?_⟩
  intro other padded hOtherSize hOther hPadded
  have hOtherStart := fresh_lags canvas hOtherSize
  have hOtherQuiet :
      (fresh canvas other).EditsQuiet padded :=
    editsQuiet_padded hPadded hStart hOtherStart id hFits
      hOther hQuiet
  rcases finish_of_lags hOtherStart (fits_padded hPadded
      hOther) hOtherQuiet with
    ⟨hOtherFault, hOtherMemory⟩
  refine ⟨hOtherQuiet, hOtherFault, ?_⟩
  rw [hOtherMemory, Immediate.run_padded hPadded, hMemory]

/- A triangle of one colour in the corner of the area. -/
def corner
    (color : UInt32) : List Vertex :=
  [{ Vertex.zero with color := color },
    { Vertex.zero with x := 1.5, color := color },
    { Vertex.zero with y := 1.5, color := color }]

/-
  A bank that has all pixels of a page at the start of the
  page, where memory shows which one was drawn last.
-/
def flatBank : SwizzleBank :=
  SwizzleBank.ofTables
    (PixelFormat.all.map fun format : PixelFormat =>
      ⟨format.storage, Vector.replicate _ 0⟩)
    (by
      rw [SwizzleBank.Fits, List.map_map]
      rfl)

/-
  A run over a storage of six vertices whose frame is full
  at its third append, with an edit of memory and palette.
-/
def editedRun : List Canvas.Step :=
  [.request (.change (.frame 0 64 0xFFFFFFFF)),
    .request (.append (corner 0xFF0000FF)),
    .request (.change (.frame 4 64 0xFFFFFFFF)),
    .request (.append (corner 0xFF00FF00)),
    .request (.append (corner 0xFFFF0000)),
    .request .flush,
    .edit fun contents =>
      (contents.1.write .w32 8 7, Palette.blank),
    .request (.change (.frame 12 64 0xFFFFFFFF)),
    .request (.append (corner 0xFFFFFFFF))]

/- Its memory under immediate drawing. -/
def editedMemory : Memory :=
  (Immediate.run flatBank
    ⟨Memory.empty, Palette.blank, {}⟩ editedRun).memory

/-
  It ends in that memory, with three pixels drawn and one
  edited, whatever the size of the storage.
-/
theorem flush_editedRun_eq_immediate :
    (∀ step ∈ editedRun, step.Fits 6) ∧
      (fresh (Canvas.create flatBank)
        (Array.replicate 6 Vertex.zero)).EditsQuiet
          editedRun ∧
      [0, 4, 8, 12].map (editedMemory.read .w32) =
        [0xFF0000FF, 0xFFFF0000, 7, 0xFFFFFFFF] ∧
      ((fresh (Canvas.create flatBank)
          (Array.replicate 6 Vertex.zero)).finish
            editedRun).state.backend.memory =
        editedMemory ∧
      ((fresh (Canvas.create flatBank)
          (Array.replicate 3 Vertex.zero)).finish
            (.request .flushFrame ::
              editedRun)).state.backend.memory =
        editedMemory := by
  have hFits :
      ∀ step ∈ editedRun,
        step.Fits (Array.replicate 6 Vertex.zero).size := by
    simp [editedRun, corner, Canvas.Step.Fits]
  have hSmall :
      ∀ step ∈ editedRun,
        step.Fits (Array.replicate 3 Vertex.zero).size := by
    simp [editedRun, corner, Canvas.Step.Fits]
  have hQuiet :
      (fresh (Canvas.create flatBank)
        (Array.replicate 6 Vertex.zero)).EditsQuiet
          editedRun :=
    ⟨nofun, nofun, nofun, nofun, nofun, nofun,
      fun _ => by decide +kernel, nofun, nofun, trivial⟩
  have hDrawn :
      [0, 4, 8, 12].map (editedMemory.read .w32) =
        [0xFF0000FF, 0xFFFF0000, 7, 0xFFFFFFFF] := by
    decide +kernel
  rcases flush_takeSteps_eq_immediate
      (Canvas.create flatBank)
      (Array.replicate 6 Vertex.zero) (by decide) editedRun
      hFits hQuiet with
    ⟨-, hMemory, hSame⟩
  have hPadded :
      Canvas.Padded editedRun
        (.request .flushFrame :: editedRun) :=
    .add .frame (.keep _ (.keep _ (.keep _ (.keep _
      (.keep _ (.keep _ (.keep _ (.keep _
        (.keep _ .nil)))))))))
  have hOther :=
    (hSame (Array.replicate 3 Vertex.zero) _ (by decide)
      hSmall hPadded).2.2
  exact
    ⟨hFits, hQuiet, hDrawn, hMemory, hOther.trans hMemory⟩

end Tracker

end PagedRaster
