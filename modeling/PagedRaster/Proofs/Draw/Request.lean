import PagedRaster.Draw.Tracker

/-
  This file defines the requests that a tracker answers, as
  data, and runs of requests.  A run goes on until a fault
  stops it.

  Key definitions include:
    * `RenderState`
    * `Change`, `Change.apply`
    * `Request`
    * `Tracker.perform`
    * `Tracker.run`
    * `Tracker.InForce`

  Key theorems include:
    * `Tracker.flush_cases`
    * `Tracker.change_eq`
    * `Tracker.change_cases`, `Tracker.change_keeps`
    * `Tracker.run_cons_fault`
-/

namespace PagedRaster

------------------------------------------------------------
-- Requests
------------------------------------------------------------

/- What vertices are drawn under. -/
structure RenderState where
  descriptor : Descriptor := {}
  params : Params := {}
  scissor : Scissor := {}
  deriving DecidableEq, Repr

/- A change of the render state, one for each setter. -/
inductive Change where
  | descriptor (descriptor : Descriptor)
  | frame (address width mask : UInt32)
  | depth (address width : UInt32)
  | texture
      (address bufferWidth width height offset : UInt32)
  | textureAlpha (alpha0 alpha1 : UInt32)
  | alphaReference (reference : UInt32)
  | wrapBounds (lowU lowV highU highV : UInt32)
  | fixedAlpha (alpha : UInt32)
  | scissor (scissor : Scissor)
  deriving DecidableEq, Repr

/- The render state after a change. -/
def Change.apply
    (change : Change)
    (state : RenderState) : RenderState :=
  match change with
  | .descriptor value =>
      { state with descriptor := value }
  | .frame address width mask =>
      { state with
        params :=
          { state.params with
            frameAddress := address
            frameWidth := width
            writeMask := mask } }
  | .depth address width =>
      { state with
        params :=
          { state.params with
            depthAddress := address
            depthWidth := width } }
  | .texture address bufferWidth width height offset =>
      { state with
        params :=
          { state.params with
            textureAddress := address
            textureBufferWidth := bufferWidth
            textureWidth := width
            textureHeight := height
            paletteOffset := offset } }
  | .textureAlpha alpha0 alpha1 =>
      { state with
        params :=
          { state.params with
            alpha0 := alpha0
            alpha1 := alpha1 } }
  | .alphaReference reference =>
      { state with
        params :=
          { state.params with
            alphaReference := reference } }
  | .wrapBounds lowU lowV highU highV =>
      { state with
        params :=
          { state.params with
            lowU := lowU
            lowV := lowV
            highU := highU
            highV := highV } }
  | .fixedAlpha alpha =>
      { state with
        params := { state.params with fixedAlpha := alpha } }
  | .scissor value =>
      { state with scissor := value }

/- An operation that is asked of a tracker. -/
inductive Request where
  | change (change : Change)
  | append (vertices : List Vertex)
  | flush
  | beforeFrame
  | afterFrame
  | flushFrame

namespace Request

/- The vertices that a request hands over. -/
def vertices : Request → List Vertex
  | .append added => added
  | _ => []

/- The render state that a request leads to. -/
def nextState
    (request : Request)
    (state : RenderState) : RenderState :=
  match request with
  | .change wanted => wanted.apply state
  | _ => state

end Request

------------------------------------------------------------
-- Performing Requests
------------------------------------------------------------

namespace Tracker

variable {β P R : Type}
variable [Backend β P R]

/- What the open batch is drawn under. -/
def renderState
    (t : Tracker β) : RenderState where
  descriptor := t.descriptor
  params := t.params
  scissor := t.scissor

/- The tracker under another render state. -/
def withRenderState
    (t : Tracker β)
    (state : RenderState) : Tracker β :=
  { t with
    descriptor := state.descriptor
    params := state.params
    scissor := state.scissor }

/- Call the setter of a change. -/
def change
    (t : Tracker β) : Change → Outcome (Tracker β)
  | .descriptor descriptor => t.setDescriptor descriptor
  | .frame address width mask =>
      t.setFrame address width mask
  | .depth address width => t.setDepth address width
  | .texture address bufferWidth width height offset =>
      t.setTexture address bufferWidth width height offset
  | .textureAlpha alpha0 alpha1 =>
      t.setTextureAlpha alpha0 alpha1
  | .alphaReference reference =>
      t.setAlphaReference reference
  | .wrapBounds lowU lowV highU highV =>
      t.setWrapBounds lowU lowV highU highV
  | .fixedAlpha alpha => t.setFixedAlpha alpha
  | .scissor scissor => t.setScissor scissor

/- Perform one request. -/
def perform
    (t : Tracker β) : Request → Outcome (Tracker β)
  | .change change => t.change change
  | .append vertices => t.append vertices
  | .flush => t.flush
  | .beforeFrame => t.beforeFrame
  | .afterFrame => .done t.afterFrame
  | .flushFrame => t.flushFrame

/- Perform requests in order, up to the first fault. -/
def run
    (t : Tracker β) : List Request → Outcome (Tracker β)
  | [] => .done t
  | request :: rest =>
      (t.perform request).andThen fun t => t.run rest

/- A fresh tracker over a backend with a vertex storage. -/
def fresh
    (backend : β)
    (storage : Array Vertex) : Tracker β :=
  { (create backend storage.size).value with
    storage := storage }

end Tracker

------------------------------------------------------------
-- Sequences Without Faults
------------------------------------------------------------

namespace Outcome

variable {σ τ : Type}

/- A sequence is without fault when both parts are. -/
theorem andThen_fault_eq_none
    {outcome : Outcome σ}
    {next : σ → Outcome σ} :
    (outcome.andThen next).fault = none ↔
      outcome.fault = none ∧
        (next outcome.state).fault = none := by
  rcases outcome with ⟨state, messages, fault⟩
  cases fault with
  | none => simp [andThen, after]
  | some fault => simp [andThen]

/- Only the state reached decides how work goes on. -/
theorem andThen_congr
    {outcome : Outcome σ}
    {next other : σ → Outcome σ}
    (hNext : next outcome.state = other outcome.state) :
    outcome.andThen next = outcome.andThen other := by
  rcases outcome with ⟨state, messages, fault⟩
  cases fault with
  | none => simpa [andThen] using congrArg _ hNext
  | some fault => rfl

/- A property of the state reached holds after a sequence. -/
theorem andThen_keeps
    {Property : σ → Prop}
    {outcome : Outcome σ}
    {next : σ → Outcome σ}
    (hReached : Property outcome.state)
    (hNext :
      ∀ state, Property state →
        Property (next state).state) :
    Property (outcome.andThen next).state := by
  cases hFault : outcome.fault with
  | none =>
      rw [state_andThen hFault]
      exact hNext _ hReached
  | some fault =>
      rw [andThen_of_fault hFault]
      exact hReached

end Outcome

------------------------------------------------------------
-- What a Flush Keeps
------------------------------------------------------------

namespace Tracker

variable {β P R : Type}
variable [Backend β P R]

/-
  Making programs and resources touches the backend, the
  caches and their two counters, and nothing that the next
  draw is made of.
-/
structure SameDrawing
    (t u : Tracker β) : Prop where
  storage : u.storage = t.storage
  renderState : u.renderState = t.renderState
  batch : u.batch = t.batch
  draws : u.stats.draws = t.stats.draws
  vertices : u.stats.vertices = t.stats.vertices
  frames : u.stats.frames = t.stats.frames

/- Making a program keeps the drawing. -/
theorem prepareProgram_sameDrawing
    (t : Tracker β) :
    SameDrawing t t.prepareProgram.value.2 := by
  unfold prepareProgram
  split
  · exact ⟨rfl, rfl, rfl, rfl, rfl, rfl⟩
  · exact ⟨rfl, rfl, rfl, rfl, rfl, rfl⟩

/- Making resources keeps the drawing. -/
theorem prepareResources_sameDrawing
    (t : Tracker β) :
    SameDrawing t t.prepareResources.value.2 := by
  unfold prepareResources
  dsimp only
  split
  · exact ⟨rfl, rfl, rfl, rfl, rfl, rfl⟩
  · exact ⟨rfl, rfl, rfl, rfl, rfl, rfl⟩

/- The same drawing carries over a second time. -/
theorem SameDrawing.trans
    {t u v : Tracker β}
    (hFirst : SameDrawing t u)
    (hSecond : SameDrawing u v) :
    SameDrawing t v where
  storage := hSecond.storage.trans hFirst.storage
  renderState := hSecond.renderState.trans hFirst.renderState
  batch := hSecond.batch.trans hFirst.batch
  draws := hSecond.draws.trans hFirst.draws
  vertices := hSecond.vertices.trans hFirst.vertices
  frames := hSecond.frames.trans hFirst.frames

/- The draw of a batch is made of what stays the same. -/
theorem SameDrawing.pass_eq
    {t u : Tracker β}
    (hSame : SameDrawing t u)
    (program : P)
    (resources : R) :
    u.pass program resources = t.pass program resources := by
  have hState := hSame.renderState
  simp only [Tracker.renderState, RenderState.mk.injEq]
    at hState
  simp only [pass, hState, hSame.storage, hSame.batch]

/- The tracker that a flush is about to draw from. -/
def ready
    (t : Tracker β) : Tracker β :=
  t.prepareProgram.value.2.prepareResources.value.2

/- Getting ready keeps the drawing. -/
theorem ready_sameDrawing
    (t : Tracker β) :
    SameDrawing t t.ready :=
  (prepareProgram_sameDrawing t).trans
    (prepareResources_sameDrawing _)

/- Whole triangles that wait are recorded as one draw. -/
theorem flush_of_waiting
    {t : Tracker β}
    (hWaiting : t.batch.isEmpty = false)
    (hWhole : t.batch.count % 3 = 0) :
    ∃ messages,
      t.flush =
        (t.ready.record t.prepareProgram.value.1
          t.prepareProgram.value.2.prepareResources.value.1
        ).after messages := by
  refine
    ⟨t.prepareProgram.messages ++
      t.prepareProgram.value.2.prepareResources.messages ++
      [t.ready.flushMessage], ?_⟩
  unfold flush
  rw [if_neg (by simp [hWaiting]),
    if_neg (by simp [hWhole])]
  rfl

/-
  A flush records what waits, or it leaves everything as it
  is: there is nothing to draw, or the batch ends inside of
  a triangle.
-/
theorem flush_cases
    (t : Tracker β) :
    (∃ messages,
      t.flush =
        (t.ready.record t.prepareProgram.value.1
          t.prepareProgram.value.2.prepareResources.value.1
        ).after messages) ∨
      t.flush = .done t ∨
      t.flush =
        .stopped t (.partialBatch t.batch.count) := by
  cases hEmpty : t.batch.isEmpty with
  | true =>
      rw [flush, if_pos hEmpty]
      exact Or.inr (Or.inl rfl)
  | false =>
      by_cases hWhole : t.batch.count % 3 = 0
      · exact Or.inl (flush_of_waiting hEmpty hWhole)
      · rw [flush, if_neg (by simp [hEmpty]),
          if_pos hWhole]
        exact Or.inr (Or.inr rfl)

/- Recording a draw keeps storage and render state. -/
theorem record_keeps
    (t : Tracker β)
    (program : P)
    (resources : R) :
    (t.record program resources).state.storage =
        t.storage ∧
      (t.record program resources).state.renderState =
        t.renderState := by
  unfold record
  split
  · exact ⟨rfl, rfl⟩
  · exact ⟨rfl, rfl⟩

/- Recording a draw faults as the backend does. -/
theorem record_fault
    (t : Tracker β)
    (program : P)
    (resources : R) :
    (t.record program resources).fault =
      (Backend.recordDraw t.backend
        (t.pass program resources)).fault := by
  unfold record
  split
  · rename_i hRecorded
    rw [hRecorded]
  · rename_i hRecorded
    rw [hRecorded]

/- A flush keeps storage and render state, fault or not. -/
theorem flush_keeps
    (t : Tracker β) :
    t.flush.state.storage = t.storage ∧
      t.flush.state.renderState = t.renderState := by
  rcases flush_cases t with
    ⟨messages, hFlush⟩ | hFlush | hFlush
  · have hRecord :=
      record_keeps t.ready t.prepareProgram.value.1
        t.prepareProgram.value.2.prepareResources.value.1
    have hReady := ready_sameDrawing t
    rw [hFlush, Outcome.state_after]
    exact ⟨hRecord.1.trans hReady.storage,
      hRecord.2.trans hReady.renderState⟩
  · rw [hFlush]
    exact ⟨rfl, rfl⟩
  · rw [hFlush]
    exact ⟨rfl, rfl⟩

/- A flush without fault finds whole triangles. -/
theorem whole_of_flush
    {t : Tracker β}
    (hWaiting : t.batch.isEmpty = false)
    (hFault : t.flush.fault = none) :
    t.batch.count % 3 = 0 := by
  by_cases hWhole : t.batch.count % 3 = 0
  · exact hWhole
  · simp [flush, hWaiting, hWhole, Outcome.stopped]
      at hFault

/- An empty batch is flushed by doing nothing. -/
theorem flush_of_isEmpty
    {t : Tracker β}
    (hEmpty : t.batch.isEmpty = true) :
    t.flush = .done t := by
  rw [flush, if_pos hEmpty]

/- Only the flush inside a frame can fault. -/
theorem fault_flushFrame
    (t : Tracker β) :
    t.flushFrame.fault = t.flush.fault := by
  unfold flushFrame beforeFrame
  cases hFault : t.flush.fault with
  | none =>
      rw [Outcome.fault_andThen hFault]
      rfl
  | some fault =>
      rw [Outcome.andThen_of_fault hFault, hFault]

/- A frame has no fault when its flush has none. -/
theorem flushFrame_fault
    (t : Tracker β) :
    t.flushFrame.fault = none ↔ t.flush.fault = none := by
  rw [fault_flushFrame]

/- A frame stops where its flush does. -/
theorem flushFrame_of_fault
    {t : Tracker β}
    {fault : Fault}
    (hFault : t.flush.fault = some fault) :
    t.flushFrame = t.flush :=
  Outcome.andThen_of_fault hFault _

/- A frame is a flush, a submission and a new start. -/
theorem flushFrame_state
    {t : Tracker β}
    (hFault : t.flush.fault = none) :
    t.flushFrame.state =
      t.flush.state.submit.state.afterFrame.frameDone := by
  unfold flushFrame beforeFrame
  rw [Outcome.state_andThen hFault,
    Outcome.state_andThen rfl]
  rfl

------------------------------------------------------------
-- Setters
------------------------------------------------------------

/- A setter of one parameter group, on the whole state. -/
theorem setParams_eq
    (t : Tracker β)
    (params : Params) :
    t.setParams params =
      if { t.renderState with params := params } =
          t.renderState then
        .done t
      else
        t.flush.andThen fun u =>
          .done (u.withRenderState
            { t.renderState with params := params }) := by
  have hKeeps := (flush_keeps t).2
  have hSame :
      { t.renderState with params := params } =
          t.renderState ↔
        t.params = params := by
    simp [renderState, eq_comm]
  unfold setParams
  simp only [hSame]
  split
  · rfl
  · apply Outcome.andThen_congr
    rw [← hKeeps]
    rfl

/-
  Every setter is one law: a change that changes nothing is
  no operation, any other one comes after a flush.
-/
theorem change_eq
    (t : Tracker β)
    (change : Change) :
    t.change change =
      if change.apply t.renderState = t.renderState then
        .done t
      else
        t.flush.andThen fun u =>
          .done (u.withRenderState
            (change.apply t.renderState)) := by
  have hKeeps := (flush_keeps t).2
  cases change with
  | descriptor descriptor =>
      have hSame :
          (Change.descriptor descriptor).apply
              t.renderState = t.renderState ↔
            t.descriptor = descriptor := by
        simp [Change.apply, renderState, eq_comm]
      simp only [Tracker.change, setDescriptor, hSame]
      split
      · rfl
      · apply Outcome.andThen_congr
        rw [← hKeeps]
        rfl
  | scissor scissor =>
      have hSame :
          (Change.scissor scissor).apply
              t.renderState = t.renderState ↔
            t.scissor = scissor := by
        simp [Change.apply, renderState, eq_comm]
      simp only [Tracker.change, setScissor, hSame]
      split
      · rfl
      · apply Outcome.andThen_congr
        rw [← hKeeps]
        rfl
  | frame address width mask => exact setParams_eq t _
  | depth address width => exact setParams_eq t _
  | texture address bufferWidth width height offset =>
      exact setParams_eq t _
  | textureAlpha alpha0 alpha1 => exact setParams_eq t _
  | alphaReference reference => exact setParams_eq t _
  | wrapBounds lowU lowV highU highV =>
      exact setParams_eq t _
  | fixedAlpha alpha => exact setParams_eq t _

/- A change sets what is set already. -/
def InForce
    (t : Tracker β)
    (change : Change) : Prop :=
  change.apply t.renderState = t.renderState

instance
    (t : Tracker β)
    (change : Change) :
    Decidable (t.InForce change) := by
  unfold InForce
  infer_instance

/- A setter of what is in force does nothing. -/
theorem change_of_inForce
    {t : Tracker β}
    {change : Change}
    (hForce : t.InForce change) :
    t.change change = .done t := by
  rw [change_eq]
  exact if_pos hForce

/- Any other setter changes its fields after a flush. -/
theorem change_of_not_inForce
    {t : Tracker β}
    {change : Change}
    (hChanges : ¬t.InForce change) :
    t.change change =
      t.flush.andThen fun u =>
        .done (u.withRenderState
          (change.apply t.renderState)) := by
  rw [change_eq]
  exact if_neg hChanges

/- Such a setter stops where its flush does. -/
theorem change_of_flush_fault
    {t : Tracker β}
    {change : Change}
    (hChanges : ¬t.InForce change)
    (hFault : t.flush.fault ≠ none) :
    t.change change = t.flush := by
  rcases Option.ne_none_iff_exists'.mp hFault with
    ⟨fault, hStopped⟩
  rw [change_of_not_inForce hChanges,
    Outcome.andThen_of_fault hStopped]

/- Without a fault it changes what its flush leaves. -/
theorem change_of_flush
    {t : Tracker β}
    {change : Change}
    (hChanges : ¬t.InForce change)
    (hFault : t.flush.fault = none) :
    (t.change change).fault = none ∧
      (t.change change).state =
        t.flush.state.withRenderState
          (change.apply t.renderState) := by
  rw [change_of_not_inForce hChanges,
    Outcome.fault_andThen hFault,
    Outcome.state_andThen hFault]
  exact ⟨rfl, rfl⟩

/- So it faults as its flush does. -/
theorem change_fault
    {t : Tracker β}
    {change : Change}
    (hChanges : ¬t.InForce change) :
    (t.change change).fault = t.flush.fault := by
  by_cases hFault : t.flush.fault = none
  · rw [(change_of_flush hChanges hFault).1, hFault]
  · rw [change_of_flush_fault hChanges hFault]

/-
  A change without fault sets what is in force, or it comes
  after a flush without fault.
-/
theorem change_cases
    {t : Tracker β}
    {change : Change}
    (hFault : (t.change change).fault = none) :
    (t.InForce change ∧ (t.change change).state = t) ∨
      (t.flush.fault = none ∧
        (t.change change).state =
          t.flush.state.withRenderState
            (change.apply t.renderState)) := by
  by_cases hForce : t.InForce change
  · rw [change_of_inForce hForce]
    exact Or.inl ⟨hForce, rfl⟩
  · rw [change_fault hForce] at hFault
    exact Or.inr
      ⟨hFault, (change_of_flush hForce hFault).2⟩

/-
  A change keeps, fault or not, what its flush keeps and
  what does not depend on the render state.
-/
theorem change_keeps
    {Property : Tracker β → Prop}
    {t : Tracker β}
    (hHolds : Property t)
    (hFlush : Property t.flush.state)
    (hSet :
      ∀ u state, Property u →
        Property (u.withRenderState state))
    (change : Change) :
    Property (t.change change).state := by
  by_cases hForce : t.InForce change
  · rw [change_of_inForce hForce]
    exact hHolds
  · rw [change_of_not_inForce hForce]
    exact Outcome.andThen_keeps hFlush
      fun u hFlushed => hSet u _ hFlushed

------------------------------------------------------------
-- Runs
------------------------------------------------------------

/- A run is without fault when its parts are. -/
theorem run_cons_fault
    {t : Tracker β}
    {request : Request}
    {rest : List Request} :
    (t.run (request :: rest)).fault = none ↔
      (t.perform request).fault = none ∧
        ((t.perform request).state.run rest).fault =
          none := by
  rw [run, Outcome.andThen_fault_eq_none]

/- A run goes on from the state of its first request. -/
theorem run_cons_state
    {t : Tracker β}
    {request : Request}
    (hFault : (t.perform request).fault = none)
    (rest : List Request) :
    (t.run (request :: rest)).state =
      ((t.perform request).state.run rest).state := by
  rw [run, Outcome.state_andThen hFault]

end Tracker

end PagedRaster
