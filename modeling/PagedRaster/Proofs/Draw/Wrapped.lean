import PagedRaster.Proofs.Draw.Request

/-
  This file defines what it means that a backend wraps
  another one: it passes every call on and keeps some
  records of its own.  Forgetting the records of a run gives
  the run over the wrapped backend, so a wrapper sees what
  happens without having a part in it.

  Key definitions include:
    * `Backend.Wraps`
    * `Tracker.forget`

  Key theorems include:
    * `Tracker.flush_forget`
    * `Tracker.perform_forget`
    * `Tracker.run_forget`
-/

namespace PagedRaster

------------------------------------------------------------
-- Outcomes in Other States
------------------------------------------------------------

namespace Outcome

variable {σ τ : Type}

/- Messages in front commute with a change of state. -/
theorem map_after
    (f : σ → τ)
    (messages : List Log.Message)
    (outcome : Outcome σ) :
    (outcome.after messages).map f =
      (outcome.map f).after messages :=
  rfl

/- The fault of an outcome in another state. -/
@[simp]
theorem fault_map
    (f : σ → τ)
    (outcome : Outcome σ) :
    (outcome.map f).fault = outcome.fault :=
  rfl

/- A sequence maps to a sequence when its next step does. -/
theorem map_andThen
    {f : σ → τ}
    {outcome : Outcome σ}
    {next : σ → Outcome σ}
    {image : τ → Outcome τ}
    (hNext : ∀ state, (next state).map f = image (f state)) :
    (outcome.andThen next).map f =
      (outcome.map f).andThen image := by
  rcases outcome with ⟨state, messages, fault⟩
  cases fault with
  | none =>
      simp only [andThen, map, ← hNext]
      rfl
  | some fault => rfl

end Outcome

------------------------------------------------------------
-- Wrappers
------------------------------------------------------------

variable {β γ P R : Type}
variable [Backend β P R] [Backend γ P R]

/-
  A backend wraps another one: without its records, every
  call to it is the call to the other one.
-/
structure Backend.Wraps
    (drop : γ → β) : Prop where
  makeProgram :
    ∀ (wrapper : γ) descriptor source,
      let made :=
        Backend.makeProgram wrapper descriptor source
      Backend.makeProgram (drop wrapper) descriptor source =
        ⟨(made.value.1, drop made.value.2), made.messages⟩
  makeResources :
    ∀ (wrapper : γ) key bindings,
      let made :=
        Backend.makeResources wrapper key bindings
      Backend.makeResources (drop wrapper) key bindings =
        ⟨(made.value.1, drop made.value.2), made.messages⟩
  recordDraw :
    ∀ (wrapper : γ) pass,
      (Backend.recordDraw wrapper pass).map drop =
        Backend.recordDraw (drop wrapper) pass
  submitFrame :
    ∀ wrapper : γ,
      let submitted := Backend.submitFrame wrapper
      Backend.submitFrame (drop wrapper) =
        ⟨drop submitted.value, submitted.messages⟩

namespace Tracker

/- The tracker over another state of its backend. -/
def forget
    (drop : γ → β)
    (t : Tracker γ) : Tracker β where
  backend := drop t.backend
  storage := t.storage
  programs := t.programs
  resources := t.resources
  descriptor := t.descriptor
  params := t.params
  scissor := t.scissor
  batch := t.batch
  stats := t.stats

/- Vertices are stored in the same way over a wrapper. -/
theorem store_forget
    (drop : γ → β)
    (t : Tracker γ)
    (vertices : List Vertex) :
    (t.store vertices).map (forget drop) =
      (t.forget drop).store vertices := by
  have hBatch : (t.forget drop).batch = t.batch := rfl
  unfold store
  rw [hBatch]
  cases t.batch.grow? vertices.length.toUInt32 with
  | none => rfl
  | some batch => rfl

section Forgetting

variable {drop : γ → β}
variable (hWraps : Backend.Wraps drop)

include hWraps

/- The same program is made over a wrapper. -/
theorem prepareProgram_forget
    (t : Tracker γ) :
    (t.forget drop).prepareProgram =
      ⟨(t.prepareProgram.value.1,
        t.prepareProgram.value.2.forget drop),
        t.prepareProgram.messages⟩ := by
  cases hFound : t.programs.get? t.descriptor with
  | none =>
      simp only [prepareProgram, forget, hFound,
        hWraps.makeProgram]
  | some program =>
      simp only [prepareProgram, forget, hFound]

/- The same resources are made over a wrapper. -/
theorem prepareResources_forget
    (t : Tracker γ) :
    (t.forget drop).prepareResources =
      ⟨(t.prepareResources.value.1,
        t.prepareResources.value.2.forget drop),
        t.prepareResources.messages⟩ := by
  cases hFound :
      t.resources.get? t.descriptor.resourceKey with
  | none =>
      simp only [prepareResources, forget, hFound,
        hWraps.makeResources]
  | some resources =>
      simp only [prepareResources, forget, hFound]

/- The same draw is recorded over a wrapper. -/
theorem record_forget
    (t : Tracker γ)
    (program : P)
    (resources : R) :
    (t.record program resources).map (forget drop) =
      (t.forget drop).record program resources := by
  have hDraw :
      Backend.recordDraw (t.forget drop).backend
          ((t.forget drop).pass program resources) =
        (Backend.recordDraw t.backend
          (t.pass program resources)).map drop :=
    (hWraps.recordDraw _ _).symm
  unfold record
  rw [hDraw]
  rcases Backend.recordDraw t.backend
      (t.pass program resources) with
    ⟨backend, messages, fault⟩
  cases fault with
  | none => rfl
  | some fault => rfl

/- Flushes are the same over a wrapper. -/
theorem flush_forget
    (t : Tracker γ) :
    t.flush.map (forget drop) = (t.forget drop).flush := by
  have hBatch : (t.forget drop).batch = t.batch := rfl
  unfold flush
  rw [hBatch]
  by_cases hEmpty : t.batch.isEmpty = true
  · rw [if_pos hEmpty, if_pos hEmpty]
    rfl
  · rw [if_neg hEmpty, if_neg hEmpty]
    by_cases hPartial : t.batch.count % 3 ≠ 0
    · rw [if_pos hPartial, if_pos hPartial]
      rfl
    · rw [if_neg hPartial, if_neg hPartial,
        prepareProgram_forget hWraps]
      dsimp only
      rw [prepareResources_forget hWraps, Outcome.map_after,
        record_forget hWraps]
      rfl

/- Frames are the same over a wrapper. -/
theorem flushFrame_forget
    (t : Tracker γ) :
    t.flushFrame.map (forget drop) =
      (t.forget drop).flushFrame := by
  unfold flushFrame beforeFrame
  rw [← flush_forget hWraps]
  apply Outcome.map_andThen
  intro u
  have hSubmit := hWraps.submitFrame u.backend
  simp only [submit, forget, hSubmit]
  rfl

/- Appends are the same over a wrapper. -/
theorem append_forget
    (t : Tracker γ)
    (vertices : List Vertex) :
    (t.append vertices).map (forget drop) =
      (t.forget drop).append vertices := by
  have hRoom :
      (t.forget drop).hasRoom vertices =
        t.hasRoom vertices :=
    rfl
  unfold append
  rw [hRoom]
  split
  · exact store_forget drop t vertices
  · rw [Outcome.map_after, ← flushFrame_forget hWraps]
    congr 1
    apply Outcome.map_andThen
    intro u
    have hSize : (u.forget drop).storage = u.storage := rfl
    rw [hSize]
    split
    · exact store_forget drop u vertices
    · rfl

/- Changes of the render state are the same. -/
theorem change_forget
    (t : Tracker γ)
    (change : Change) :
    (t.change change).map (forget drop) =
      (t.forget drop).change change := by
  have hState :
      (t.forget drop).renderState = t.renderState :=
    rfl
  rw [change_eq, change_eq, hState]
  split
  · rfl
  · rw [← flush_forget hWraps]
    apply Outcome.map_andThen
    intro u
    rfl

/- Requests are performed in the same way. -/
theorem perform_forget
    (t : Tracker γ)
    (request : Request) :
    (t.perform request).map (forget drop) =
      (t.forget drop).perform request := by
  cases request with
  | change wanted => exact change_forget hWraps t wanted
  | append added => exact append_forget hWraps t added
  | flush => exact flush_forget hWraps t
  | beforeFrame => exact flush_forget hWraps t
  | afterFrame => rfl
  | flushFrame => exact flushFrame_forget hWraps t

/- Forgetting the records of a run gives the run itself. -/
theorem run_forget
    (t : Tracker γ)
    (requests : List Request) :
    (t.run requests).map (forget drop) =
      (t.forget drop).run requests := by
  induction requests generalizing t with
  | nil => rfl
  | cons request rest ih =>
      rw [run, run, ← perform_forget hWraps]
      apply Outcome.map_andThen
      intro u
      exact ih u

end Forgetting

end Tracker

end PagedRaster
