import PagedRaster.Proofs.Draw.Wrapped

/-
  This file defines a backend that passes every call on to
  another one and writes it down.  Forgetting what was
  written down gives back the run of the other backend, so
  the calls of any backend may be read off its observed
  run.

  Key definitions include:
    * `Call`
    * `Observed`
    * `Observed.passes`, `Observed.submissions`
    * `Tracker.observe`, `Tracker.unobserved`

  Key theorems include:
    * `Tracker.run_unobserved`
-/

namespace PagedRaster

------------------------------------------------------------
-- Observed Backends
------------------------------------------------------------

/- A call to a backend, with the handle that it answered. -/
inductive Call
    (P R : Type) where
  | program
      (descriptor : Descriptor)
      (source : Program)
      (made : P)
  | resources
      (key : ResourceKey)
      (bindings : List Binding)
      (made : R)
  | draw
      (pass : Pass P R)
  | submit

/- The draw that a call records. -/
def Call.pass?
    {P R : Type} : Call P R → Option (Pass P R)
  | .draw pass => some pass
  | _ => none

/- A call submits a frame. -/
def Call.isSubmit
    {P R : Type} : Call P R → Bool
  | .submit => true
  | _ => false

/- A backend and the calls to it, oldest first. -/
structure Observed
    (β : Type)
    {P R : Type}
    [Backend β P R] where
  backend : β
  calls : List (Call P R)

namespace Observed

variable {β P R : Type}
variable [Backend β P R]

/- Write down a call that led to a state. -/
def note
    (observed : Observed β)
    (backend : β)
    (call : Call P R) : Observed β :=
  ⟨backend, observed.calls ++ [call]⟩

instance : Backend (Observed β) P R where
  interlock observed := Backend.interlock observed.backend
  makeProgram observed descriptor source :=
    let made :=
      Backend.makeProgram observed.backend descriptor source
    ⟨(made.value.1,
      observed.note made.value.2
        (.program descriptor source made.value.1)),
      made.messages⟩
  makeResources observed key bindings :=
    let made :=
      Backend.makeResources observed.backend key bindings
    ⟨(made.value.1,
      observed.note made.value.2
        (.resources key bindings made.value.1)),
      made.messages⟩
  recordDraw observed pass :=
    (Backend.recordDraw observed.backend pass).map
      fun backend => observed.note backend (.draw pass)
  submitFrame observed :=
    let submitted := Backend.submitFrame observed.backend
    ⟨observed.note submitted.value .submit,
      submitted.messages⟩

/- The recorded draws, in order. -/
def passes
    (observed : Observed β) : List (Pass P R) :=
  observed.calls.filterMap Call.pass?

/- The number of submitted frames. -/
def submissions
    (observed : Observed β) : Nat :=
  observed.calls.countP Call.isSubmit

/- A noted call adds its draw. -/
@[simp]
theorem passes_note
    (observed : Observed β)
    (backend : β)
    (call : Call P R) :
    (observed.note backend call).passes =
      observed.passes ++ call.pass?.toList := by
  cases hPass : call.pass? <;>
    simp [passes, note, List.filterMap_append, hPass]

/- A noted call counts if it submits. -/
@[simp]
theorem submissions_note
    (observed : Observed β)
    (backend : β)
    (call : Call P R) :
    (observed.note backend call).submissions =
      observed.submissions +
        (if call.isSubmit then 1 else 0) := by
  cases hSubmit : call.isSubmit <;>
    simp [submissions, note, hSubmit]

end Observed

/- An observed backend wraps the one that it observes. -/
theorem Observed.wraps
    {β P R : Type}
    [Backend β P R] :
    Backend.Wraps
      (Observed.backend : Observed β → β) where
  makeProgram _ _ _ := rfl
  makeResources _ _ _ := rfl
  recordDraw _ _ := rfl
  submitFrame _ := rfl

------------------------------------------------------------
-- Forgetting the Calls
------------------------------------------------------------

namespace Tracker

variable {β P R : Type}
variable [Backend β P R]

/- The tracker over the same backend, observed from now. -/
def observe
    (t : Tracker β) : Tracker (Observed β) where
  backend := ⟨t.backend, []⟩
  storage := t.storage
  programs := t.programs
  resources := t.resources
  descriptor := t.descriptor
  params := t.params
  scissor := t.scissor
  batch := t.batch
  stats := t.stats

/- The tracker without the calls that were written down. -/
def unobserved
    (t : Tracker (Observed β)) : Tracker β where
  backend := t.backend.backend
  storage := t.storage
  programs := t.programs
  resources := t.resources
  descriptor := t.descriptor
  params := t.params
  scissor := t.scissor
  batch := t.batch
  stats := t.stats

/- Observation starts with nothing written down. -/
@[simp]
theorem unobserved_observe
    (t : Tracker β) :
    t.observe.unobserved = t :=
  rfl

/- An observed tracker makes the same program. -/
theorem prepareProgram_unobserved
    (t : Tracker (Observed β)) :
    t.unobserved.prepareProgram =
      ⟨(t.prepareProgram.value.1,
        t.prepareProgram.value.2.unobserved),
        t.prepareProgram.messages⟩ :=
  prepareProgram_forget Observed.wraps t

/- An observed tracker makes the same resources. -/
theorem prepareResources_unobserved
    (t : Tracker (Observed β)) :
    t.unobserved.prepareResources =
      ⟨(t.prepareResources.value.1,
        t.prepareResources.value.2.unobserved),
        t.prepareResources.messages⟩ :=
  prepareResources_forget Observed.wraps t

/- Recording notes its draw, fault or not. -/
theorem record_backend
    (t : Tracker (Observed β))
    (program : P)
    (resources : R) :
    (t.record program resources).state.backend =
      t.backend.note
        (Backend.recordDraw t.backend.backend
          (t.pass program resources)).state
        (.draw (t.pass program resources)) := by
  have hDraw :
      (Backend.recordDraw t.backend
          (t.pass program resources)).state =
        t.backend.note
          (Backend.recordDraw t.backend.backend
            (t.pass program resources)).state
          (.draw (t.pass program resources)) :=
    rfl
  rw [← hDraw]
  unfold record
  split
  · rename_i hRecorded
    rw [hRecorded]
    rfl
  · rename_i hRecorded
    rw [hRecorded]

/- An observed tracker performs the same requests. -/
theorem perform_unobserved
    (t : Tracker (Observed β))
    (request : Request) :
    (t.perform request).map unobserved =
      t.unobserved.perform request :=
  perform_forget Observed.wraps t request

/- Forgetting the calls of a run gives the run itself. -/
theorem run_unobserved
    (t : Tracker (Observed β))
    (requests : List Request) :
    (t.run requests).map unobserved =
      t.unobserved.run requests :=
  run_forget Observed.wraps t requests

end Tracker

end PagedRaster
