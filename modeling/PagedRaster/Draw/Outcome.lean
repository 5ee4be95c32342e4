import PagedRaster.Fault
import PagedRaster.Log.Message

/-
  This file defines what an operation leaves behind: the
  state that it reached, the messages that it logged, and
  the fault that stopped it, if one did.  Work goes on in
  the state reached, also after a fault.

  Key definitions include:
    * `Outcome`
    * `Outcome.andThen`
    * `Logged`
-/

namespace PagedRaster

/- A value together with the messages logged on the way. -/
structure Logged
    (α : Type) where
  value : α
  messages : List Log.Message

/- The result of an operation on a state. -/
structure Outcome
    (σ : Type) where
  state : σ
  messages : List Log.Message
  fault : Option Fault

namespace Outcome

variable {σ τ : Type}

/- The operation that ends in a state and logs nothing. -/
def done
    (state : σ) : Outcome σ where
  state := state
  messages := []
  fault := none

/- The operation that a fault stops in a state. -/
def stopped
    (state : σ)
    (fault : Fault) : Outcome σ where
  state := state
  messages := []
  fault := some fault

/- Messages logged before an operation. -/
def after
    (messages : List Log.Message)
    (outcome : Outcome σ) : Outcome σ :=
  { outcome with
    messages := messages ++ outcome.messages }

/-
  Go on in the state reached, unless a fault stopped the
  operation.
-/
def andThen
    (outcome : Outcome σ)
    (next : σ → Outcome σ) : Outcome σ :=
  match outcome with
  | ⟨state, messages, none⟩ =>
      (next state).after messages
  | ⟨state, messages, some fault⟩ =>
      ⟨state, messages, some fault⟩

/- The same outcome in a larger state. -/
def map
    (f : σ → τ)
    (outcome : Outcome σ) : Outcome τ :=
  match outcome with
  | ⟨state, messages, fault⟩ =>
      ⟨f state, messages, fault⟩

------------------------------------------------------------
-- Sequencing Laws
------------------------------------------------------------

/- Messages in front of an outcome leave its state alone. -/
@[simp]
theorem state_after
    (messages : List Log.Message)
    (outcome : Outcome σ) :
    (outcome.after messages).state = outcome.state :=
  rfl

/- Messages in front of an outcome leave its fault alone. -/
@[simp]
theorem fault_after
    (messages : List Log.Message)
    (outcome : Outcome σ) :
    (outcome.after messages).fault = outcome.fault :=
  rfl

/- Going on after an operation that logged nothing. -/
@[simp]
theorem done_andThen
    (state : σ)
    (next : σ → Outcome σ) :
    (done state).andThen next = next state := by
  simp [done, andThen, after]

/- Nothing goes on after a fault. -/
@[simp]
theorem stopped_andThen
    (state : σ)
    (fault : Fault)
    (next : σ → Outcome σ) :
    (stopped state fault).andThen next =
      stopped state fault :=
  rfl

/- An operation without a fault goes on in its state. -/
theorem state_andThen
    {outcome : Outcome σ}
    (hFault : outcome.fault = none)
    (next : σ → Outcome σ) :
    (outcome.andThen next).state =
      (next outcome.state).state := by
  rcases outcome with ⟨state, messages, fault⟩
  cases hFault
  rfl

/- An operation without a fault hands on the next one's. -/
theorem fault_andThen
    {outcome : Outcome σ}
    (hFault : outcome.fault = none)
    (next : σ → Outcome σ) :
    (outcome.andThen next).fault =
      (next outcome.state).fault := by
  rcases outcome with ⟨state, messages, fault⟩
  cases hFault
  rfl

/- A fault ends a sequence in the state it was found in. -/
theorem andThen_of_fault
    {outcome : Outcome σ}
    {fault : Fault}
    (hFault : outcome.fault = some fault)
    (next : σ → Outcome σ) :
    outcome.andThen next = outcome := by
  rcases outcome with ⟨state, messages, found⟩
  cases hFault
  rfl

end Outcome

end PagedRaster
