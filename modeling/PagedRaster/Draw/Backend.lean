import PagedRaster.Binding
import PagedRaster.Draw.Outcome
import PagedRaster.Params
import PagedRaster.Program.Basic
import PagedRaster.Scissor
import PagedRaster.Vertex

/-
  This file defines what a tracker asks of the backend that
  draws for it.

  Key definitions include:
    * `Interlock`
    * `Pass`
    * `Pass.first`, `Pass.last`
    * `Pass.vertices`
    * `Backend`
-/

namespace PagedRaster

/-
  How a backend keeps fragments of one pixel in order: it
  runs them in order, or it separates triangles that may
  overlap.
-/
inductive Interlock where
  | native
  | serializedOverlaps
  deriving DecidableEq, Repr, Inhabited

/- The written name of an interlock. -/
def Interlock.name : Interlock → String
  | .native => "Native"
  | .serializedOverlaps => "SerializedOverlaps"

/-
  One draw: the state it is drawn under, the cached program
  and resources, and its range in the frame's vertex
  storage.
-/
structure Pass
    (P R : Type) where
  descriptor : Descriptor
  program : P
  resources : R
  params : Params
  scissor : Scissor
  storage : Array Vertex
  start : UInt32
  stop : UInt32

namespace Pass

variable {P R : Type}

/- The place in the storage where the range starts. -/
def first
    (pass : Pass P R) : Nat :=
  pass.start.toNat

/- The place behind the range. -/
def last
    (pass : Pass P R) : Nat :=
  pass.stop.toNat

/- The range lies in the vertex storage. -/
def InStorage
    (pass : Pass P R) : Prop :=
  pass.first ≤ pass.last ∧
    pass.last ≤ pass.storage.size

instance
    (pass : Pass P R) :
    Decidable pass.InStorage := by
  unfold InStorage
  infer_instance

/- The vertices of the range. -/
def vertices
    (pass : Pass P R) : List Vertex :=
  (pass.storage.extract pass.first pass.last).toList

/- The number of vertices that the range names. -/
def count
    (pass : Pass P R) : Nat :=
  pass.last - pass.first

end Pass

/-
  A backend with state `β`.  It makes programs and resource
  sets, which the tracker caches, records draws, and
  submits frames.
-/
class Backend
    (β : Type)
    (P R : outParam Type) where
  interlock : β → Interlock
  makeProgram :
    β → Descriptor → Program → Logged (P × β)
  makeResources :
    β → ResourceKey → List Binding → Logged (R × β)
  recordDraw : β → Pass P R → Outcome β
  submitFrame : β → Logged β

end PagedRaster
