import PagedRaster.Binding
import PagedRaster.Fault
import PagedRaster.Fragment.Basic

/-
  This file defines the command queue of a device.  Queued
  writes take effect after the submissions before them and
  before the ones after them; the passes of a submission
  run in the order they were recorded.

  Key definitions include:
    * `RenderPass`, `RenderPass.first`, `RenderPass.last`
    * `Command`
    * `Queue`
    * `Queue.push`
    * `Queue.submit`
    * `Queue.memory`
-/

namespace PagedRaster

/-
  A recorded pass: the frame slot whose buffers it uses,
  where its parameters lie in them, and the vertices that
  it draws.
-/
structure RenderPass where
  slot : Nat
  paramOffset : UInt32
  start : UInt32
  stop : UInt32
  scissor : Scissor
  program : Descriptor
  resources : List Binding
  deriving DecidableEq, Repr

namespace RenderPass

/- The first vertex that the pass draws. -/
def first
    (pass : RenderPass) : Nat :=
  pass.start.toNat

/- The vertex behind those that the pass draws. -/
def last
    (pass : RenderPass) : Nat :=
  pass.stop.toNat

end RenderPass

/- One entry of a queue. -/
inductive Command where
  | writeVertices
      (slot first : Nat)
      (vertices : List Vertex)
  | writeParams
      (slot offset : Nat)
      (params : Params)
  | replaceMemory
      (memory : Memory)
  | writeWords
      (start : Nat)
      (words : List UInt32)
  | replacePalette
      (entries : List UInt32)
  | submit
      (passes : List RenderPass)
  | readBack
  | wait
      (index : Nat)

/- What the writes of a command leave in memory. -/
def Command.writeTo
    (memory : Memory) : Command → Memory
  | .replaceMemory contents => contents
  | .writeWords start words => memory.setWords start words
  | _ => memory

/-
  A queue: its commands, newest first, and the number of
  submissions among them.  Submissions are numbered from
  one.
-/
structure Queue where
  commands : List Command := []
  submissions : Nat := 0

namespace Queue

/- Add a command. -/
def push
    (queue : Queue)
    (command : Command) : Queue :=
  { queue with commands := command :: queue.commands }

/-
  Submit passes; the new submission has the number of
  submissions so far.
-/
def submit
    (queue : Queue)
    (passes : List RenderPass) : Queue where
  commands := .submit passes :: queue.commands
  submissions := queue.submissions + 1

/-
  Copy the memory out, which is a submission of its own, and
  wait for all work.
-/
def readBack
    (queue : Queue) : Queue where
  commands := .readBack :: queue.commands
  submissions := queue.submissions + 1

/-
  The memory of a device after all queued writes, as far as
  the host decides it: passes are left out.
-/
def memory
    (queue : Queue) : Memory :=
  queue.commands.reverse.foldl Command.writeTo
    Memory.empty

end Queue

end PagedRaster
