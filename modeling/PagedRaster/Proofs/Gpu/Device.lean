import Mathlib.Algebra.Ring.Nat
import PagedRaster.Gpu.Host

/-
  This file defines what a device does with the commands of
  a queue.  It takes them in order: a write is in effect
  from its place in the queue on, and a submission runs its
  passes one after the other.  What a pass draws is what it
  finds in the buffers when it runs.

  Key definitions include:
    * `Buffer`
    * `Device`
    * `Painting`, `Effect`
    * `Device.after`, `Device.effects`
    * `Device.trace`
    * `GpuHost.trace`

  Key theorems include:
    * `Buffer.read_write_self`
    * `Buffer.read_write_of_apart`
    * `Device.trace_append`
    * `GpuHost.trace_of_command`
-/

namespace PagedRaster

------------------------------------------------------------
-- Buffers
------------------------------------------------------------

/- What a buffer of a device holds at each place. -/
def Buffer
    (α : Type) : Type :=
  Nat → α

namespace Buffer

variable {α : Type}

/- Overwrite the places from an offset on. -/
def write
    (buffer : Buffer α)
    (offset : Nat)
    (items : List α) : Buffer α :=
  fun place =>
    if offset ≤ place then
      items[place - offset]?.getD (buffer place)
    else
      buffer place

/- The items at as many places from an offset on. -/
def read
    (buffer : Buffer α)
    (offset length : Nat) : List α :=
  (List.range length).map fun i => buffer (offset + i)

/- Reading inside of what was written gives a part of it. -/
theorem read_write_self
    (buffer : Buffer α)
    (offset : Nat)
    (items : List α)
    {start length : Nat}
    (hInside : start + length ≤ items.length) :
    (buffer.write offset items).read (offset + start)
        length =
      (items.drop start).take length := by
  apply List.ext_getElem
  · simp only [read, List.length_map, List.length_range,
      List.length_take, List.length_drop]
    omega
  · intro i hi hOther
    have hi' : i < length := by
      simpa [read] using hi
    have hPlace : offset + start + i - offset = start + i := by
      omega
    have hFrom : offset ≤ offset + start + i := by omega
    have hItem : start + i < items.length := by omega
    simp [read, write, hPlace, hFrom, hItem]

/- Reading beside what was written gives the old items. -/
theorem read_write_of_apart
    (buffer : Buffer α)
    {offset start length : Nat}
    (items : List α)
    (hApart :
      start + length ≤ offset ∨
        offset + items.length ≤ start) :
    (buffer.write offset items).read start length =
      buffer.read start length := by
  apply List.map_congr_left
  intro i hi
  have hi' : i < length := List.mem_range.mp hi
  unfold write
  split
  · rw [List.getElem?_eq_none (by omega), Option.getD_none]
  · rfl

end Buffer

------------------------------------------------------------
-- Devices
------------------------------------------------------------

/- The bytes of a word, lowest first. -/
def wordBytes
    (word : UInt32) : List UInt8 :=
  [word.toUInt8, (word >>> 8).toUInt8,
    (word >>> 16).toUInt8, (word >>> 24).toUInt8]

/- The bytes of the parameters of a draw. -/
def Params.bytes
    (p : Params) : List UInt8 :=
  p.words.flatMap wordBytes

/- The parameters have the bytes that are kept for them. -/
theorem Params.length_bytes
    (p : Params) :
    p.bytes.length = byteSize :=
  rfl

/-
  The buffers of a device: for each frame slot the vertices,
  by their number, and the bytes of the parameter ring.
-/
structure Device where
  vertices : Nat → Buffer Vertex
  params : Nat → Buffer UInt8

/-
  What a pass that runs draws: the vertices and parameters
  that it finds, under its own scissor, program and
  resources.
-/
structure Painting where
  vertices : List Vertex
  params : List UInt8
  scissor : Scissor
  program : Descriptor
  resources : List Binding

/-
  What a command brings about in the memory and the palette
  of a device, or what it lets the host see of them.
-/
inductive Effect where
  | replaceMemory (memory : Memory)
  | writeWords (start : Nat) (words : List UInt32)
  | replacePalette (entries : List UInt32)
  | paint (painting : Painting)
  | readBack

namespace Device

/- The device whose buffers have never been written. -/
def blank : Device where
  vertices := fun _ _ => Vertex.zero
  params := fun _ _ => 0

/- What a pass draws when it runs now. -/
def painting
    (device : Device)
    (pass : RenderPass) : Painting where
  vertices :=
    (device.vertices pass.slot).read pass.first
      (pass.last - pass.first)
  params :=
    (device.params pass.slot).read pass.paramOffset.toNat
      Params.byteSize
  scissor := pass.scissor
  program := pass.program
  resources := pass.resources

/- What passes bring about when they run now. -/
def paint
    (device : Device)
    (passes : List RenderPass) : List Effect :=
  passes.map fun pass => .paint (device.painting pass)

/- The buffers after a command. -/
def after
    (device : Device) : Command → Device
  | .writeVertices slot first vertices =>
      { device with
        vertices := fun other =>
          if other = slot then
            (device.vertices slot).write first vertices
          else
            device.vertices other }
  | .writeParams slot offset params =>
      { device with
        params := fun other =>
          if other = slot then
            (device.params slot).write offset params.bytes
          else
            device.params other }
  | _ => device

/- What a command brings about. -/
def effects
    (device : Device) : Command → List Effect
  | .replaceMemory memory => [.replaceMemory memory]
  | .writeWords start words => [.writeWords start words]
  | .replacePalette entries => [.replacePalette entries]
  | .submit passes => device.paint passes
  | .readBack => [.readBack]
  | _ => []

/- What commands bring about, in order. -/
def trace
    (device : Device) : List Command → List Effect
  | [] => []
  | command :: rest =>
      device.effects command ++
        (device.after command).trace rest

/- The buffers after commands. -/
def afterAll
    (device : Device)
    (commands : List Command) : Device :=
  commands.foldl after device

/- A trace goes on in the state that was reached. -/
theorem trace_append
    (device : Device)
    (first second : List Command) :
    device.trace (first ++ second) =
      device.trace first ++
        (device.afterAll first).trace second := by
  induction first generalizing device with
  | nil => rfl
  | cons command rest ih =>
      rw [List.cons_append, trace, ih, trace,
        List.append_assoc]
      rfl

/- One more command acts on the buffers reached. -/
theorem afterAll_concat
    (device : Device)
    (commands : List Command)
    (command : Command) :
    device.afterAll (commands ++ [command]) =
      (device.afterAll commands).after command := by
  simp [afterAll]

/- The trace of one command is what it brings about. -/
theorem trace_singleton
    (device : Device)
    (command : Command) :
    device.trace [command] = device.effects command := by
  simp [trace]

/-
  A pass draws the same after a write of vertices beside
  its own.
-/
theorem painting_after_writeVertices
    (device : Device)
    {pass : RenderPass}
    {first : Nat}
    (slot : Nat)
    (vertices : List Vertex)
    (hOrder : pass.first ≤ pass.last)
    (hBefore : pass.last ≤ first) :
    (device.after
        (.writeVertices slot first vertices)).painting
          pass =
      device.painting pass := by
  have hRead :
      ((device.vertices slot).write first vertices).read
          pass.first (pass.last - pass.first) =
        (device.vertices slot).read pass.first
          (pass.last - pass.first) :=
    Buffer.read_write_of_apart _ _ (Or.inl (by omega))
  unfold painting after
  dsimp only
  split
  · rename_i hSlot
    rw [hSlot, hRead]
  · rfl

/-
  A pass draws the same after a write of parameters behind
  its own.
-/
theorem painting_after_writeParams
    (device : Device)
    {pass : RenderPass}
    {offset : Nat}
    (slot : Nat)
    (params : Params)
    (hBefore :
      pass.paramOffset.toNat + Params.byteSize ≤ offset) :
    (device.after
        (.writeParams slot offset params)).painting pass =
      device.painting pass := by
  have hRead :
      ((device.params slot).write offset
          params.bytes).read pass.paramOffset.toNat
            Params.byteSize =
        (device.params slot).read pass.paramOffset.toNat
          Params.byteSize :=
    Buffer.read_write_of_apart _ _ (Or.inl hBefore)
  unfold painting after
  dsimp only
  split
  · rename_i hSlot
    rw [hSlot, hRead]
  · rfl

end Device

------------------------------------------------------------
-- Traces of a Host
------------------------------------------------------------

namespace GpuHost

/- The commands of the queue, oldest first. -/
def commands
    (host : GpuHost) : List Command :=
  host.queue.commands.reverse

/- The recorded passes that wait for a submission. -/
def pending
    (host : GpuHost) : List RenderPass :=
  (host.recording.getD []).reverse

/- The device once all commands have been taken. -/
def device
    (host : GpuHost) : Device :=
  Device.blank.afterAll host.commands

/-
  What the queue brings about on a blank device, when the
  passes that wait are submitted next.
-/
def trace
    (host : GpuHost) : List Effect :=
  Device.blank.trace
    (host.commands ++ [.submit host.pending])

/- The waiting passes run after all commands. -/
theorem trace_eq
    (host : GpuHost) :
    host.trace =
      Device.blank.trace host.commands ++
        host.device.paint host.pending := by
  rw [trace, Device.trace_append, Device.trace_singleton]
  rfl

/- A queued command is the last one. -/
@[simp]
theorem commands_enqueue
    (host : GpuHost)
    (command : Command) :
    (host.enqueue command).commands =
      host.commands ++ [command] := by
  simp [commands, enqueue, Queue.push]

/- A further command acts on the device. -/
theorem device_of_command
    {host next : GpuHost}
    {command : Command}
    (hCommands :
      next.commands = host.commands ++ [command]) :
    next.device = host.device.after command := by
  rw [device, hCommands, Device.afterAll_concat]
  rfl

/-
  A further command that leaves the waiting passes alone
  brings its effects about before they run.
-/
theorem trace_of_command
    {host next : GpuHost}
    {command : Command}
    (hCommands : next.commands = host.commands ++ [command])
    (hPending : next.pending = host.pending)
    (hSame :
      ∀ pass ∈ host.pending,
        (host.device.after command).painting pass =
          host.device.painting pass) :
    next.trace =
      Device.blank.trace host.commands ++
        host.device.effects command ++
          host.device.paint host.pending := by
  have hDevice := device_of_command hCommands
  have hPaint :
      next.device.paint next.pending =
        host.device.paint host.pending := by
    rw [hDevice, hPending]
    apply List.map_congr_left
    intro pass hPass
    rw [hSame pass hPass]
  rw [trace_eq, hPaint, hCommands, Device.trace_append,
    Device.trace_singleton]
  rfl

/- While no passes wait, effects follow all others. -/
theorem trace_of_submitted
    {host next : GpuHost}
    {command : Command}
    (hCommands : next.commands = host.commands ++ [command])
    (hPending : next.pending = host.pending)
    (hNone : host.pending = []) :
    next.trace =
      host.trace ++ host.device.effects command := by
  rw [trace_of_command hCommands hPending
      (by simp [hNone]), trace_eq, hNone]
  simp [Device.paint]

/- A command without effects changes no trace. -/
theorem trace_of_quiet
    {host next : GpuHost}
    {command : Command}
    (hCommands : next.commands = host.commands ++ [command])
    (hPending : next.pending = host.pending)
    (hQuiet : host.device.effects command = [])
    (hSame :
      ∀ pass ∈ host.pending,
        (host.device.after command).painting pass =
          host.device.painting pass) :
    next.trace = host.trace := by
  rw [trace_of_command hCommands hPending hSame, hQuiet,
    List.append_nil, trace_eq]

end GpuHost

end PagedRaster
