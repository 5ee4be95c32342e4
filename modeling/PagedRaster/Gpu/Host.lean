import PagedRaster.Draw.Tracker
import PagedRaster.Gpu.Queue
import PagedRaster.Triangle.Overlap
import PagedRaster.Word

/-
  This file defines the host side of a device backend.  It
  keeps one vertex buffer and one ring of parameters for
  each frame slot, records passes, submits them, and waits
  for a slot's last submission before it is used again.

  Key definitions include:
    * `FrameSlot`
    * `GpuHost`
    * `GpuHost.recordDraw`
    * `GpuHost.submitFrame`
    * `GpuHost.uploadMemory`, `GpuHost.writeMemory`
    * `GpuHost.uploadPalette`
    * `GpuHost.readMemory`
-/

namespace PagedRaster

------------------------------------------------------------
-- State
------------------------------------------------------------

/-
  A frame slot: the next free place of its parameter ring,
  and the last submission made while it was in use.
-/
structure FrameSlot where
  nextParam : UInt32 := 0
  submission : Option Nat := none
  deriving DecidableEq, Repr

/-
  The state of the host.  Recorded passes that have not
  been submitted are listed newest first; there are none to
  submit while nothing has been recorded.
-/
structure GpuHost where
  slotCount : Nat
  slots : Vector FrameSlot slotCount
  current : Fin slotCount
  paramSlots : UInt32
  paramStride : UInt32
  queue : Queue
  recording : Option (List RenderPass)
  passes : Nat
  layouts : List (List Binding)

namespace GpuHost

/- A message of the host. -/
def message
    (level : Log.Level)
    (text : String) : Log.Message :=
  ⟨level, .gpu, text⟩

/-
  The smallest multiple of an alignment that a draw's
  parameters fit into.
-/
def strideFor
    (alignment : UInt32) : UInt32 :=
  let size := Params.byteSize.toUInt32
  let rest := size % alignment
  if rest == 0 then size else size + (alignment - rest)

/- The message of a new host. -/
def createMessage
    (config : DrawConfig) : Log.Message :=
  message .info
    ("wgpu draw backend: " ++ toString config.frameSlots ++
      " frames in flight, " ++
      toString config.vertexCapacity ++ " vertices, " ++
      toString config.paramSlots ++
      " param slots per frame")

/-
  A host whose slots are unused.  It needs at least one
  frame slot.
-/
def create
    (config : DrawConfig)
    (alignment : UInt32) :
    Except Fault (Logged GpuHost) :=
  if h : 0 < config.frameSlots then
    .ok
      { value :=
          { slotCount := config.frameSlots
            slots := Vector.replicate config.frameSlots {}
            current := ⟨0, h⟩
            paramSlots := config.paramSlots
            paramStride := strideFor alignment
            queue := {}
            recording := none
            passes := 0
            layouts := [] }
        messages := [createMessage config] }
  else
    .error .noFrameSlot

/- The frame slot in use. -/
def slot
    (host : GpuHost) : FrameSlot :=
  host.slots.get host.current

/- Change the frame slot in use. -/
def setSlot
    (host : GpuHost)
    (slot : FrameSlot) : GpuHost :=
  { host with slots := host.slots.set host.current slot }

/- Add a command to the queue. -/
def enqueue
    (host : GpuHost)
    (command : Command) : GpuHost :=
  { host with queue := host.queue.push command }

------------------------------------------------------------
-- Submissions
------------------------------------------------------------

/-
  Submit what is recorded, possibly nothing, and remember
  the submission for the frame slot in use.
-/
def submitRecording
    (host : GpuHost) : GpuHost :=
  let queue :=
    host.queue.submit (host.recording.getD []).reverse
  { host with
    queue := queue
    recording := none
    slots :=
      host.slots.set host.current
        { host.slot with
          submission := some queue.submissions } }

/- Submit what is recorded, if anything is. -/
def submitPending
    (host : GpuHost) : GpuHost :=
  match host.recording with
  | some _ => host.submitRecording
  | none => host

/- Make every place of the parameter ring free again. -/
def resetRing
    (host : GpuHost) : GpuHost :=
  host.setSlot { host.slot with nextParam := 0 }

/- No place of the parameter ring is free. -/
def ringIsFull
    (host : GpuHost) : Bool :=
  host.slot.nextParam == host.paramSlots

/- Go on to the next frame slot. -/
def advance
    (host : GpuHost) : GpuHost :=
  { host with
    current :=
      ⟨(host.current.val + 1) % host.slotCount,
        Nat.mod_lt _ (Nat.zero_lt_of_lt
          host.current.isLt)⟩ }

/- Wait for the last submission of the slot in use. -/
def awaitSlot
    (host : GpuHost) : GpuHost :=
  match host.slot.submission with
  | some index =>
      (host.enqueue (.wait index)).setSlot
        { host.slot with submission := none }
  | none => host

/-
  Submit the frame and make the next frame slot ready: its
  last submission has been waited for, and its ring is
  free.
-/
def submitFrame
    (host : GpuHost) : GpuHost :=
  host.submitRecording.advance.awaitSlot.resetRing

------------------------------------------------------------
-- Draws
------------------------------------------------------------

/-
  Free the parameter ring by an early submission, if no
  place in it is left.
-/
def makeRoom
    (host : GpuHost) : Outcome GpuHost :=
  if host.ringIsFull then
    ⟨host.submitRecording.resetRing,
      [message .debug
        "parameter ring exhausted, submitting early"],
      none⟩
  else
    .done host

/-
  Take the next place of the parameter ring.  An offset that
  is no word is a fault.  The count of the places taken is
  below that of all places, so the next one is a word.
-/
def pushParams
    (host : GpuHost)
    (params : Params) :
    Except Fault (UInt32 × GpuHost) :=
  if host.ringIsFull then
    .error .parametersExhausted
  else
    let slot := host.slot
    match checkedMul slot.nextParam host.paramStride with
    | none => .error .wordOverflow
    | some offset =>
        .ok (offset,
          (host.enqueue
            (.writeParams host.current.val offset.toNat
              params)).setSlot
            { slot with nextParam := slot.nextParam + 1 })

/-
  Record one pass for each run of vertices.  A run lies in
  the range of its draw, so both its ends are words.
-/
def recordRuns
    (host : GpuHost)
    (pass : Pass Descriptor (List Binding))
    (scissor : Scissor)
    (offset : UInt32)
    (runs : List (Nat × Nat)) : GpuHost :=
  let recorded :=
    runs.map fun run =>
      { slot := host.current.val
        paramOffset := offset
        start := pass.start + run.1.toUInt32
        stop := pass.start + run.2.toUInt32
        scissor := scissor
        program := pass.program
        resources := pass.resources : RenderPass }
  { host with
    recording :=
      some (recorded.reverse ++ host.recording.getD [])
    passes := host.passes + runs.length }

/- The message of a recorded draw. -/
def drawMessage
    (pass : Pass Descriptor (List Binding))
    (runs : Nat) : Log.Message :=
  message .trace
    ("draw " ++ toString pass.start ++ ".." ++
      toString pass.stop ++ ": " ++
      toString pass.count ++ " vertices in " ++
      toString runs ++ " passes")

/-
  Queue the vertices and the parameters of a draw, and
  record its passes.  The range must lie in the storage.
-/
def pushDraw
    (host : GpuHost)
    (pass : Pass Descriptor (List Binding))
    (scissor : Scissor) : Outcome GpuHost :=
  if pass.InStorage then
    let vertices := pass.vertices
    let host :=
      host.enqueue
        (.writeVertices host.current.val pass.first
          vertices)
    match host.pushParams pass.params with
    | .error fault => .stopped host fault
    | .ok (offset, host) =>
        match Overlap.split vertices with
        | .error fault => .stopped host fault
        | .ok runs =>
            ⟨host.recordRuns pass scissor offset runs,
              [drawMessage pass runs.length], none⟩
  else
    .stopped host .outOfBounds

/-
  Record a draw as one pass for each run of triangles that
  do not overlap.  A draw that the scissor leaves no pixel
  records nothing.
-/
def recordDraw
    (host : GpuHost)
    (pass : Pass Descriptor (List Binding)) :
    Outcome GpuHost :=
  let scissor := pass.scissor.clipped
  if scissor.isEmpty then
    .done host
  else
    host.makeRoom.andThen fun host =>
      host.pushDraw pass scissor

------------------------------------------------------------
-- Layouts
------------------------------------------------------------

/-
  The layout of a binding list, made when it is used for the
  first time.
-/
def prepareLayout
    (host : GpuHost)
    (bindings : List Binding) : Logged GpuHost :=
  if host.layouts.contains bindings then
    ⟨host, []⟩
  else
    ⟨{ host with layouts := bindings :: host.layouts },
      [⟨.debug, .gpuLayout,
        "resource layout for " ++
          Record.listText (bindings.map Binding.name)⟩]⟩

/- Make the program of a descriptor. -/
def makeProgram
    (host : GpuHost)
    (descriptor : Descriptor) :
    Logged (Descriptor × GpuHost) :=
  let made :=
    host.prepareLayout descriptor.resourceKey.bindings
  ⟨(descriptor, made.value),
    message .debug
      ("building draw pipeline for " ++ descriptor.text) ::
      made.messages⟩

/- Make a resource set. -/
def makeResources
    (host : GpuHost)
    (key : ResourceKey)
    (bindings : List Binding) :
    Logged (List Binding × GpuHost) :=
  let made := host.prepareLayout bindings
  ⟨(bindings, made.value),
    message .debug
      ("building resource set for " ++ key.text) ::
      made.messages⟩

instance : Backend GpuHost Descriptor (List Binding) where
  interlock _ := .serializedOverlaps
  makeProgram host descriptor _ :=
    host.makeProgram descriptor
  makeResources := makeResources
  recordDraw := recordDraw
  submitFrame host := ⟨host.submitFrame, []⟩

------------------------------------------------------------
-- Uploads and Readback
------------------------------------------------------------

/- Queue words at a byte address of memory. -/
def queueWords
    (host : GpuHost)
    (address : UInt32)
    (words : List UInt32) : Outcome GpuHost :=
  if address % 4 ≠ 0 then
    .stopped host (.unalignedUpload address)
  else if address.toNat + words.length * 4 ≤ ramSize then
    .done
      (host.enqueue
        (.writeWords (address.toNat / 4) words))
  else
    .stopped host .uploadPastEnd

/- Replace the memory, after all recorded draws. -/
def uploadMemory
    (host : GpuHost)
    (memory : Memory) : GpuHost :=
  host.submitPending.enqueue (.replaceMemory memory)

/- Write words to memory, after all recorded draws. -/
def writeMemory
    (host : GpuHost)
    (address : UInt32)
    (words : List UInt32) : Outcome GpuHost :=
  host.submitPending.queueWords address words

/- Replace the palette, after all recorded draws. -/
def uploadPalette
    (host : GpuHost)
    (entries : List UInt32) : Outcome GpuHost :=
  let host := host.submitPending
  if entries.length = paletteSize then
    .done (host.enqueue (.replacePalette entries))
  else
    .stopped host .paletteUploadSize

/- Read the memory, after all recorded draws. -/
def readMemory
    (host : GpuHost) : Memory × GpuHost :=
  let host := host.submitPending
  (host.queue.memory,
    { host with queue := host.queue.readBack })

end GpuHost

end PagedRaster
