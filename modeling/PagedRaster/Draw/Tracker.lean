import PagedRaster.Cache
import PagedRaster.Draw.Backend
import PagedRaster.Draw.Batch

/-
  This file defines the draw tracker.  It collects vertices
  that share one descriptor, one set of parameters and one
  scissor.  A setter that really changes one of them first
  draws the open batch under the old state.

  Key definitions include:
    * `Stats`
    * `Tracker`
    * `Tracker.flush`
    * `Tracker.append`
    * `Tracker.flushFrame`
    * `Tracker.setDescriptor`
    * `Tracker.setParams`
    * `Tracker.setScissor`
-/

namespace PagedRaster

------------------------------------------------------------
-- State
------------------------------------------------------------

/- What a tracker has done so far. -/
structure Stats where
  draws : Nat := 0
  vertices : Nat := 0
  programs : Nat := 0
  resourceSets : Nat := 0
  frames : Nat := 0
  deriving DecidableEq, Repr

instance : Inhabited Stats :=
  ⟨{}⟩

/- Sizes of the resources of a frame. -/
structure DrawConfig where
  frameSlots : Nat := 2
  vertexCapacity : Nat := 131072
  paramSlots : UInt32 := 1024
  deriving DecidableEq, Repr

instance : Inhabited DrawConfig :=
  ⟨{}⟩

/-
  The state of a tracker.  The vertex storage belongs to
  the current frame and keeps its size for good.
-/
structure Tracker
    (β : Type)
    {P R : Type}
    [Backend β P R] where
  backend : β
  storage : Array Vertex
  programs : Cache Descriptor P
  resources : Cache ResourceKey R
  descriptor : Descriptor
  params : Params
  scissor : Scissor
  batch : Batch
  stats : Stats

namespace Tracker

variable {β P R : Type}
variable [Backend β P R]

/- A message of the tracker. -/
def message
    (level : Log.Level)
    (text : String) : Log.Message :=
  ⟨level, .tracker, text⟩

/- A tracker over a backend, with an empty frame. -/
def create
    (backend : β)
    (capacity : Nat) : Logged (Tracker β) where
  value :=
    { backend := backend
      storage := Array.replicate capacity Vertex.zero
      programs := Cache.empty
      resources := Cache.empty
      descriptor := {}
      params := {}
      scissor := {}
      batch := Batch.fresh
      stats := {} }
  messages :=
    [message .debug
      ("draw state tracker using " ++
        (Backend.interlock backend).name ++ " interlock")]

/- The number of vertices that wait in the open batch. -/
def pending
    (t : Tracker β) : UInt32 :=
  t.batch.count

------------------------------------------------------------
-- Drawing
------------------------------------------------------------

/-
  The program of the current descriptor, made when it is
  used for the first time.
-/
def prepareProgram
    (t : Tracker β) : Logged (P × Tracker β) :=
  match t.programs.get? t.descriptor with
  | some program => ⟨(program, t), []⟩
  | none =>
      let made :=
        Backend.makeProgram t.backend t.descriptor
          t.descriptor.program
      let program := made.value.1
      ⟨(program,
        { t with
          backend := made.value.2
          programs :=
            t.programs.insert t.descriptor program
          stats :=
            { t.stats with
              programs := t.stats.programs + 1 } }),
        made.messages⟩

/-
  The resources of the current key, made when it is used
  for the first time.
-/
def prepareResources
    (t : Tracker β) : Logged (R × Tracker β) :=
  let key := t.descriptor.resourceKey
  match t.resources.get? key with
  | some resources => ⟨(resources, t), []⟩
  | none =>
      let made :=
        Backend.makeResources t.backend key key.bindings
      let resources := made.value.1
      ⟨(resources,
        { t with
          backend := made.value.2
          resources := t.resources.insert key resources
          stats :=
            { t.stats with
              resourceSets :=
                t.stats.resourceSets + 1 } }),
        made.messages⟩

/- The draw of the open batch. -/
def pass
    (t : Tracker β)
    (program : P)
    (resources : R) : Pass P R where
  descriptor := t.descriptor
  program := program
  resources := resources
  params := t.params
  scissor := t.scissor
  storage := t.storage
  start := t.batch.start
  stop := t.batch.stop

/- The message of a draw. -/
def flushMessage
    (t : Tracker β) : Log.Message :=
  message .trace
    ("flush " ++ toString t.batch.start ++ ".." ++
      toString t.batch.stop ++ " for " ++
      t.descriptor.text)

/- Count the open batch as drawn and close it. -/
def drawn
    (t : Tracker β)
    (backend : β) : Tracker β :=
  { t with
    backend := backend
    batch := t.batch.close
    stats :=
      { t.stats with
        draws := t.stats.draws + 1
        vertices :=
          t.stats.vertices + t.batch.count.toNat } }

/-
  Record the draw of the open batch.  A fault of the backend
  leaves the batch open.
-/
def record
    (t : Tracker β)
    (program : P)
    (resources : R) : Outcome (Tracker β) :=
  match Backend.recordDraw t.backend
      (t.pass program resources) with
  | ⟨backend, messages, none⟩ =>
      ⟨t.drawn backend, messages, none⟩
  | ⟨backend, messages, some fault⟩ =>
      ⟨{ t with backend := backend }, messages,
        some fault⟩

/-
  Draw the open batch.  An empty batch is no draw; one that
  ends inside a triangle is a fault, and nothing changes.
-/
def flush
    (t : Tracker β) : Outcome (Tracker β) :=
  if t.batch.isEmpty then
    .done t
  else if t.batch.count % 3 ≠ 0 then
    .stopped t (.partialBatch t.batch.count)
  else
    let program := t.prepareProgram
    let resources := program.value.2.prepareResources
    let ready := resources.value.2
    (ready.record program.value.1 resources.value.1).after
      (program.messages ++ resources.messages ++
        [ready.flushMessage])

------------------------------------------------------------
-- Frames
------------------------------------------------------------

/- Draw what waits before a frame is submitted. -/
def beforeFrame
    (t : Tracker β) : Outcome (Tracker β) :=
  t.flush

/- Start over at the beginning of the vertex storage. -/
def afterFrame
    (t : Tracker β) : Tracker β :=
  { t with batch := Batch.fresh }

/- Submit the recorded draws. -/
def submit
    (t : Tracker β) : Outcome (Tracker β) :=
  let submitted := Backend.submitFrame t.backend
  ⟨{ t with backend := submitted.value },
    submitted.messages, none⟩

/- Count a frame. -/
def frameDone
    (t : Tracker β) : Tracker β :=
  { t with
    stats := { t.stats with frames := t.stats.frames + 1 } }

/- Draw what waits, submit, and start a new frame. -/
def flushFrame
    (t : Tracker β) : Outcome (Tracker β) :=
  t.beforeFrame.andThen fun t =>
    t.submit.andThen fun t =>
      .done t.afterFrame.frameDone

------------------------------------------------------------
-- Vertices
------------------------------------------------------------

/- Overwrite elements from a place on. -/
def overwrite
    (storage : Array Vertex)
    (place : Nat) : List Vertex → Array Vertex
  | [] => storage
  | v :: rest =>
      overwrite (storage.setIfInBounds place v)
        (place + 1) rest

/- Overwriting keeps the size of a storage. -/
@[simp]
theorem size_overwrite
    (storage : Array Vertex)
    (place : Nat)
    (vertices : List Vertex) :
    (overwrite storage place vertices).size =
      storage.size := by
  induction vertices generalizing storage place with
  | nil => rfl
  | cons v rest ih => simp [overwrite, ih]

/- Copy vertices into the storage behind the open batch. -/
def copied
    (t : Tracker β)
    (vertices : List Vertex) : Tracker β :=
  { t with
    storage := overwrite t.storage t.batch.last vertices }

/-
  Put vertices behind the open batch.  Their number is cut
  to a word, and a batch that would end behind the last word
  is a fault; the vertices are copied by then.
-/
def store
    (t : Tracker β)
    (vertices : List Vertex) : Outcome (Tracker β) :=
  match t.batch.grow? vertices.length.toUInt32 with
  | some batch =>
      .done { t.copied vertices with batch := batch }
  | none => .stopped (t.copied vertices) .wordOverflow

/- The vertices fit behind the open batch. -/
def hasRoom
    (t : Tracker β)
    (vertices : List Vertex) : Bool :=
  decide (t.batch.last + vertices.length ≤ t.storage.size)

/- The message of a frame that is full. -/
def fullMessage : Log.Message :=
  message .debug "vertex storage full, flushing frame"

/-
  Append vertices to the open batch.  When they do not fit,
  the frame is submitted first; vertices that no frame can
  hold are a fault.
-/
def append
    (t : Tracker β)
    (vertices : List Vertex) : Outcome (Tracker β) :=
  if t.hasRoom vertices then
    t.store vertices
  else
    (t.flushFrame.andThen fun t =>
      if vertices.length ≤ t.storage.size then
        t.store vertices
      else
        .stopped t
          (.appendTooLarge vertices.length
            t.storage.size)).after [fullMessage]

------------------------------------------------------------
-- Setters
------------------------------------------------------------

/- Use a descriptor from now on. -/
def setDescriptor
    (t : Tracker β)
    (descriptor : Descriptor) : Outcome (Tracker β) :=
  if t.descriptor = descriptor then
    .done t
  else
    t.flush.andThen fun t =>
      .done { t with descriptor := descriptor }

/- Use a scissor from now on. -/
def setScissor
    (t : Tracker β)
    (scissor : Scissor) : Outcome (Tracker β) :=
  if t.scissor = scissor then
    .done t
  else
    t.flush.andThen fun t =>
      .done { t with scissor := scissor }

/- Use parameters from now on. -/
def setParams
    (t : Tracker β)
    (params : Params) : Outcome (Tracker β) :=
  if t.params = params then
    .done t
  else
    t.flush.andThen fun t =>
      .done { t with params := params }

/- Set the place and the write mask of the frame buffer. -/
def setFrame
    (t : Tracker β)
    (address width mask : UInt32) :
    Outcome (Tracker β) :=
  t.setParams
    { t.params with
      frameAddress := address
      frameWidth := width
      writeMask := mask }

/- Set the place of the depth buffer. -/
def setDepth
    (t : Tracker β)
    (address width : UInt32) : Outcome (Tracker β) :=
  t.setParams
    { t.params with
      depthAddress := address
      depthWidth := width }

/-
  Set the place and size of the texture, and the first
  palette entry of 4-bit indices.
-/
def setTexture
    (t : Tracker β)
    (address bufferWidth width height offset : UInt32) :
    Outcome (Tracker β) :=
  t.setParams
    { t.params with
      textureAddress := address
      textureBufferWidth := bufferWidth
      textureWidth := width
      textureHeight := height
      paletteOffset := offset }

/- Set the two alpha constants of textures. -/
def setTextureAlpha
    (t : Tracker β)
    (alpha0 alpha1 : UInt32) : Outcome (Tracker β) :=
  t.setParams
    { t.params with
      alpha0 := alpha0
      alpha1 := alpha1 }

/- Set the reference of the alpha test. -/
def setAlphaReference
    (t : Tracker β)
    (reference : UInt32) : Outcome (Tracker β) :=
  t.setParams
    { t.params with alphaReference := reference }

/- Set the bounds of the wrap modes. -/
def setWrapBounds
    (t : Tracker β)
    (lowU lowV highU highV : UInt32) :
    Outcome (Tracker β) :=
  t.setParams
    { t.params with
      lowU := lowU
      lowV := lowV
      highU := highU
      highV := highV }

/- Set the fixed factor of the blend equation. -/
def setFixedAlpha
    (t : Tracker β)
    (alpha : UInt32) : Outcome (Tracker β) :=
  t.setParams { t.params with fixedAlpha := alpha }

end Tracker

end PagedRaster
