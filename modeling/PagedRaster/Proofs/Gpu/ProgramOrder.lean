import PagedRaster.Proofs.Draw.Ledger
import PagedRaster.Proofs.Gpu.Order

/-
  This file proves that a tracker over a device host keeps
  program order.  Whatever the owner asks of the tracker and
  of the host, a run without fault leaves the device a trace
  of exactly what was issued, in order.

  Key definitions include:
    * `GpuHost.Operation`
    * `Tracker.operate`, `Tracker.operateAll`
    * `Tracker.issues`, `Tracker.issued`
    * `Tracker.InOrder`

  Key theorems include:
    * `Tracker.flush_inOrder`
    * `Tracker.perform_inOrder`
    * `Tracker.operate_inOrder`
    * `Tracker.operateAll_fault_ne_overflow`
    * `Tracker.trace_operateAll`
-/

namespace PagedRaster

------------------------------------------------------------
-- Operations of the Owner
------------------------------------------------------------

/-
  What the owner of a tracked host does: ask the tracker, or
  use memory and palette of the device.
-/
inductive GpuHost.Operation where
  | request (request : Request)
  | uploadMemory (memory : Memory)
  | writeMemory (address : UInt32) (words : List UInt32)
  | uploadPalette (entries : List UInt32)
  | readMemory

namespace Tracker

/- Perform one operation. -/
def operate
    (t : Tracker GpuHost) :
    GpuHost.Operation → Outcome (Tracker GpuHost)
  | .request request => t.perform request
  | .uploadMemory memory =>
      .done
        { t with backend := t.backend.uploadMemory memory }
  | .writeMemory address words =>
      (t.backend.writeMemory address words).map fun host =>
        { t with backend := host }
  | .uploadPalette entries =>
      (t.backend.uploadPalette entries).map fun host =>
        { t with backend := host }
  | .readMemory =>
      .done { t with backend := t.backend.readMemory.2 }

/- Perform operations in order, up to the first fault. -/
def operateAll
    (t : Tracker GpuHost) :
    List GpuHost.Operation → Outcome (Tracker GpuHost)
  | [] => .done t
  | operation :: rest =>
      (t.operate operation).andThen fun t =>
        t.operateAll rest

/-
  What an operation issues.  The draws of a request are the
  ones that it records with the host.
-/
def issues
    (t : Tracker GpuHost) :
    GpuHost.Operation → List Issue
  | .request request =>
      (t.observe.perform request).state.backend.passes.map
        Issue.draw
  | .uploadMemory memory => [.replaceMemory memory]
  | .writeMemory address words =>
      [.writeWords address words]
  | .uploadPalette entries => [.replacePalette entries]
  | .readMemory => [.readBack]

/- What operations issue, in order. -/
def issued
    (t : Tracker GpuHost) :
    List GpuHost.Operation → List Issue
  | [] => []
  | operation :: rest =>
      t.issues operation ++
        (t.operate operation).state.issued rest

------------------------------------------------------------
-- Trackers in Order
------------------------------------------------------------

/-
  The host of a tracker has brought issued work in order,
  and the open batch lies behind all passes that wait.
-/
structure InOrder
    (t : Tracker GpuHost)
    (work : List Issue) : Prop where
  inStorage : t.InStorage
  ordered : t.backend.Ordered t.batch.first work

/-
  The host of an observed tracker has brought the recorded
  draws in order behind the work before them.
-/
def DrawsInOrder
    (t : Tracker (Observed GpuHost))
    (before : List Issue) : Prop :=
  t.unobserved.InOrder
    (before ++ t.backend.passes.map Issue.draw)

/- Observation starts behind the work so far. -/
theorem InOrder.observe
    {t : Tracker GpuHost}
    {work : List Issue}
    (hOrder : t.InOrder work) :
    t.observe.DrawsInOrder work := by
  have hNone :
      work ++ t.observe.backend.passes.map Issue.draw =
        work :=
    List.append_nil work
  rw [DrawsInOrder, hNone]
  exact hOrder

/- Preparing a layout keeps the order. -/
theorem prepareLayout_ordered
    {host : GpuHost}
    {place : Nat}
    {work : List Issue}
    (hOrdered : host.Ordered place work)
    (bindings : List Binding) :
    (host.prepareLayout bindings).value.Ordered place
      work := by
  unfold GpuHost.prepareLayout
  split
  · exact hOrdered
  · exact ⟨hOrdered.trace, hOrdered.vertices,
      hOrdered.params,
      hOrdered.ring.of_same ⟨rfl, rfl, rfl⟩⟩

/- Making a program keeps the order. -/
theorem prepareProgram_inOrder
    {t : Tracker GpuHost}
    {work : List Issue}
    (hOrder : t.InOrder work) :
    t.prepareProgram.value.2.InOrder work := by
  unfold prepareProgram
  split
  · exact hOrder
  · exact ⟨hOrder.inStorage.of_same rfl rfl,
      prepareLayout_ordered hOrder.ordered _⟩

/- Making resources keeps the order. -/
theorem prepareResources_inOrder
    {t : Tracker GpuHost}
    {work : List Issue}
    (hOrder : t.InOrder work) :
    t.prepareResources.value.2.InOrder work := by
  unfold prepareResources
  dsimp only
  split
  · exact hOrder
  · exact ⟨hOrder.inStorage.of_same rfl rfl,
      prepareLayout_ordered hOrder.ordered _⟩

/- Getting ready for a draw keeps the order. -/
theorem ready_drawsInOrder
    {t : Tracker (Observed GpuHost)}
    {before : List Issue}
    (hOrder : t.DrawsInOrder before) :
    t.ready.DrawsInOrder before := by
  have hReady :
      t.ready.unobserved = t.unobserved.ready := by
    unfold ready
    rw [prepareProgram_unobserved]
    dsimp only
    rw [prepareResources_unobserved]
  unfold DrawsInOrder
  rw [hReady, (ready_calls t).1]
  exact prepareResources_inOrder
    (prepareProgram_inOrder hOrder)

/- Recording the open batch keeps the order. -/
theorem record_drawsInOrder
    {t : Tracker (Observed GpuHost)}
    {before : List Issue}
    (hOrder : t.DrawsInOrder before)
    {program : Descriptor}
    {resources : List Binding}
    (hFault : (t.record program resources).fault = none) :
    (t.record program resources).state.DrawsInOrder
      before := by
  have hDrew := record_drew hFault
  have hBackend := record_backend t program resources
  rw [record_fault] at hFault
  have hRange :
      (t.pass program resources).InStorage :=
    ⟨t.batch.first_le_last, hOrder.inStorage.last_le⟩
  have hDrawn :=
    GpuHost.recordDraw_ordered hOrder.ordered hRange hFault
  have hWork :
      before ++
          (t.record program
            resources).state.backend.passes.map
              Issue.draw =
        before ++ t.backend.passes.map Issue.draw ++
          [.draw (t.pass program resources)] := by
    rw [hBackend, Observed.passes_note]
    simp [Call.pass?]
  have hHost :
      (t.record program resources).state.backend.backend =
        (t.backend.backend.recordDraw
          (t.pass program resources)).state := by
    rw [hBackend]
    rfl
  have hPlace :
      (t.record program resources).state.batch.first =
        (t.pass program resources).last := by
    rw [hDrew.batch]
    rfl
  refine ⟨?_, ?_⟩
  · have hRange : t.InStorage :=
      hOrder.inStorage.of_same rfl rfl
    have hKept :
        (t.record program resources).state.InStorage :=
      inStorage_close hDrew.storage hDrew.batch hRange
    exact hKept.of_same rfl rfl
  · rw [hWork]
    unfold unobserved
    rw [hHost, hPlace]
    exact hDrawn

/- A flush keeps the order. -/
theorem flush_drawsInOrder
    {t : Tracker (Observed GpuHost)}
    {before : List Issue}
    (hOrder : t.DrawsInOrder before)
    (hFault : t.flush.fault = none) :
    t.flush.state.DrawsInOrder before := by
  cases hEmpty : t.batch.isEmpty with
  | true =>
      rw [flush_of_isEmpty hEmpty]
      exact hOrder
  | false =>
      have hWhole := whole_of_flush hEmpty hFault
      rcases flush_of_waiting hEmpty hWhole with
        ⟨messages, hFlush⟩
      rw [hFlush, Outcome.fault_after] at hFault
      rw [hFlush, Outcome.state_after]
      exact record_drawsInOrder
        (ready_drawsInOrder hOrder) hFault

/- A frame keeps the order. -/
theorem flushFrame_drawsInOrder
    {t : Tracker (Observed GpuHost)}
    {before : List Issue}
    (hOrder : t.DrawsInOrder before)
    (hFault : t.flush.fault = none) :
    t.flushFrame.state.DrawsInOrder before := by
  have hFlushed := flush_drawsInOrder hOrder hFault
  have hPasses :
      t.flush.state.submit.state.backend.passes =
        t.flush.state.backend.passes := by
    simp [submit, Backend.submitFrame, Call.pass?]
  have hSubmitted :
      t.flush.state.backend.backend.submitFrame.Ordered
        Batch.fresh.first
        (before ++
          t.flush.state.submit.state.backend.passes.map
            Issue.draw) := by
    rw [hPasses]
    exact GpuHost.submitFrame_ordered hFlushed.ordered _
  have hSize :
      t.flush.state.storage.size < 2 ^ 32 :=
    hFlushed.inStorage.size_lt
  rw [flushFrame_state hFault]
  exact ⟨⟨Nat.zero_le _, hSize⟩, hSubmitted⟩

/- Stored vertices wait behind everything else. -/
theorem store_drawsInOrder
    {t : Tracker (Observed GpuHost)}
    {before : List Issue}
    (hOrder : t.DrawsInOrder before)
    {vertices : List Vertex}
    (hRoom :
      t.batch.last + vertices.length ≤ t.storage.size) :
    (t.store vertices).state.DrawsInOrder before := by
  have hSize : t.storage.size < 2 ^ 32 :=
    hOrder.inStorage.size_lt
  have hKept := inStorage_store hSize hRoom
  rcases store_of_room hSize hRoom with
    ⟨grown, hStored, hFirst, -⟩
  refine ⟨hKept.of_same rfl rfl, ?_⟩
  have hOrdered := hOrder.ordered
  rw [hStored]
  unfold unobserved at hOrdered ⊢
  dsimp only [Outcome.done, copied] at hOrdered ⊢
  rw [hFirst]
  exact hOrdered

/- A change of the render state keeps the order. -/
theorem change_drawsInOrder
    {t : Tracker (Observed GpuHost)}
    {before : List Issue}
    (hOrder : t.DrawsInOrder before)
    {change : Change}
    (hFault : (t.change change).fault = none) :
    (t.change change).state.DrawsInOrder before := by
  rcases change_cases hFault with
    ⟨hForce, hState⟩ | ⟨hFlush, hState⟩
  · rw [hState]
    exact hOrder
  · have hFlushed := flush_drawsInOrder hOrder hFlush
    rw [hState]
    exact ⟨hFlushed.inStorage.of_same rfl rfl,
      hFlushed.ordered⟩

/- An append keeps the order. -/
theorem append_drawsInOrder
    {t : Tracker (Observed GpuHost)}
    {before : List Issue}
    (hOrder : t.DrawsInOrder before)
    {vertices : List Vertex}
    (hFault : (t.append vertices).fault = none) :
    (t.append vertices).state.DrawsInOrder before := by
  rcases append_cases hFault with
    ⟨hRoom, hState⟩ | ⟨hFull, hFlush, hFits, hState⟩
  · rw [hState]
    exact store_drawsInOrder hOrder hRoom
  · have hFrame := flushFrame_drawsInOrder hOrder hFlush
    rw [hState]
    exact store_drawsInOrder hFrame
      (room_flushFrame hFlush hFits)

/- A request keeps the order, a restart by hand apart. -/
theorem perform_drawsInOrder
    {t : Tracker (Observed GpuHost)}
    {before : List Issue}
    (hOrder : t.DrawsInOrder before)
    {request : Request}
    (hRestart : request ≠ .afterFrame)
    (hFault : (t.perform request).fault = none) :
    (t.perform request).state.DrawsInOrder before := by
  cases request with
  | change wanted => exact change_drawsInOrder hOrder hFault
  | append added => exact append_drawsInOrder hOrder hFault
  | flush => exact flush_drawsInOrder hOrder hFault
  | beforeFrame => exact flush_drawsInOrder hOrder hFault
  | afterFrame => exact absurd rfl hRestart
  | flushFrame =>
      exact flushFrame_drawsInOrder hOrder
        ((flushFrame_fault t).mp hFault)

------------------------------------------------------------
-- Operations in Order
------------------------------------------------------------

/- A request issues the draws that it records. -/
theorem perform_inOrder
    {t : Tracker GpuHost}
    {work : List Issue}
    (hOrder : t.InOrder work)
    {request : Request}
    (hRestart : request ≠ .afterFrame)
    (hFault : (t.perform request).fault = none) :
    (t.perform request).state.InOrder
      (work ++ t.issues (.request request)) := by
  have hSame := perform_unobserved t.observe request
  rw [unobserved_observe] at hSame
  rw [← hSame, Outcome.fault_map] at hFault
  rw [← hSame]
  exact perform_drawsInOrder hOrder.observe hRestart hFault

/- An operation without fault extends the issued work. -/
theorem operate_inOrder
    {t : Tracker GpuHost}
    {work : List Issue}
    (hOrder : t.InOrder work)
    {operation : GpuHost.Operation}
    (hRestart : operation ≠ .request .afterFrame)
    (hFault : (t.operate operation).fault = none) :
    (t.operate operation).state.InOrder
      (work ++ t.issues operation) := by
  rcases hOrder with ⟨hStorage, hOrdered⟩
  cases operation with
  | request request =>
      apply perform_inOrder ⟨hStorage, hOrdered⟩ _ hFault
      intro hRequest
      exact hRestart (congrArg _ hRequest)
  | uploadMemory memory =>
      exact ⟨hStorage.of_same rfl rfl,
        GpuHost.uploadMemory_ordered hOrdered memory⟩
  | writeMemory address words =>
      exact ⟨hStorage.of_same rfl rfl,
        GpuHost.writeMemory_ordered hOrdered hFault⟩
  | uploadPalette entries =>
      exact ⟨hStorage.of_same rfl rfl,
        GpuHost.uploadPalette_ordered hOrdered hFault⟩
  | readMemory =>
      exact ⟨hStorage.of_same rfl rfl,
        GpuHost.readMemory_ordered hOrdered⟩

/- A run without fault extends the issued work in order. -/
theorem operateAll_inOrder
    {t : Tracker GpuHost}
    {work : List Issue}
    (hOrder : t.InOrder work)
    (operations : List GpuHost.Operation)
    (hRestarts :
      ∀ operation ∈ operations,
        operation ≠ .request .afterFrame)
    (hFault : (t.operateAll operations).fault = none) :
    (t.operateAll operations).state.InOrder
      (work ++ t.issued operations) := by
  induction operations generalizing t work with
  | nil =>
      rw [issued, List.append_nil]
      exact hOrder
  | cons operation rest ih =>
      rw [operateAll, Outcome.andThen_fault_eq_none]
        at hFault
      rw [List.forall_mem_cons] at hRestarts
      have hNext :=
        operate_inOrder hOrder hRestarts.1 hFault.1
      rw [operateAll, Outcome.state_andThen hFault.1,
        issued, ← List.append_assoc]
      exact ih hNext hRestarts.2 hFault.2

------------------------------------------------------------
-- Words
------------------------------------------------------------

/- A flush of a tracker in order keeps to words. -/
theorem flush_fault_ne_overflow
    {t : Tracker GpuHost}
    {work : List Issue}
    (hOrder : t.InOrder work) :
    t.flush.fault ≠ some .wordOverflow := by
  have hReady : t.ready.InOrder work :=
    prepareResources_inOrder (prepareProgram_inOrder hOrder)
  rcases flush_cases t with
    ⟨messages, hFlush⟩ | hFlush | hFlush
  · rw [hFlush, Outcome.fault_after, record_fault]
    exact GpuHost.recordDraw_fault_ne_overflow
      hReady.ordered _
  · rw [hFlush]
    nofun
  · rw [hFlush]
    nofun

/- An operation in order keeps to words. -/
theorem operate_fault_ne_overflow
    {t : Tracker GpuHost}
    {work : List Issue}
    (hOrder : t.InOrder work)
    (operation : GpuHost.Operation) :
    (t.operate operation).fault ≠ some .wordOverflow := by
  intro hFault
  cases operation with
  | request request =>
      rcases fault_of_perform hFault with
        hFlush | ⟨-, hSize⟩ | ⟨count, capacity, hOther⟩
      · exact flush_fault_ne_overflow hOrder hFlush
      · have hCounted := hOrder.inStorage.size_lt
        omega
      · cases hOther
  | uploadMemory memory => cases hFault
  | writeMemory address words =>
      rw [operate, Outcome.fault_map, GpuHost.writeMemory,
        GpuHost.queueWords] at hFault
      split at hFault
      · cases hFault
      · split at hFault
        · cases hFault
        · cases hFault
  | uploadPalette entries =>
      rw [operate, Outcome.fault_map,
        GpuHost.uploadPalette] at hFault
      split at hFault
      · cases hFault
      · cases hFault
  | readMemory => cases hFault

/- A run in order keeps to words. -/
theorem operateAll_fault_ne_overflow
    {t : Tracker GpuHost}
    {work : List Issue}
    (hOrder : t.InOrder work)
    (operations : List GpuHost.Operation)
    (hRestarts :
      ∀ operation ∈ operations,
        operation ≠ .request .afterFrame) :
    (t.operateAll operations).fault ≠
      some .wordOverflow := by
  induction operations generalizing t work with
  | nil => nofun
  | cons operation rest ih =>
      rw [List.forall_mem_cons] at hRestarts
      rw [operateAll]
      cases hFault : (t.operate operation).fault with
      | none =>
          have hNext :=
            operate_inOrder hOrder hRestarts.1 hFault
          rw [Outcome.fault_andThen hFault]
          exact ih hNext hRestarts.2
      | some fault =>
          rw [Outcome.andThen_of_fault hFault]
          exact operate_fault_ne_overflow hOrder operation

------------------------------------------------------------
-- Runs of a New Host
------------------------------------------------------------

/- A tracker over a new host is in order. -/
theorem fresh_inOrder
    {config : DrawConfig}
    {alignment : UInt32}
    {made : Logged GpuHost}
    (hMade : GpuHost.create config alignment = .ok made)
    (hFits : made.value.RingFits)
    {storage : Array Vertex}
    (hSize : storage.size < 2 ^ 32) :
    (fresh made.value storage).InOrder [] := by
  unfold GpuHost.create at hMade
  split at hMade
  · cases hMade
    refine ⟨⟨Nat.zero_le _, hSize⟩, ?_⟩
    exact GpuHost.ordered_of_submitted rfl rfl hFits _
  · cases hMade

/-
  Program order.  A host with at least one frame slot can be
  made.  As long as words count the vertex storage and
  address the places of its parameter rings, no number
  leaves the words, and for every run without fault of
  requests, uploads and readbacks, the device brings about
  exactly what was issued, in the order in which it was
  issued.  So a draw paints its runs with the vertices and
  the parameters that its batch had when it was recorded,
  after every upload issued before it and before every later
  one, and a readback follows every draw recorded before it.
  Restarts by hand are not requests of the owner.
-/
theorem trace_operateAll
    (config : DrawConfig)
    (alignment : UInt32)
    (hSlots : 0 < config.frameSlots)
    (hAlignment : 0 < alignment)
    (hRing :
      config.paramSlots.toNat *
          (GpuHost.strideFor alignment).toNat ≤ 2 ^ 32) :
    ∃ made,
      GpuHost.create config alignment = .ok made ∧
        ∀ storage operations,
          storage.size < 2 ^ 32 →
          (∀ operation ∈ operations,
            operation ≠ .request .afterFrame) →
          ((fresh made.value storage).operateAll
              operations).fault ≠ some .wordOverflow ∧
            (((fresh made.value storage).operateAll
                operations).fault = none →
              ((fresh made.value storage).operateAll
                  operations).state.backend.trace =
                ((fresh made.value storage).issued
                  operations).flatMap Issue.effects) := by
  have hCreated :
      ∃ made,
        GpuHost.create config alignment = .ok made := by
    rw [GpuHost.create, dif_pos hSlots]
    exact ⟨_, rfl⟩
  rcases hCreated with ⟨made, hMade⟩
  refine ⟨made, hMade, ?_⟩
  intro storage operations hSize hRestarts
  have hFits := GpuHost.create_fits hAlignment hRing hMade
  have hNew := fresh_inOrder hMade hFits hSize
  constructor
  · exact operateAll_fault_ne_overflow hNew operations
      hRestarts
  · intro hFault
    have hEnd :=
      operateAll_inOrder hNew operations hRestarts hFault
    exact hEnd.ordered.trace

/-
  A run on one frame slot with one place for parameters: the
  second draw is submitted early, the third one opens a new
  frame, uploads come in between, and the last draw waits.
-/
def crowdedRun : List GpuHost.Operation :=
  [.request (.append (numbered 1 3)),
    .request (.change (.fixedAlpha 7)),
    .writeMemory 8 [1, 2],
    .request (.append (numbered 4 3)),
    .request (.change (.fixedAlpha 9)),
    .request (.append (numbered 7 3)),
    .request .flush,
    .readMemory,
    .request (.append (numbered 10 3)),
    .request .flush]

/- The sizes of that run. -/
def crowdedConfig : DrawConfig where
  frameSlots := 1
  vertexCapacity := 6
  paramSlots := 1

/- The depths and the parameters that an effect paints. -/
def paintedDepths? :
    Effect → Option (List UInt32 × List UInt8)
  | .paint painting =>
      some (painting.vertices.map Vertex.z, painting.params)
  | _ => none

/-
  The trace of that run is what it issued.  No draw finds
  the vertices or the parameters of a later one, though all
  of them use the same places.
-/
theorem trace_operateAll_crowded :
    ∃ made,
      GpuHost.create crowdedConfig 256 = .ok made ∧
        ((fresh made.value
            (Array.replicate 6 Vertex.zero)).operateAll
              crowdedRun).fault = none ∧
        (((fresh made.value
            (Array.replicate 6 Vertex.zero)).operateAll
              crowdedRun).state.backend.trace.filterMap
                paintedDepths?) =
          [([1, 2, 3], Params.bytes {}),
            ([4, 5, 6], Params.bytes { fixedAlpha := 7 }),
            ([7, 8, 9], Params.bytes { fixedAlpha := 9 }),
            ([10, 11, 12],
              Params.bytes { fixedAlpha := 9 })] ∧
        ((fresh made.value
            (Array.replicate 6 Vertex.zero)).operateAll
              crowdedRun).state.backend.trace =
          ((fresh made.value
              (Array.replicate 6 Vertex.zero)).issued
                crowdedRun).flatMap Issue.effects := by
  rcases trace_operateAll crowdedConfig 256 (by decide)
      (by decide) (by decide) with
    ⟨made, hMade, hTrace⟩
  cases hMade
  refine ⟨_, rfl, ?fault, ?painted,
    (hTrace _ _ ?size ?restarts).2 ?fault⟩
  case fault => decide +kernel
  case painted => decide +kernel
  case size => decide
  case restarts => simp [crowdedRun]

end Tracker

end PagedRaster
