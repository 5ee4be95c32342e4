import PagedRaster.Proofs.Gpu.Device
import PagedRaster.Proofs.Gpu.RingSpace
import PagedRaster.Proofs.Triangle.Serialization

/-
  This file proves that a device host brings work about in
  the order in which it was issued.  An upload follows a
  submission of what waits; a draw writes its vertices and
  its parameters behind everything that waiting passes will
  read.  So each step of the host extends the trace of the
  device by what was issued.

  Key definitions include:
    * `Issue`, `Issue.effects`
    * `GpuHost.Ordered`

  Key theorems include:
    * `GpuHost.ordered_of_command`
    * `GpuHost.submitFrame_ordered`
    * `GpuHost.paint_loaded`
    * `GpuHost.recordDraw_ordered`
    * `GpuHost.recordDraw_fault_ne_overflow`
-/

namespace PagedRaster

------------------------------------------------------------
-- Issued Work
------------------------------------------------------------

/- What is issued to a host: uploads, draws, readback. -/
inductive Issue where
  | replaceMemory (memory : Memory)
  | writeWords (address : UInt32) (words : List UInt32)
  | replacePalette (entries : List UInt32)
  | draw (pass : Pass Descriptor (List Binding))
  | readBack

/- The ranges of vertices that a draw is cut into. -/
def Pass.runs
    {P R : Type}
    (pass : Pass P R) : List (Nat × Nat) :=
  match Overlap.split pass.vertices with
  | .ok runs => runs
  | .error _ => []

/- Cutting triangles into runs leaves no words. -/
theorem Overlap.split_ne_overflow
    (vertices : List Vertex) :
    Overlap.split vertices ≠ .error .wordOverflow := by
  unfold Overlap.split
  split
  · nofun
  · nofun

/-
  What an issue has to bring about.  A draw paints the runs
  of its batch one after the other: the vertices that the
  batch held and the parameters in force when it was
  recorded.
-/
def Issue.effects : Issue → List Effect
  | .replaceMemory memory => [.replaceMemory memory]
  | .writeWords address words =>
      [.writeWords (address.toNat / 4) words]
  | .replacePalette entries => [.replacePalette entries]
  | .draw pass =>
      if pass.scissor.clipped.isEmpty then
        []
      else
        pass.runs.map fun run =>
          .paint
            { vertices := pass.vertices.extract run.1 run.2
              params := pass.params.bytes
              scissor := pass.scissor.clipped
              program := pass.program
              resources := pass.resources }
  | .readBack => [.readBack]

namespace GpuHost

------------------------------------------------------------
-- Ordered Hosts
------------------------------------------------------------

/-
  A host has brought issued work in order, up to the passes
  that still wait.  These draw vertices in front of a place
  of the vertex buffer and read parameters from places of
  the ring that are taken, so what is queued behind them
  does not touch what they will find.
-/
structure Ordered
    (host : GpuHost)
    (place : Nat)
    (work : List Issue) : Prop where
  trace : host.trace = work.flatMap Issue.effects
  vertices :
    ∀ pass ∈ host.pending,
      pass.first ≤ pass.last ∧ pass.last ≤ place
  params :
    ∀ pass ∈ host.pending,
      pass.paramOffset.toNat + Params.byteSize ≤
        host.nextOffset
  ring : host.RingFits

/- Without waiting passes only the trace matters. -/
theorem ordered_of_submitted
    {host : GpuHost}
    {work : List Issue}
    (hTrace : host.trace = work.flatMap Issue.effects)
    (hNone : host.pending = [])
    (hFits : host.RingFits)
    (place : Nat) :
    host.Ordered place work where
  trace := hTrace
  vertices := by simp [hNone]
  params := by simp [hNone]
  ring := hFits

/- The place may move on. -/
theorem Ordered.mono
    {host : GpuHost}
    {place later : Nat}
    {work : List Issue}
    (hOrdered : host.Ordered place work)
    (hLater : place ≤ later) :
    host.Ordered later work where
  trace := hOrdered.trace
  vertices := by
    intro pass hPass
    have hRange := hOrdered.vertices pass hPass
    exact ⟨hRange.1, Nat.le_trans hRange.2 hLater⟩
  params := hOrdered.params
  ring := hOrdered.ring

------------------------------------------------------------
-- Submissions
------------------------------------------------------------

/- A submission lets the waiting passes run. -/
theorem trace_submitRecording
    (host : GpuHost) :
    host.submitRecording.trace = host.trace := by
  have hCommands :
      host.submitRecording.commands =
        host.commands ++ [.submit host.pending] := by
    simp [commands, submitRecording, Queue.submit, pending]
  rw [trace_eq, hCommands]
  exact List.append_nil _

/- Submitting what waits changes no trace. -/
theorem trace_submitPending
    (host : GpuHost) :
    host.submitPending.trace = host.trace := by
  unfold submitPending
  split
  · exact trace_submitRecording host
  · rfl

/- No passes wait after submitting what waits. -/
theorem pending_submitPending
    (host : GpuHost) :
    host.submitPending.pending = [] := by
  unfold submitPending
  split
  · rfl
  · rename_i hNone
    simp [pending, hNone]

/- Submitting what waits keeps the ring. -/
theorem submitPending_sameRing
    (host : GpuHost) :
    SameRing host host.submitPending := by
  unfold submitPending
  split
  · refine ⟨?_, rfl, rfl⟩
    have hSlot :
        host.submitRecording.slot =
          { host.slot with
            submission :=
              some host.submitRecording.queue.submissions } :=
      Vector.getElem_set_self host.current.isLt
    rw [hSlot]
  · exact ⟨rfl, rfl, rfl⟩

/- Waiting for a frame slot changes no trace. -/
theorem awaitSlot_trace
    (host : GpuHost) :
    host.awaitSlot.trace = host.trace ∧
      host.awaitSlot.pending = host.pending ∧
      host.awaitSlot.paramSlots = host.paramSlots ∧
      host.awaitSlot.paramStride = host.paramStride := by
  unfold awaitSlot
  split
  · refine ⟨?_, rfl, rfl, rfl⟩
    rename_i index hIndex
    have hCommands := commands_enqueue host (.wait index)
    exact trace_of_quiet hCommands rfl rfl fun _ _ => rfl
  · exact ⟨rfl, rfl, rfl, rfl⟩

/- A new frame keeps the order, wherever it starts. -/
theorem submitFrame_ordered
    {host : GpuHost}
    {place : Nat}
    {work : List Issue}
    (hOrdered : host.Ordered place work)
    (start : Nat) :
    host.submitFrame.Ordered start work := by
  rcases awaitSlot_trace host.submitRecording.advance with
    ⟨hTrace, hPending, hPlaces, hStride⟩
  apply ordered_of_submitted
  · have hSubmitted := trace_submitRecording host
    exact hTrace.trans (hSubmitted.trans hOrdered.trace)
  · exact hPending
  · exact resetRing_fits hOrdered.ring hPlaces hStride

------------------------------------------------------------
-- Uploads and Readback
------------------------------------------------------------

/-
  A command that follows a submission of what waits is
  ordered behind all issued work.
-/
theorem ordered_of_command
    {host next : GpuHost}
    {place : Nat}
    {work : List Issue}
    {command : Command}
    {issue : Issue}
    (hOrdered : host.Ordered place work)
    (hCommands :
      next.commands =
        host.submitPending.commands ++ [command])
    (hPending : next.pending = host.submitPending.pending)
    (hRing : SameRing host.submitPending next)
    (hEffects :
      host.submitPending.device.effects command =
        issue.effects) :
    next.Ordered place (work ++ [issue]) := by
  have hNone := pending_submitPending host
  apply ordered_of_submitted
  · rw [trace_of_submitted hCommands hPending hNone,
      trace_submitPending, hOrdered.trace, hEffects]
    simp
  · exact hPending.trans hNone
  · have hSubmitted := submitPending_sameRing host
    exact (hOrdered.ring.of_same hSubmitted).of_same hRing

/- Replacing the memory is ordered. -/
theorem uploadMemory_ordered
    {host : GpuHost}
    {place : Nat}
    {work : List Issue}
    (hOrdered : host.Ordered place work)
    (memory : Memory) :
    (host.uploadMemory memory).Ordered place
      (work ++ [.replaceMemory memory]) :=
  ordered_of_command hOrdered (commands_enqueue _ _) rfl
    ⟨rfl, rfl, rfl⟩ rfl

/- Writing words is ordered. -/
theorem writeMemory_ordered
    {host : GpuHost}
    {place : Nat}
    {work : List Issue}
    (hOrdered : host.Ordered place work)
    {address : UInt32}
    {words : List UInt32}
    (hFault :
      (host.writeMemory address words).fault = none) :
    (host.writeMemory address words).state.Ordered place
      (work ++ [.writeWords address words]) := by
  unfold writeMemory queueWords at hFault ⊢
  split
  · rename_i hUnaligned
    rw [if_pos hUnaligned] at hFault
    cases hFault
  · rename_i hAligned
    rw [if_neg hAligned] at hFault
    split
    · exact ordered_of_command hOrdered
        (commands_enqueue _ _) rfl ⟨rfl, rfl, rfl⟩ rfl
    · rename_i hPast
      rw [if_neg hPast] at hFault
      cases hFault

/- Replacing the palette is ordered. -/
theorem uploadPalette_ordered
    {host : GpuHost}
    {place : Nat}
    {work : List Issue}
    (hOrdered : host.Ordered place work)
    {entries : List UInt32}
    (hFault : (host.uploadPalette entries).fault = none) :
    (host.uploadPalette entries).state.Ordered place
      (work ++ [.replacePalette entries]) := by
  unfold uploadPalette at hFault ⊢
  dsimp only at hFault ⊢
  split
  · exact ordered_of_command hOrdered
      (commands_enqueue _ _) rfl ⟨rfl, rfl, rfl⟩ rfl
  · rename_i hSize
    rw [if_neg hSize] at hFault
    cases hFault

/- Reading the memory back is ordered. -/
theorem readMemory_ordered
    {host : GpuHost}
    {place : Nat}
    {work : List Issue}
    (hOrdered : host.Ordered place work) :
    host.readMemory.2.Ordered place
      (work ++ [.readBack]) := by
  have hCommands :
      host.readMemory.2.commands =
        host.submitPending.commands ++ [.readBack] := by
    simp [readMemory, commands, Queue.readBack]
  exact ordered_of_command hOrdered hCommands rfl
    ⟨rfl, rfl, rfl⟩ rfl

------------------------------------------------------------
-- Draws
------------------------------------------------------------

/- Making room in the ring does not fail. -/
theorem makeRoom_fault
    (host : GpuHost) :
    host.makeRoom.fault = none := by
  unfold makeRoom
  split
  · rfl
  · rfl

/- Making room in the ring keeps the order. -/
theorem makeRoom_ordered
    {host : GpuHost}
    {place : Nat}
    {work : List Issue}
    (hOrdered : host.Ordered place work) :
    host.makeRoom.state.Ordered place work := by
  unfold makeRoom
  split
  · have hSubmitted :
        host.submitRecording.resetRing.trace =
          work.flatMap Issue.effects :=
      (trace_submitRecording host).trans hOrdered.trace
    exact ordered_of_submitted hSubmitted rfl
      (resetRing_fits hOrdered.ring rfl rfl) place
  · exact hOrdered

/- The pass that a host records for a run of a draw. -/
def runPass
    (host : GpuHost)
    (pass : Pass Descriptor (List Binding))
    (scissor : Scissor)
    (offset : UInt32)
    (run : Nat × Nat) : RenderPass where
  slot := host.current.val
  paramOffset := offset
  start := pass.start + run.1.toUInt32
  stop := pass.start + run.2.toUInt32
  scissor := scissor
  program := pass.program
  resources := pass.resources

/- The passes of a draw wait behind those before them. -/
theorem pending_recordRuns
    (host : GpuHost)
    (pass : Pass Descriptor (List Binding))
    (scissor : Scissor)
    (offset : UInt32)
    (runs : List (Nat × Nat)) :
    (host.recordRuns pass scissor offset runs).pending =
      host.pending ++
        runs.map (host.runPass pass scissor offset) := by
  simp only [pending, recordRuns, Option.getD_some,
    List.reverse_append, List.reverse_reverse]
  rfl

/- The write of the vertices of a draw. -/
def vertexWrite
    (host : GpuHost)
    (pass : Pass Descriptor (List Binding)) : Command :=
  .writeVertices host.current.val pass.first pass.vertices

/- The write of the parameters of a draw. -/
def paramWrite
    (host : GpuHost)
    (pass : Pass Descriptor (List Binding)) : Command :=
  .writeParams host.current.val host.nextOffset pass.params

/-
  The host when vertices and parameters of a draw have been
  queued and the place in the ring is taken.
-/
def loaded
    (host : GpuHost)
    (pass : Pass Descriptor (List Binding)) : GpuHost :=
  ((host.enqueue (host.vertexWrite pass)).enqueue
      (host.paramWrite pass)).setSlot
    { host.slot with nextParam := host.slot.nextParam + 1 }

/- Loading a draw queues its two writes. -/
theorem commands_loaded
    (host : GpuHost)
    (pass : Pass Descriptor (List Binding)) :
    (host.loaded pass).commands =
      host.commands ++
        [host.vertexWrite pass, host.paramWrite pass] := by
  have hLoaded :
      (host.loaded pass).commands =
        ((host.enqueue (host.vertexWrite pass)).enqueue
          (host.paramWrite pass)).commands :=
    rfl
  rw [hLoaded, commands_enqueue, commands_enqueue,
    List.append_assoc]
  rfl

/- A draw is loaded at a place that a word addresses. -/
theorem pushDraw_eq
    {host : GpuHost}
    {pass : Pass Descriptor (List Binding)}
    (scissor : Scissor)
    (hFits : host.RingFits)
    (hRoom : host.ringIsFull = false)
    (hRange : pass.InStorage) :
    ∃ offset : UInt32,
      offset.toNat = host.nextOffset ∧
        host.pushDraw pass scissor =
          match Overlap.split pass.vertices with
          | .error fault => .stopped (host.loaded pass) fault
          | .ok runs =>
              ⟨(host.loaded pass).recordRuns pass scissor
                  offset runs,
                [drawMessage pass runs.length], none⟩ := by
  rcases exists_ringOffset hFits hRoom with
    ⟨offset, hOffset, hNumber⟩
  refine ⟨offset, hNumber, ?_⟩
  have hQueued :
      (host.enqueue
        (.writeVertices host.current.val pass.first
          pass.vertices)).ringIsFull = false :=
    hRoom
  have hProduct :
      checkedMul
          (host.enqueue
            (.writeVertices host.current.val pass.first
              pass.vertices)).slot.nextParam
          (host.enqueue
            (.writeVertices host.current.val pass.first
              pass.vertices)).paramStride =
        some offset :=
    hOffset
  unfold pushDraw pushParams
  rw [if_pos hRange]
  simp only [hQueued, hProduct, Bool.false_eq_true, if_false,
    hNumber]
  rfl

/- A draw that finds no room in the ring is a fault. -/
theorem fault_pushDraw_of_full
    {host : GpuHost}
    {pass : Pass Descriptor (List Binding)}
    {scissor : Scissor}
    (hRange : pass.InStorage)
    (hFull : host.ringIsFull = true) :
    (host.pushDraw pass scissor).fault =
      some .parametersExhausted := by
  have hQueued :
      (host.enqueue
        (.writeVertices host.current.val pass.first
          pass.vertices)).ringIsFull = true :=
    hFull
  simp [pushDraw, pushParams, hRange, hQueued,
    Outcome.stopped]

/- A draw without fault finds room in the ring. -/
theorem ringIsFull_of_pushDraw
    {host : GpuHost}
    {pass : Pass Descriptor (List Binding)}
    {scissor : Scissor}
    (hRange : pass.InStorage)
    (hFault : (host.pushDraw pass scissor).fault = none) :
    host.ringIsFull = false := by
  rw [Bool.eq_false_iff]
  intro hFull
  rw [fault_pushDraw_of_full hRange hFull] at hFault
  cases hFault

/- A draw without fault is loaded and then recorded. -/
theorem pushDraw_state
    {host : GpuHost}
    {pass : Pass Descriptor (List Binding)}
    {scissor : Scissor}
    (hFits : host.RingFits)
    (hRange : pass.InStorage)
    (hFault : (host.pushDraw pass scissor).fault = none) :
    ∃ offset : UInt32,
      offset.toNat = host.nextOffset ∧
        Overlap.split pass.vertices = .ok pass.runs ∧
        (host.pushDraw pass scissor).state =
          (host.loaded pass).recordRuns pass scissor offset
            pass.runs := by
  have hRoom := ringIsFull_of_pushDraw hRange hFault
  rcases pushDraw_eq scissor hFits hRoom hRange with
    ⟨offset, hOffset, hPushed⟩
  refine ⟨offset, hOffset, ?_⟩
  rw [hPushed] at hFault ⊢
  cases hSplit : Overlap.split pass.vertices with
  | error fault =>
      rw [hSplit] at hFault
      cases hFault
  | ok runs =>
      rw [Pass.runs, hSplit]
      exact ⟨rfl, rfl⟩

/- Loading a draw acts on the device twice. -/
theorem device_loaded
    (host : GpuHost)
    (pass : Pass Descriptor (List Binding)) :
    (host.loaded pass).device =
      (host.device.after (host.vertexWrite pass)).after
        (host.paramWrite pass) := by
  have hLoaded :
      (host.loaded pass).commands =
        (host.enqueue (host.vertexWrite pass)).commands ++
          [host.paramWrite pass] :=
    commands_enqueue _ _
  rw [device_of_command hLoaded,
    device_of_command (commands_enqueue host _)]

/-
  Loading a draw behind all waiting passes changes nothing
  that they will find.
-/
theorem painting_loaded_of_waiting
    {host : GpuHost}
    {pass : Pass Descriptor (List Binding)}
    {work : List Issue}
    (hOrdered : host.Ordered pass.first work)
    {waiting : RenderPass}
    (hWaiting : waiting ∈ host.pending) :
    (host.loaded pass).device.painting waiting =
      host.device.painting waiting := by
  have hRange := hOrdered.vertices waiting hWaiting
  have hOffset := hOrdered.params waiting hWaiting
  rw [device_loaded, paramWrite,
    Device.painting_after_writeParams _ _ _ hOffset,
    vertexWrite,
    Device.painting_after_writeVertices _ _ _ hRange.1
      hRange.2]

/- Loading a draw changes no trace. -/
theorem trace_loaded
    {host : GpuHost}
    {pass : Pass Descriptor (List Binding)}
    {work : List Issue}
    (hOrdered : host.Ordered pass.first work) :
    (host.loaded pass).trace = host.trace := by
  have hPaint :
      (host.loaded pass).device.paint
          (host.loaded pass).pending =
        host.device.paint host.pending := by
    apply List.map_congr_left
    intro waiting hWaiting
    rw [painting_loaded_of_waiting hOrdered hWaiting]
  rw [trace_eq, trace_eq, hPaint, commands_loaded,
    Device.trace_append]
  exact congrArg (· ++ _) (List.append_nil _)

/- A draw in the vertex storage lies in its own range. -/
theorem length_vertices
    {pass : Pass Descriptor (List Binding)}
    (hRange : pass.InStorage) :
    pass.first + pass.vertices.length = pass.last := by
  have hOrder := hRange.1
  have hEnd := hRange.2
  simp only [Pass.vertices, Array.length_toList,
    Array.size_extract]
  omega

/- A place in the range of a draw is a word. -/
theorem toNat_runPlace
    {pass : Pass Descriptor (List Binding)}
    (hRange : pass.InStorage)
    {place : Nat}
    (hPlace : place ≤ pass.vertices.length) :
    (pass.start + place.toUInt32).toNat =
      pass.first + place := by
  have hLength := length_vertices hRange
  have hWord : pass.last < 2 ^ 32 := pass.stop.toNat_lt
  have hNumber : place.toUInt32.toNat = place :=
    Nat.mod_eq_of_lt (by omega)
  rw [UInt32.toNat_add, hNumber]
  exact Nat.mod_eq_of_lt (by rw [← Pass.first]; omega)

/- The pass of a run draws the places of the run. -/
theorem ends_runPass
    (host : GpuHost)
    {pass : Pass Descriptor (List Binding)}
    (scissor : Scissor)
    (offset : UInt32)
    (hRange : pass.InStorage)
    {run : Nat × Nat}
    (hOrder : run.1 ≤ run.2)
    (hEnd : run.2 ≤ pass.vertices.length) :
    (host.runPass pass scissor offset run).first =
        pass.first + run.1 ∧
      (host.runPass pass scissor offset run).last =
        pass.first + run.2 :=
  ⟨toNat_runPlace hRange (Nat.le_trans hOrder hEnd),
    toNat_runPlace hRange hEnd⟩

/-
  A pass of a loaded draw finds the vertices of its run and
  the parameters of the draw.
-/
theorem painting_loaded
    (host : GpuHost)
    {pass : Pass Descriptor (List Binding)}
    (scissor : Scissor)
    {offset : UInt32}
    (hRange : pass.InStorage)
    (hOffset : offset.toNat = host.nextOffset)
    {run : Nat × Nat}
    (hOrder : run.1 ≤ run.2)
    (hEnd : run.2 ≤ pass.vertices.length) :
    (host.loaded pass).device.painting
        (host.runPass pass scissor offset run) =
      { vertices := pass.vertices.extract run.1 run.2
        params := pass.params.bytes
        scissor := scissor
        program := pass.program
        resources := pass.resources } := by
  have hInside :
      run.1 + (run.2 - run.1) ≤ pass.vertices.length := by
    omega
  have hVertices :=
    Buffer.read_write_self
      (host.device.vertices host.current.val) pass.first
      pass.vertices hInside
  have hWhole :
      0 + Params.byteSize ≤ pass.params.bytes.length := by
    rw [Nat.zero_add, pass.params.length_bytes]
  have hParams :=
    Buffer.read_write_self
      (host.device.params host.current.val) host.nextOffset
      pass.params.bytes hWhole
  rcases host.ends_runPass scissor offset hRange hOrder
      hEnd with
    ⟨hFirst, hLast⟩
  have hLength :
      pass.first + run.2 - (pass.first + run.1) =
        run.2 - run.1 := by
    omega
  rw [device_loaded]
  simp only [Device.painting, hFirst, hLast]
  simp only [Device.after, vertexWrite, paramWrite, runPass,
    if_true, hLength, hVertices, hOffset]
  congr 1

/- A draw that the scissor leaves no pixel paints nothing. -/
theorem effects_draw_of_clipped
    {pass : Pass Descriptor (List Binding)}
    (hClipped : pass.scissor.clipped.isEmpty = true) :
    (Issue.draw pass).effects = [] :=
  if_pos hClipped

/- Any other draw paints its runs. -/
theorem effects_draw_of_shown
    {pass : Pass Descriptor (List Binding)}
    (hShown : pass.scissor.clipped.isEmpty = false) :
    (Issue.draw pass).effects =
      pass.runs.map fun run =>
        .paint
          { vertices := pass.vertices.extract run.1 run.2
            params := pass.params.bytes
            scissor := pass.scissor.clipped
            program := pass.program
            resources := pass.resources } :=
  if_neg (ne_true_of_eq_false hShown)

/- A loaded draw takes one place of the ring. -/
theorem nextParam_loaded
    {host : GpuHost}
    (hFits : host.RingFits)
    (hRoom : host.ringIsFull = false)
    (pass : Pass Descriptor (List Binding)) :
    (host.loaded pass).slot.nextParam.toNat =
      host.slot.nextParam.toNat + 1 := by
  have hSlot :
      (host.loaded pass).slot =
        { host.slot with
          nextParam := host.slot.nextParam + 1 } :=
    Vector.getElem_set_self host.current.isLt
  rw [hSlot]
  exact toNat_nextParam hFits hRoom

/- So the place behind it lies one stride further on. -/
theorem nextOffset_loaded
    {host : GpuHost}
    (hFits : host.RingFits)
    (hRoom : host.ringIsFull = false)
    (pass : Pass Descriptor (List Binding)) :
    (host.loaded pass).nextOffset =
      host.nextOffset + host.paramStride.toNat := by
  rw [nextOffset, nextParam_loaded hFits hRoom]
  exact Nat.succ_mul _ _

/- A ring with room for a draw fits when it is loaded. -/
theorem loaded_fits
    {host : GpuHost}
    (hFits : host.RingFits)
    (hRoom : host.ringIsFull = false)
    (pass : Pass Descriptor (List Binding)) :
    (host.loaded pass).RingFits := by
  refine RingFits.of_taken hFits rfl rfl ?_
  rw [nextParam_loaded hFits hRoom]
  exact hFits.taken_lt hRoom

/- Recorded runs are drawn behind all that waits. -/
theorem trace_recordRuns
    (host : GpuHost)
    (pass : Pass Descriptor (List Binding))
    (scissor : Scissor)
    (offset : UInt32)
    (runs : List (Nat × Nat)) :
    (host.recordRuns pass scissor offset runs).trace =
      host.trace ++
        host.device.paint
          (runs.map (host.runPass pass scissor offset)) := by
  rw [trace_eq, trace_eq, pending_recordRuns, Device.paint,
    List.map_append, ← List.append_assoc]
  rfl

/- The runs of a loaded draw bring about what it issues. -/
theorem paint_loaded
    (host : GpuHost)
    {pass : Pass Descriptor (List Binding)}
    {offset : UInt32}
    (hRange : pass.InStorage)
    (hOffset : offset.toNat = host.nextOffset)
    (hSplit : Overlap.split pass.vertices = .ok pass.runs)
    (hShown : pass.scissor.clipped.isEmpty = false) :
    (host.loaded pass).device.paint
        (pass.runs.map
          (host.runPass pass pass.scissor.clipped offset)) =
      (Issue.draw pass).effects := by
  rw [effects_draw_of_shown hShown, Device.paint,
    List.map_map]
  apply List.map_congr_left
  intro run hRun
  have hBounds := Overlap.bounds_of_split hSplit run hRun
  exact congrArg Effect.paint
    (painting_loaded host pass.scissor.clipped hRange
      hOffset hBounds.1 hBounds.2)

/- Pushing a draw issues it behind all other work. -/
theorem pushDraw_ordered
    {host : GpuHost}
    {pass : Pass Descriptor (List Binding)}
    {work : List Issue}
    (hOrdered : host.Ordered pass.first work)
    (hRange : pass.InStorage)
    (hShown : pass.scissor.clipped.isEmpty = false)
    (hFault :
      (host.pushDraw pass pass.scissor.clipped).fault =
        none) :
    (host.pushDraw pass pass.scissor.clipped).state.Ordered
      pass.last (work ++ [.draw pass]) := by
  have hFits := hOrdered.ring
  have hRoom := ringIsFull_of_pushDraw hRange hFault
  rcases pushDraw_state hFits hRange hFault with
    ⟨offset, hOffset, hSplit, hState⟩
  have hBounds := Overlap.bounds_of_split hSplit
  have hLength := length_vertices hRange
  have hPending :=
    pending_recordRuns (host.loaded pass) pass
      pass.scissor.clipped offset pass.runs
  rw [hState]
  constructor
  · have hPaint :=
      paint_loaded host hRange hOffset hSplit hShown
    -- Loading a draw does not move to another slot.
    have hRecorded :
        ((host.loaded pass).recordRuns pass
            pass.scissor.clipped offset pass.runs).trace =
          (host.loaded pass).trace ++
            (Issue.draw pass).effects :=
      (trace_recordRuns _ _ _ _ _).trans
        (congrArg _ hPaint)
    rw [hRecorded, trace_loaded hOrdered, hOrdered.trace]
    simp
  · intro waiting hWaiting
    rw [hPending] at hWaiting
    rcases List.mem_append.mp hWaiting with hOld | hNew
    · have hBefore := hOrdered.vertices waiting hOld
      omega
    · rcases List.mem_map.mp hNew with ⟨run, hRun, rfl⟩
      have hRunBounds := hBounds run hRun
      rcases (host.loaded pass).ends_runPass
          pass.scissor.clipped offset hRange hRunBounds.1
          hRunBounds.2 with
        ⟨hFirst, hLast⟩
      rw [hFirst, hLast]
      omega
  · have hNext :
        ((host.loaded pass).recordRuns pass
            pass.scissor.clipped offset
            pass.runs).nextOffset =
          host.nextOffset + host.paramStride.toNat :=
      nextOffset_loaded hFits hRoom pass
    intro waiting hWaiting
    rw [hPending] at hWaiting
    have hStride := hFits.stride
    rw [hNext]
    rcases List.mem_append.mp hWaiting with hOld | hNew
    · have hBefore := hOrdered.params waiting hOld
      omega
    · rcases List.mem_map.mp hNew with ⟨run, hRun, rfl⟩
      simp only [runPass]
      omega
  · exact (loaded_fits hFits hRoom pass).of_same
      ⟨rfl, rfl, rfl⟩

/- Recording a draw issues it behind all other work. -/
theorem recordDraw_ordered
    {host : GpuHost}
    {pass : Pass Descriptor (List Binding)}
    {work : List Issue}
    (hOrdered : host.Ordered pass.first work)
    (hRange : pass.InStorage)
    (hFault : (host.recordDraw pass).fault = none) :
    (host.recordDraw pass).state.Ordered pass.last
      (work ++ [.draw pass]) := by
  unfold recordDraw at hFault ⊢
  dsimp only at hFault ⊢
  cases hShown : pass.scissor.clipped.isEmpty with
  | true =>
      rw [if_pos rfl]
      constructor
      · have hNone := effects_draw_of_clipped hShown
        simp [Outcome.done, hOrdered.trace, hNone]
      · exact (hOrdered.mono hRange.1).vertices
      · exact hOrdered.params
      · exact hOrdered.ring
  | false =>
      rw [hShown, if_neg Bool.false_ne_true] at hFault
      rw [if_neg Bool.false_ne_true]
      have hRoom := makeRoom_fault host
      rw [Outcome.fault_andThen hRoom] at hFault
      rw [Outcome.state_andThen hRoom]
      exact pushDraw_ordered (makeRoom_ordered hOrdered)
        hRange hShown hFault

------------------------------------------------------------
-- Faults
------------------------------------------------------------

/- A draw pushed to a ring that fits keeps to words. -/
theorem pushDraw_fault_ne_overflow
    {host : GpuHost}
    (hFits : host.RingFits)
    (pass : Pass Descriptor (List Binding))
    (scissor : Scissor) :
    (host.pushDraw pass scissor).fault ≠
      some .wordOverflow := by
  by_cases hRange : pass.InStorage
  · cases hRoom : host.ringIsFull with
    | true =>
        rw [fault_pushDraw_of_full hRange hRoom]
        nofun
    | false =>
        rcases pushDraw_eq scissor hFits hRoom hRange with
          ⟨offset, -, hPushed⟩
        rw [hPushed]
        cases hSplit : Overlap.split pass.vertices with
        | error fault =>
            intro hFault
            cases hFault
            exact Overlap.split_ne_overflow _ hSplit
        | ok runs => nofun
  · rw [pushDraw, if_neg hRange]
    nofun

/- A draw recorded in a ring that fits keeps to words. -/
theorem recordDraw_fault_ne_overflow
    {host : GpuHost}
    {place : Nat}
    {work : List Issue}
    (hOrdered : host.Ordered place work)
    (pass : Pass Descriptor (List Binding)) :
    (host.recordDraw pass).fault ≠ some .wordOverflow := by
  unfold recordDraw
  dsimp only
  split
  · nofun
  · rw [Outcome.fault_andThen (makeRoom_fault host)]
    exact pushDraw_fault_ne_overflow
      (makeRoom_ordered hOrdered).ring pass _

end GpuHost

end PagedRaster
