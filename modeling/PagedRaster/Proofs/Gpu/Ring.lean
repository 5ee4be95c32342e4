import Mathlib.Data.List.DropRight
import PagedRaster.Proofs.Gpu.Order
import PagedRaster.Proofs.Gpu.Slots

/-
  This file proves which place of the parameter ring a draw
  takes.  Draws take the places in turn, a full ring is
  submitted early and starts over, and so does the ring of a
  new frame.  Whatever else a host is asked for takes no
  place and frees none.

  Key definitions include:
    * `Pass.IsTriangleList`
    * `GpuHost.Action.shownDraws`
    * `GpuHost.Action.sinceFrame`
    * `GpuHost.takenAt`
    * `GpuHost.RecordsAt`
    * `GpuHost.RingAfter`

  Key theorems include:
    * `GpuHost.act_keepsRing`
    * `GpuHost.recordDraw_recordsAt`
    * `GpuHost.actAll_ringAfter`
    * `GpuHost.ring_takes_turns`
-/

namespace PagedRaster

------------------------------------------------------------
-- Draws of a Run
------------------------------------------------------------

/- The pass draws whole triangles of its vertex storage. -/
structure Pass.IsTriangleList
    {P R : Type}
    (pass : Pass P R) : Prop where
  inStorage : pass.InStorage
  whole : pass.count % 3 = 0

/- A triangle list can be cut into runs. -/
theorem Pass.IsTriangleList.split_eq
    {pass : Pass Descriptor (List Binding)}
    (hList : pass.IsTriangleList) :
    Overlap.split pass.vertices = .ok pass.runs := by
  have hWhole : pass.vertices.length % 3 = 0 := by
    have hLength := GpuHost.length_vertices hList.inStorage
    have hCount := hList.whole
    have hNumber : pass.vertices.length = pass.count := by
      rw [Pass.count]
      omega
    rw [hNumber, hCount]
  have hSplit := Overlap.split_eq hWhole
  rw [Pass.runs, hSplit]

namespace GpuHost

namespace Action

/- The pass of an action that draws where it can be seen. -/
def shownDraw? :
    Action → Option (Pass Descriptor (List Binding))
  | .recordDraw pass =>
      if pass.scissor.clipped.isEmpty then none
      else some pass
  | _ => none

/- A draw that cannot be seen is left no pixel. -/
theorem hidden_of_shownDraw?
    {pass : Pass Descriptor (List Binding)}
    (hNone : (recordDraw pass).shownDraw? = none) :
    pass.scissor.clipped.isEmpty = true := by
  by_contra hShown
  rw [shownDraw?, if_neg hShown] at hNone
  cases hNone

/- An action with a draw that can be seen records it. -/
theorem eq_recordDraw
    {action : Action}
    {pass : Pass Descriptor (List Binding)}
    (hDraw : action.shownDraw? = some pass) :
    action = .recordDraw pass ∧
      pass.scissor.clipped.isEmpty = false := by
  cases action with
  | recordDraw drawn =>
      rw [shownDraw?] at hDraw
      split at hDraw
      · cases hDraw
      · rename_i hShown
        cases hDraw
        exact ⟨rfl, Bool.eq_false_iff.mpr hShown⟩
  | _ => cases hDraw

/- The draws among actions that can be seen, in order. -/
def shownDraws
    (actions : List Action) :
    List (Pass Descriptor (List Binding)) :=
  actions.filterMap shownDraw?

/- The action ends a frame. -/
def endsFrame : Action → Bool
  | .submitFrame => true
  | _ => false

/- Only the submission of a frame ends it. -/
theorem eq_submitFrame
    {action : Action}
    (hFrame : action.endsFrame = true) :
    action = .submitFrame := by
  cases action with
  | submitFrame => rfl
  | _ => cases hFrame

/- The actions since the last frame was submitted. -/
def sinceFrame
    (actions : List Action) : List Action :=
  actions.rtakeWhile fun action => !action.endsFrame

/- The number of draws of a frame that can be seen. -/
def frameDraws
    (actions : List Action) : Nat :=
  (shownDraws (sinceFrame actions)).length

/- A draw that can be seen is the last one of its run. -/
theorem shownDraws_concat_of_shown
    (actions : List Action)
    {pass : Pass Descriptor (List Binding)}
    (hShown : pass.scissor.clipped.isEmpty = false) :
    shownDraws (actions ++ [.recordDraw pass]) =
      shownDraws actions ++ [pass] := by
  simp [shownDraws, shownDraw?, hShown]

/- Any other action is no draw of its run. -/
theorem shownDraws_concat_of_none
    (actions : List Action)
    {action : Action}
    (hNone : action.shownDraw? = none) :
    shownDraws (actions ++ [action]) =
      shownDraws actions := by
  simp [shownDraws, hNone]

/- A frame that was just submitted has no draws yet. -/
theorem frameDraws_submitFrame
    (actions : List Action) :
    frameDraws (actions ++ [.submitFrame]) = 0 := by
  rw [frameDraws, sinceFrame, List.rtakeWhile_concat]
  rfl

/- Any other action belongs to the frame. -/
theorem sinceFrame_concat
    (actions : List Action)
    {action : Action}
    (hFrame : action.endsFrame = false) :
    sinceFrame (actions ++ [action]) =
      sinceFrame actions ++ [action] := by
  rw [sinceFrame, List.rtakeWhile_concat, hFrame]
  rfl

/- A draw that can be seen is one more of the frame. -/
theorem frameDraws_concat_of_shown
    (actions : List Action)
    {pass : Pass Descriptor (List Binding)}
    (hShown : pass.scissor.clipped.isEmpty = false) :
    frameDraws (actions ++ [.recordDraw pass]) =
      frameDraws actions + 1 := by
  rw [frameDraws, sinceFrame_concat actions rfl,
    shownDraws_concat_of_shown _ hShown, List.length_append]
  rfl

/- Any other action is no draw of the frame. -/
theorem frameDraws_concat_of_none
    (actions : List Action)
    {action : Action}
    (hFrame : action.endsFrame = false)
    (hNone : action.shownDraw? = none) :
    frameDraws (actions ++ [action]) =
      frameDraws actions := by
  rw [frameDraws, sinceFrame_concat actions hFrame,
    shownDraws_concat_of_none _ hNone]
  rfl

end Action

------------------------------------------------------------
-- Rings that Are Kept
------------------------------------------------------------

/- The places taken in the ring of a frame slot. -/
def takenAt
    (host : GpuHost)
    (place : Nat) : Nat :=
  host.slots[place]?.elim 0 fun slot => slot.nextParam.toNat

/- The places taken in the slot in use. -/
theorem takenAt_current
    (host : GpuHost) :
    host.takenAt host.current.val =
      host.slot.nextParam.toNat := by
  rw [takenAt, getElem?_current]
  rfl

/- A changed slot has the ring that it is given. -/
theorem takenAt_setSlot
    (host : GpuHost)
    (slot : FrameSlot)
    (place : Nat) :
    (host.setSlot slot).takenAt place =
      if place = host.current.val then slot.nextParam.toNat
      else host.takenAt place := by
  rw [takenAt, getElem?_setSlot]
  split
  · rfl
  · rfl

/-
  The host stays on its frame slot, and the rings of all
  slots and the number of passes are as they were.
-/
structure KeepsRing
    (host next : GpuHost) : Prop where
  current : next.current.val = host.current.val
  paramSlots : next.paramSlots = host.paramSlots
  paramStride : next.paramStride = host.paramStride
  passes : next.passes = host.passes
  taken : ∀ place, next.takenAt place = host.takenAt place

/- Nothing done keeps the ring. -/
theorem KeepsRing.refl
    (host : GpuHost) :
    KeepsRing host host :=
  ⟨rfl, rfl, rfl, rfl, fun _ => rfl⟩

/- A ring that is kept may be kept again. -/
theorem KeepsRing.trans
    {host middle next : GpuHost}
    (hFirst : KeepsRing host middle)
    (hSecond : KeepsRing middle next) :
    KeepsRing host next where
  current := hSecond.current.trans hFirst.current
  paramSlots := hSecond.paramSlots.trans hFirst.paramSlots
  paramStride :=
    hSecond.paramStride.trans hFirst.paramStride
  passes := hSecond.passes.trans hFirst.passes
  taken place :=
    (hSecond.taken place).trans (hFirst.taken place)

/- A command that is queued keeps the ring. -/
theorem enqueue_keepsRing
    (host : GpuHost)
    (command : Command) :
    KeepsRing host (host.enqueue command) :=
  ⟨rfl, rfl, rfl, rfl, fun _ => rfl⟩

/- A slot changed in its submission alone keeps the ring. -/
theorem setSlot_keepsRing
    (host : GpuHost)
    (submission : Option Nat) :
    KeepsRing host
      (host.setSlot
        { host.slot with submission := submission }) where
  current := rfl
  paramSlots := rfl
  paramStride := rfl
  passes := rfl
  taken := by
    intro place
    rw [takenAt_setSlot]
    split
    · rename_i hPlace
      rw [hPlace, takenAt_current]
    · rfl

/- A submission keeps the ring. -/
theorem submitRecording_keepsRing
    (host : GpuHost) :
    KeepsRing host host.submitRecording where
  current := rfl
  paramSlots := rfl
  paramStride := rfl
  passes := rfl
  taken := (setSlot_keepsRing host _).taken

/- All work besides draws and frames keeps the ring. -/
theorem keepsRing_alongWork : AlongWork KeepsRing where
  refl := KeepsRing.refl
  trans := KeepsRing.trans
  enqueue := enqueue_keepsRing
  submits := submitRecording_keepsRing
  readsBack _ := ⟨rfl, rfl, rfl, rfl, fun _ => rfl⟩
  laysOut _ _ := ⟨rfl, rfl, rfl, rfl, fun _ => rfl⟩

/-
  Only draws that can be seen take places of the ring, and
  only a submitted frame goes on to another one.
-/
theorem act_keepsRing
    (host : GpuHost)
    {action : Action}
    (hFrame : action.endsFrame = false)
    (hNone : action.shownDraw? = none) :
    KeepsRing host (host.act action) := by
  cases action with
  | recordDraw pass =>
      have hHidden := Action.hidden_of_shownDraw? hNone
      rw [act, recordDraw, if_pos hHidden]
      exact KeepsRing.refl host
  | submitFrame => cases hFrame
  | _ => exact keepsRing_alongWork.act host rfl

/- Waiting for a frame slot keeps the ring. -/
theorem awaitSlot_keepsRing
    (host : GpuHost) :
    KeepsRing host host.awaitSlot := by
  unfold awaitSlot
  split
  · exact (enqueue_keepsRing host _).trans
      (setSlot_keepsRing (host.enqueue _) none)
  · exact KeepsRing.refl host

------------------------------------------------------------
-- Draws that Take a Place
------------------------------------------------------------

/-
  The host records a draw with parameters at a place of the
  ring, for runs that its vertices can be cut into.  If it
  is early, what waits is submitted right before.
-/
structure RecordsAt
    (host next : GpuHost)
    (pass : Pass Descriptor (List Binding))
    (place : Nat)
    (offset : UInt32)
    (early : Bool) : Prop where
  cut : Overlap.split pass.vertices = .ok pass.runs
  commands :
    next.commands =
      host.commands ++
        (if early then [.submit host.pending] else []) ++
          [.writeVertices host.current.val pass.first
              pass.vertices,
            .writeParams host.current.val offset.toNat
              pass.params]
  pending :
    next.pending =
      (if early then [] else host.pending) ++
        pass.runs.map
          (host.runPass pass pass.scissor.clipped offset)
  submissions :
    next.queue.submissions =
      host.queue.submissions + if early then 1 else 0
  current : next.current.val = host.current.val
  paramSlots : next.paramSlots = host.paramSlots
  paramStride : next.paramStride = host.paramStride
  taken :
    ∀ other,
      next.takenAt other =
        if other = host.current.val then place + 1
        else host.takenAt other
  passes : next.passes = host.passes + pass.runs.length

/- A ring with room takes a triangle list. -/
theorem fault_pushDraw
    {host : GpuHost}
    {pass : Pass Descriptor (List Binding)}
    (scissor : Scissor)
    (hFits : host.RingFits)
    (hRoom : host.ringIsFull = false)
    (hList : pass.IsTriangleList) :
    (host.pushDraw pass scissor).fault = none := by
  rcases pushDraw_eq scissor hFits hRoom hList.inStorage with
    ⟨offset, -, hPushed⟩
  rw [hPushed, hList.split_eq]

/- A draw takes the next place of a ring with room. -/
theorem pushDraw_recordsAt
    {host : GpuHost}
    {pass : Pass Descriptor (List Binding)}
    (hFits : host.RingFits)
    (hRoom : host.ringIsFull = false)
    (hList : pass.IsTriangleList) :
    ∃ offset : UInt32,
      offset.toNat = host.nextOffset ∧
        RecordsAt host
          (host.pushDraw pass pass.scissor.clipped).state
          pass host.slot.nextParam.toNat offset false := by
  have hFault :=
    fault_pushDraw pass.scissor.clipped hFits hRoom hList
  rcases pushDraw_state hFits hList.inStorage hFault with
    ⟨offset, hOffset, hSplit, hState⟩
  have hPlace :
      (host.slot.nextParam + 1).toNat =
        host.slot.nextParam.toNat + 1 :=
    toNat_nextParam hFits hRoom
  refine ⟨offset, hOffset, ?_⟩
  rw [hState]
  constructor
  · exact hSplit
  · rw [if_neg Bool.false_ne_true, List.append_nil, hOffset]
    exact commands_loaded host pass
  · rw [if_neg Bool.false_ne_true]
    exact pending_recordRuns _ _ _ _ _
  · rfl
  · rfl
  · rfl
  · rfl
  · intro other
    rw [← hPlace]
    exact takenAt_setSlot
      ((host.enqueue (host.vertexWrite pass)).enqueue
        (host.paramWrite pass)) _ other
  · rfl

/-
  A draw behind an early submission takes the first place of
  the ring.
-/
theorem pushDraw_recordsAt_early
    {host : GpuHost}
    {pass : Pass Descriptor (List Binding)}
    (hFits : host.RingFits)
    (hPlaces : 0 < host.paramSlots)
    (hList : pass.IsTriangleList) :
    let room := host.submitRecording.resetRing
    (room.pushDraw pass pass.scissor.clipped).fault =
        none ∧
      RecordsAt host
        (room.pushDraw pass pass.scissor.clipped).state pass
        0 0 true := by
  intro room
  have hFirst : room.slot.nextParam = 0 :=
    congrArg FrameSlot.nextParam
      (slot_setSlot host.submitRecording _)
  have hRoom : room.ringIsFull = false := by
    rw [ringIsFull, hFirst, beq_eq_false_iff_ne]
    exact UInt32.ne_of_lt hPlaces
  have hRoomFits : room.RingFits :=
    resetRing_fits hFits rfl rfl
  rcases pushDraw_recordsAt hRoomFits hRoom hList with
    ⟨offset, hOffset, hRecords⟩
  have hStart : offset = 0 := by
    rw [nextOffset, hFirst, UInt32.toNat_zero,
      Nat.zero_mul] at hOffset
    exact UInt32.toNat_inj.mp hOffset
  rw [hFirst, hStart] at hRecords
  refine ⟨fault_pushDraw _ hRoomFits hRoom hList, ?_⟩
  constructor
  · exact hRecords.cut
  · have hSubmitted :
        room.commands =
          host.commands ++ [.submit host.pending] := by
      simp [room, commands, resetRing, setSlot,
        submitRecording, Queue.submit, pending]
    rw [hRecords.commands, hSubmitted]
    simp only [if_true, if_neg Bool.false_ne_true,
      List.append_nil]
    rfl
  · exact hRecords.pending
  · exact hRecords.submissions
  · exact hRecords.current
  · exact hRecords.paramSlots
  · exact hRecords.paramStride
  · intro other
    have hOther :
        room.takenAt other =
          if other = host.current.val then 0
          else host.takenAt other := by
      have hKept := submitRecording_keepsRing host
      rw [← hKept.taken other]
      exact takenAt_setSlot host.submitRecording _ other
    have hSame : room.current.val = host.current.val := rfl
    rw [hRecords.taken other, hOther, hSame]
    split
    · rfl
    · rfl
  · exact hRecords.passes

/- The place of the ring that the next draw takes. -/
def nextPlace
    (host : GpuHost) : Nat :=
  if host.ringIsFull then 0 else host.slot.nextParam.toNat

/-
  A triangle list that can be seen is recorded at the next
  place, early if the ring is full.
-/
theorem recordDraw_recordsAt
    {host : GpuHost}
    {pass : Pass Descriptor (List Binding)}
    (hFits : host.RingFits)
    (hPlaces : 0 < host.paramSlots)
    (hList : pass.IsTriangleList)
    (hShown : pass.scissor.clipped.isEmpty = false) :
    (host.recordDraw pass).fault = none ∧
      ∃ offset : UInt32,
        offset.toNat =
            host.nextPlace * host.paramStride.toNat ∧
          RecordsAt host (host.recordDraw pass).state pass
            host.nextPlace offset host.ringIsFull := by
  have hStart :
      host.recordDraw pass =
        host.makeRoom.andThen fun room =>
          room.pushDraw pass pass.scissor.clipped :=
    if_neg (ne_true_of_eq_false hShown)
  cases hFull : host.ringIsFull with
  | true =>
      have hState :
          host.makeRoom.state =
            host.submitRecording.resetRing := by
        rw [makeRoom, if_pos hFull]
      have hNext : host.nextPlace = 0 := if_pos hFull
      have hMade := makeRoom_fault host
      rcases pushDraw_recordsAt_early hFits hPlaces hList with
        ⟨hFault, hRecords⟩
      rw [hStart, Outcome.fault_andThen hMade,
        Outcome.state_andThen hMade, hState, hNext,
        Nat.zero_mul]
      exact ⟨hFault, 0, rfl, hRecords⟩
  | false =>
      have hRoom : host.makeRoom = .done host := by
        rw [makeRoom, hFull]
        rfl
      have hNext :
          host.nextPlace = host.slot.nextParam.toNat := by
        rw [nextPlace, hFull]
        rfl
      rw [hStart, hRoom, Outcome.done_andThen, hNext]
      exact ⟨fault_pushDraw _ hFits hFull hList,
        pushDraw_recordsAt hFits hFull hList⟩

------------------------------------------------------------
-- Runs
------------------------------------------------------------

/-
  So many places of a ring are taken after a number of draws
  that took them in turn.  A ring whose last place is taken
  stays full until the next draw.
-/
structure TakenInTurn
    (places draws taken : Nat) : Prop where
  within : taken ≤ places
  turn : taken % places = draws % places
  fresh : taken = 0 ↔ draws = 0

/- No draw has taken a place of a fresh ring. -/
theorem takenInTurn_zero
    (places : Nat) :
    TakenInTurn places 0 0 where
  within := Nat.zero_le places
  turn := rfl
  fresh := Iff.rfl

/- The ring is full when all turns are complete. -/
theorem TakenInTurn.full_iff
    {places draws taken : Nat}
    (hTurn : TakenInTurn places draws taken)
    (hPlaces : 0 < places) :
    taken = places ↔ 0 < draws ∧ places ∣ draws := by
  have hFresh := hTurn.fresh
  constructor
  · intro hFull
    refine ⟨by omega, ?_⟩
    apply Nat.dvd_of_mod_eq_zero
    rw [← hTurn.turn, hFull, Nat.mod_self]
  · rintro ⟨hDraws, hWhole⟩
    have hZero : taken % places = 0 := by
      rw [hTurn.turn, Nat.mod_eq_zero_of_dvd hWhole]
    have hMultiple := Nat.dvd_of_mod_eq_zero hZero
    have hTaken : 0 < taken := by omega
    exact Nat.le_antisymm hTurn.within
      (Nat.le_of_dvd hTaken hMultiple)

/- The next draw takes the place whose turn it is. -/
theorem TakenInTurn.next
    {places draws taken : Nat}
    (hTurn : TakenInTurn places draws taken)
    (hPlaces : 0 < places) :
    (if taken = places then 0 else taken) =
        draws % places ∧
      TakenInTurn places (draws + 1)
        (draws % places + 1) := by
  have hBelow : draws % places < places :=
    Nat.mod_lt draws hPlaces
  refine ⟨?_, ?_, ?_, ?_⟩
  · have hWithin := hTurn.within
    have hSame := hTurn.turn
    split
    · rename_i hFull
      rw [← hSame, hFull, Nat.mod_self]
    · rw [← hSame, Nat.mod_eq_of_lt (by omega)]
  · exact hBelow
  · exact Nat.mod_add_mod draws places 1
  · omega

/-
  The rings of a host after actions: the places of the slot
  in use were taken in turn by the draws of the frame, no
  other slot took too many, words address the places, and
  passes were counted.
-/
structure RingAfter
    (host : GpuHost)
    (places stride : UInt32)
    (actions : List Action) : Prop where
  paramSlots : host.paramSlots = places
  paramStride : host.paramStride = stride
  fits : host.RingFits
  current :
    TakenInTurn places.toNat (Action.frameDraws actions)
      host.slot.nextParam.toNat
  within : ∀ place, host.takenAt place ≤ places.toNat
  passes :
    host.passes =
      ((Action.shownDraws actions).map fun pass =>
        pass.runs.length).sum

/- No slot has taken more places than there are. -/
theorem RingAfter.slots_within
    {host : GpuHost}
    {places stride : UInt32}
    {actions : List Action}
    (hRing : host.RingAfter places stride actions) :
    ∀ slot ∈ host.slots, slot.nextParam ≤ places := by
  intro slot hSlot
  rcases Vector.getElem_of_mem hSlot with
    ⟨place, hPlace, rfl⟩
  have hWithin := hRing.within place
  rw [takenAt, Vector.getElem?_eq_getElem hPlace]
    at hWithin
  exact UInt32.le_iff_toNat_le.mpr hWithin

/- The next draw is recorded where it is its turn. -/
theorem RingAfter.recordsAt
    {host : GpuHost}
    {places stride : UInt32}
    {actions : List Action}
    (hRing : host.RingAfter places stride actions)
    (hPlaces : 0 < places)
    {pass : Pass Descriptor (List Binding)}
    (hList : pass.IsTriangleList)
    (hShown : pass.scissor.clipped.isEmpty = false) :
    let draws := Action.frameDraws actions
    let place := draws % places.toNat
    (host.recordDraw pass).fault = none ∧
      ∃ offset : UInt32,
        offset.toNat = place * stride.toNat ∧
          RecordsAt host (host.recordDraw pass).state pass
            place offset
            (decide (0 < draws ∧ places.toNat ∣ draws)) := by
  intro draws place
  have hTurn :
      TakenInTurn places.toNat draws
        host.slot.nextParam.toNat :=
    hRing.current
  have hSome : 0 < places.toNat :=
    UInt32.lt_iff_toNat_lt.mp hPlaces
  have hLast :
      host.ringIsFull = true ↔
        host.slot.nextParam.toNat = places.toNat := by
    rw [ringIsFull, hRing.paramSlots, beq_iff_eq,
      UInt32.toNat_inj]
  have hFull :
      host.ringIsFull =
        decide (0 < draws ∧ places.toNat ∣ draws) := by
    rw [Bool.eq_iff_iff, hLast, hTurn.full_iff hSome,
      decide_eq_true_iff]
  have hNext : host.nextPlace = place := by
    have hTaken := (hTurn.next hSome).1
    rw [nextPlace]
    simp only [hLast]
    exact hTaken
  rw [← hFull, ← hNext, ← hRing.paramStride]
  rw [← hRing.paramSlots] at hPlaces
  exact recordDraw_recordsAt hRing.fits hPlaces hList hShown

/- Any action that takes no place leaves the ring. -/
theorem ringAfter_of_keepsRing
    {host : GpuHost}
    {places stride : UInt32}
    {actions : List Action}
    (hRing : host.RingAfter places stride actions)
    {action : Action}
    (hFrame : action.endsFrame = false)
    (hNone : action.shownDraw? = none) :
    (host.act action).RingAfter places stride
      (actions ++ [action]) := by
  have hKept := act_keepsRing host hFrame hNone
  have hTaken :
      (host.act action).slot.nextParam.toNat =
        host.slot.nextParam.toNat := by
    rw [← takenAt_current, hKept.current, hKept.taken,
      takenAt_current]
  constructor
  · exact hKept.paramSlots.trans hRing.paramSlots
  · exact hKept.paramStride.trans hRing.paramStride
  · apply hRing.fits.of_taken hKept.paramSlots
      hKept.paramStride
    rw [hTaken, hKept.paramSlots]
    exact hRing.fits.taken
  · rw [Action.frameDraws_concat_of_none _ hFrame hNone,
      hTaken]
    exact hRing.current
  · intro place
    rw [hKept.taken]
    exact hRing.within place
  · rw [hKept.passes,
      Action.shownDraws_concat_of_none _ hNone]
    exact hRing.passes

/- A draw that can be seen takes its turn. -/
theorem recordDraw_ringAfter
    {host : GpuHost}
    {places stride : UInt32}
    {actions : List Action}
    (hRing : host.RingAfter places stride actions)
    (hPlaces : 0 < places)
    {pass : Pass Descriptor (List Binding)}
    (hList : pass.IsTriangleList)
    (hShown : pass.scissor.clipped.isEmpty = false) :
    (host.recordDraw pass).state.RingAfter places stride
      (actions ++ [.recordDraw pass]) := by
  rcases hRing.recordsAt hPlaces hList hShown with
    ⟨-, offset, -, hRecords⟩
  have hSome : 0 < places.toNat :=
    UInt32.lt_iff_toNat_lt.mp hPlaces
  have hNext := (hRing.current.next hSome).2
  have hDraws :=
    Action.shownDraws_concat_of_shown actions hShown
  have hTaken :
      (host.recordDraw pass).state.slot.nextParam.toNat =
        Action.frameDraws actions % places.toNat + 1 := by
    rw [← takenAt_current, hRecords.current, hRecords.taken,
      if_pos rfl]
  constructor
  · exact hRecords.paramSlots.trans hRing.paramSlots
  · exact hRecords.paramStride.trans hRing.paramStride
  · apply hRing.fits.of_taken hRecords.paramSlots
      hRecords.paramStride
    rw [hTaken, hRecords.paramSlots, hRing.paramSlots]
    exact hNext.within
  · rw [Action.frameDraws_concat_of_shown _ hShown, hTaken]
    exact hNext
  · intro place
    rw [hRecords.taken]
    split
    · exact hNext.within
    · exact hRing.within place
  · rw [hRecords.passes, hRing.passes, hDraws]
    simp

/- A submitted frame goes on to a fresh ring. -/
theorem submitFrame_ringAfter
    {host : GpuHost}
    {places stride : UInt32}
    {actions : List Action}
    (hRing : host.RingAfter places stride actions) :
    host.submitFrame.RingAfter places stride
      (actions ++ [.submitFrame]) := by
  have hKept := awaitSlot_keepsRing host.submitRecording.advance
  have hSubmitted := submitRecording_keepsRing host
  have hFresh : host.submitFrame.slot.nextParam = 0 :=
    congrArg FrameSlot.nextParam
      (slot_setSlot
        host.submitRecording.advance.awaitSlot _)
  constructor
  · exact hKept.paramSlots.trans hRing.paramSlots
  · exact hKept.paramStride.trans hRing.paramStride
  · exact resetRing_fits hRing.fits hKept.paramSlots
      hKept.paramStride
  · rw [Action.frameDraws_submitFrame, hFresh]
    exact takenInTurn_zero places.toNat
  · intro place
    have hTaken :=
      takenAt_setSlot
        host.submitRecording.advance.awaitSlot
        { host.submitRecording.advance.awaitSlot.slot with
          nextParam := 0 } place
    have hBefore := hRing.within place
    rw [submitFrame, resetRing, hTaken, hKept.taken]
    split
    · exact Nat.zero_le places.toNat
    · exact (Nat.le_of_eq (hSubmitted.taken place)).trans
        hBefore
  · rw [Action.shownDraws_concat_of_none actions rfl]
    exact hKept.passes.trans hRing.passes

/- Every action keeps its turns. -/
theorem act_ringAfter
    {host : GpuHost}
    {places stride : UInt32}
    {actions : List Action}
    (hRing : host.RingAfter places stride actions)
    (hPlaces : 0 < places)
    {action : Action}
    (hLists :
      ∀ pass, action = .recordDraw pass →
        pass.IsTriangleList) :
    (host.act action).RingAfter places stride
      (actions ++ [action]) := by
  cases hFrame : action.endsFrame with
  | true =>
      rw [Action.eq_submitFrame hFrame]
      exact submitFrame_ringAfter hRing
  | false =>
      cases hDraw : action.shownDraw? with
      | none =>
          exact ringAfter_of_keepsRing hRing hFrame hDraw
      | some pass =>
          rcases Action.eq_recordDraw hDraw with
            ⟨rfl, hShown⟩
          exact recordDraw_ringAfter hRing hPlaces
            (hLists pass rfl) hShown

/- Every run takes its places in turn. -/
theorem actAll_ringAfter
    {host : GpuHost}
    {places stride : UInt32}
    (hStart : host.RingAfter places stride [])
    (hPlaces : 0 < places)
    {actions : List Action}
    (hLists :
      ∀ pass, .recordDraw pass ∈ actions →
        pass.IsTriangleList) :
    (host.actAll actions).RingAfter places stride
      actions := by
  induction actions using List.reverseRecOn with
  | nil => exact hStart
  | append_singleton actions action ih =>
      have hBefore :=
        ih fun pass hPass =>
          hLists pass (List.mem_append_left _ hPass)
      have hLast :
          host.actAll (actions ++ [action]) =
            (host.actAll actions).act action :=
        List.foldl_concat ..
      rw [hLast]
      apply act_ringAfter hBefore hPlaces
      rintro pass rfl
      exact hLists pass
        (List.mem_append_right _ List.mem_cons_self)

/- A new host has taken no places. -/
theorem ringAfter_create
    {config : DrawConfig}
    {alignment : UInt32}
    (hFrames : 0 < config.frameSlots)
    (hAlignment : 0 < alignment)
    (hAddressed :
      config.paramSlots.toNat *
          (strideFor alignment).toNat ≤ 2 ^ 32) :
    ∃ made,
      create config alignment = .ok made ∧
        made.value.RingAfter config.paramSlots
          (strideFor alignment) [] := by
  have hFresh (place : Nat) :
      ((Vector.replicate config.frameSlots
          ({} : FrameSlot))[place]?.elim 0 fun slot =>
        slot.nextParam.toNat) = 0 := by
    rw [Vector.getElem?_replicate]
    split
    · rfl
    · rfl
  have hCreated :
      ∃ made, create config alignment = .ok made := by
    rw [create, dif_pos hFrames]
    exact ⟨_, rfl⟩
  rcases hCreated with ⟨made, hMade⟩
  have hFits := create_fits hAlignment hAddressed hMade
  rw [create, dif_pos hFrames] at hMade ⊢
  cases hMade
  refine ⟨_, rfl, rfl, rfl, hFits, ?_, ?_, rfl⟩
  · rw [← takenAt_current, takenAt, hFresh]
    exact takenInTurn_zero config.paramSlots.toNat
  · intro place
    rw [takenAt, hFresh]
    exact Nat.zero_le config.paramSlots.toNat

/-
  Draws take the places of the ring in turn.  A host can be
  made for any positive numbers of frame slots and places
  whose ring words address; take any run of it whose draws
  are triangle lists.  Then no slot has taken more places
  than there are, and the passes are the runs of all draws
  that can be seen.  The next draw never finds the ring
  without room, nor a place without an address.  If its
  scissor leaves no pixel, nothing is done.  Otherwise,
  where it is the draw of that number since the last frame,
  it takes the place whose turn it is, and what waits is
  submitted early exactly when all places were taken.
-/
theorem ring_takes_turns
    (config : DrawConfig)
    (alignment : UInt32)
    (hFrames : 0 < config.frameSlots)
    (hPlaces : 0 < config.paramSlots)
    (hAlignment : 0 < alignment)
    (hAddressed :
      config.paramSlots.toNat *
          (strideFor alignment).toNat ≤ 2 ^ 32) :
    ∃ made,
      create config alignment = .ok made ∧
        ∀ actions : List Action,
          (∀ pass, .recordDraw pass ∈ actions →
            pass.IsTriangleList) →
          let host := made.value.actAll actions
          (∀ slot ∈ host.slots,
              slot.nextParam ≤ config.paramSlots) ∧
            host.passes =
              ((Action.shownDraws actions).map fun pass =>
                pass.runs.length).sum ∧
            ∀ pass : Pass Descriptor (List Binding),
              pass.IsTriangleList →
                (host.recordDraw pass).fault = none ∧
                (pass.scissor.clipped.isEmpty = true →
                  host.recordDraw pass = .done host) ∧
                (pass.scissor.clipped.isEmpty = false →
                  let number := Action.frameDraws actions + 1
                  let places := config.paramSlots.toNat
                  let place := (number - 1) % places
                  ∃ offset : UInt32,
                    offset.toNat =
                        place *
                          (strideFor alignment).toNat ∧
                      RecordsAt host
                        (host.recordDraw pass).state pass
                        place offset
                        (decide
                          (1 < number ∧
                            places ∣ number - 1))) := by
  rcases ringAfter_create hFrames hAlignment hAddressed with
    ⟨made, hMade, hStart⟩
  refine ⟨made, hMade, ?_⟩
  intro actions hLists host
  have hRing := actAll_ringAfter hStart hPlaces hLists
  refine ⟨hRing.slots_within, hRing.passes, ?_⟩
  intro pass hList
  have hHidden :
      pass.scissor.clipped.isEmpty = true →
        host.recordDraw pass = .done host :=
    fun hEmpty => if_pos hEmpty
  cases hShown : pass.scissor.clipped.isEmpty with
  | true =>
      refine ⟨?_, fun _ => hHidden hShown, nofun⟩
      rw [hHidden hShown]
      rfl
  | false =>
      rcases hRing.recordsAt hPlaces hList hShown with
        ⟨hFault, hRecords⟩
      refine ⟨hFault, nofun, fun _ => ?_⟩
      have hLater (draws : Nat) :
          1 < draws + 1 ↔ 0 < draws :=
        Nat.succ_lt_succ_iff
      simpa only [Nat.add_sub_cancel, hLater] using hRecords

/- A draw of one blank triangle that covers no pixel. -/
def hiddenPass : Pass Descriptor (List Binding) :=
  { WatchedHost.blankPass with scissor := ⟨2048, 0, 8, 8⟩ }

/-
  A run of two draws that can be seen and one that cannot,
  with a readback and an upload in between.
-/
def mixedRun : List Action :=
  [.recordDraw WatchedHost.blankPass, .readMemory,
    .recordDraw hiddenPass,
    .recordDraw WatchedHost.blankPass,
    .writeMemory 64 [1]]

/- The draws of that run are triangle lists. -/
theorem isTriangleList_of_mem_mixedRun :
    ∀ pass, .recordDraw pass ∈ mixedRun →
      pass.IsTriangleList := by
  intro pass hPass
  simp only [mixedRun, List.mem_cons, Action.recordDraw.injEq,
    reduceCtorEq, List.not_mem_nil, or_false, false_or]
    at hPass
  rcases hPass with rfl | rfl | rfl
  · exact ⟨by decide, rfl⟩
  · exact ⟨by decide, rfl⟩
  · exact ⟨by decide, rfl⟩

/-
  In that run, the second draw takes the second place of a
  ring of two.  After it the ring is full, and the third
  draw takes its first place again, early.
-/
theorem ring_takes_turns_mixed :
    ∃ made,
      create ⟨2, 3, 2⟩ 256 = .ok made ∧
        let begun := made.value.actAll (mixedRun.take 3)
        let second :=
          (begun.recordDraw WatchedHost.blankPass).state
        let host := made.value.actAll mixedRun
        let third :=
          (host.recordDraw WatchedHost.blankPass).state
        RecordsAt begun second WatchedHost.blankPass 1 256
            false ∧
          (∀ slot ∈ host.slots, slot.nextParam ≤ 2) ∧
          host.passes = 2 ∧
          host.slot.nextParam = 2 ∧
          host.recordDraw hiddenPass = .done host ∧
          RecordsAt host third WatchedHost.blankPass 0 0
            true := by
  rcases ring_takes_turns ⟨2, 3, 2⟩ 256 (by decide)
      (by decide) (by decide) (by decide) with
    ⟨made, hMade, hRun⟩
  cases hMade
  refine ⟨_, rfl, ?_⟩
  intro begun second host third
  have hBlank : WatchedHost.blankPass.IsTriangleList :=
    ⟨by decide, rfl⟩
  have hHidden : hiddenPass.IsTriangleList :=
    ⟨by decide, rfl⟩
  have hBegun :
      ∀ pass, .recordDraw pass ∈ mixedRun.take 3 →
        pass.IsTriangleList := by
    intro pass hPass
    exact isTriangleList_of_mem_mixedRun pass
      (List.mem_of_mem_take hPass)
  rcases (hRun _ hBegun).2.2 _ hBlank with
    ⟨-, -, hSecond⟩
  rcases hRun mixedRun isTriangleList_of_mem_mixedRun with
    ⟨hWithin, hPasses, hDraw⟩
  refine
    ⟨?second, hWithin, ?passes, by decide +kernel,
      (hDraw hiddenPass hHidden).2.1 (by decide), ?third⟩
  case second =>
    rcases hSecond (by decide) with
      ⟨offset, hOffset, hRecords⟩
    have hPlace : offset = 256 :=
      UInt32.toNat_inj.mp hOffset
    rw [← hPlace]
    exact hRecords
  case passes =>
    rw [hPasses]
    decide +kernel
  case third =>
    rcases (hDraw WatchedHost.blankPass hBlank).2.2
        (by decide) with
      ⟨offset, hOffset, hRecords⟩
    have hPlace : offset = 0 := UInt32.toNat_inj.mp hOffset
    rw [← hPlace]
    exact hRecords

end GpuHost

end PagedRaster
