import Mathlib.Data.List.Count
import Mathlib.Order.Monotone.Basic
import PagedRaster.Gpu.Host

/-
  This file proves that a frame slot is used again only
  after all the work that used it was waited for.  A slot
  may own several submissions, of which it remembers the
  last; a wait for that one covers the others.

  Key definitions include:
    * `GpuHost.submissionAt`
    * `GpuHost.Action`, `GpuHost.act`
    * `WatchedHost`
    * `GpuHost.AlongWork`
    * `GpuHost.StaysOn`, `GpuHost.MovesOn`
    * `WatchedHost.Remembers`

  Key theorems include:
    * `GpuHost.AlongWork.act`
    * `GpuHost.act_staysOn`
    * `GpuHost.submitFrame_movesOn`
    * `WatchedHost.act_remembers`
    * `WatchedHost.slots_awaited`
-/

namespace PagedRaster

------------------------------------------------------------
-- Actions
------------------------------------------------------------

namespace GpuHost

/- What a host is asked for. -/
inductive Action where
  | makeProgram (descriptor : Descriptor)
  | makeResources
      (key : ResourceKey)
      (bindings : List Binding)
  | recordDraw (pass : Pass Descriptor (List Binding))
  | uploadMemory (memory : Memory)
  | writeMemory (address : UInt32) (words : List UInt32)
  | uploadPalette (entries : List UInt32)
  | readMemory
  | submitFrame

/- The host after an action, fault or not. -/
def act
    (host : GpuHost) : Action → GpuHost
  | .makeProgram descriptor =>
      (host.makeProgram descriptor).value.2
  | .makeResources key bindings =>
      (host.makeResources key bindings).value.2
  | .recordDraw pass => (host.recordDraw pass).state
  | .uploadMemory memory => host.uploadMemory memory
  | .writeMemory address words =>
      (host.writeMemory address words).state
  | .uploadPalette entries =>
      (host.uploadPalette entries).state
  | .readMemory => host.readMemory.2
  | .submitFrame => host.submitFrame

/- The host after actions in order, also after faults. -/
def actAll
    (host : GpuHost)
    (actions : List Action) : GpuHost :=
  actions.foldl act host

/- The submission that a frame slot remembers. -/
def submissionAt
    (host : GpuHost)
    (place : Nat) : Option Nat :=
  host.slots[place]?.bind FrameSlot.submission

end GpuHost

/-
  A host and what was seen of its frame slots: which of them
  have been in use, and for each submission the slot that
  was in use when it was made, and its number.
-/
structure WatchedHost where
  host : GpuHost
  used : List Nat
  made : List (Nat × Nat)

namespace WatchedHost

/- A host that is watched from now on. -/
def start
    (host : GpuHost) : WatchedHost where
  host := host
  used := [host.current.val]
  made := []

/-
  Watch one action.  All its submissions are made in the
  slot in which it starts, also those of a frame: it goes on
  to another slot afterwards.
-/
def act
    (watched : WatchedHost)
    (action : GpuHost.Action) : WatchedHost :=
  let host := watched.host
  let next := host.act action
  let numbers :=
    List.range' (host.queue.submissions + 1)
      (next.queue.submissions - host.queue.submissions)
  { host := next
    used := next.current.val :: watched.used
    made :=
      numbers.map (fun number =>
        (host.current.val, number)) ++ watched.made }

/- Watch actions in order. -/
def actAll
    (watched : WatchedHost)
    (actions : List GpuHost.Action) : WatchedHost :=
  actions.foldl act watched

/- To be watched makes no difference to a host. -/
theorem host_actAll
    (watched : WatchedHost)
    (actions : List GpuHost.Action) :
    (watched.actAll actions).host =
      watched.host.actAll actions := by
  induction actions generalizing watched with
  | nil => rfl
  | cons action rest ih => exact ih (watched.act action)

/- The submissions of an action are made in its slot. -/
theorem mem_made_act
    (watched : WatchedHost)
    (action : GpuHost.Action)
    (place number : Nat) :
    (place, number) ∈ (watched.act action).made ↔
      (place = watched.host.current.val ∧
          watched.host.queue.submissions < number ∧
          number ≤
            (watched.act action).host.queue.submissions) ∨
        (place, number) ∈ watched.made := by
  simp only [act, List.mem_append, List.mem_map,
    List.mem_range'_1, Prod.mk.injEq]
  constructor
  · rintro (⟨made, hRange, hPlace, rfl⟩ | hBefore)
    · exact Or.inl ⟨hPlace.symm, by omega, by omega⟩
    · exact Or.inr hBefore
  · rintro (⟨hPlace, hFirst, hLast⟩ | hBefore)
    · exact Or.inl
        ⟨number, ⟨by omega, by omega⟩, hPlace.symm, rfl⟩
    · exact Or.inr hBefore

end WatchedHost

------------------------------------------------------------
-- Work Besides Draws and Frames
------------------------------------------------------------

namespace GpuHost

/-
  A relation between hosts that goes along with all work but
  draws and frames: it holds for each small step of that
  work, and the steps of a row of them.
-/
structure AlongWork
    (related : GpuHost → GpuHost → Prop) : Prop where
  refl : ∀ host, related host host
  trans :
    ∀ {host middle next},
      related host middle →
        related middle next → related host next
  enqueue :
    ∀ host command, related host (host.enqueue command)
  submits : ∀ host, related host host.submitRecording
  readsBack :
    ∀ host,
      related host
        { host with queue := host.queue.readBack }
  laysOut :
    ∀ host layouts,
      related host { host with layouts := layouts }

/- The action neither draws nor ends a frame. -/
def Action.isWork : Action → Bool
  | .recordDraw _ | .submitFrame => false
  | _ => true

section Work

variable {related : GpuHost → GpuHost → Prop}

/- It goes along with submitting what waits. -/
theorem AlongWork.submitPending
    (hWork : AlongWork related)
    (host : GpuHost) :
    related host host.submitPending := by
  unfold GpuHost.submitPending
  split
  · exact hWork.submits host
  · exact hWork.refl host

/- It goes along with queued words, fault or not. -/
theorem AlongWork.queueWords
    (hWork : AlongWork related)
    (host : GpuHost)
    (address : UInt32)
    (words : List UInt32) :
    related host (host.queueWords address words).state := by
  unfold GpuHost.queueWords
  split
  · exact hWork.refl host
  · split
    · exact hWork.enqueue host _
    · exact hWork.refl host

/- It goes along with the preparation of a layout. -/
theorem AlongWork.prepareLayout
    (hWork : AlongWork related)
    (host : GpuHost)
    (bindings : List Binding) :
    related host (host.prepareLayout bindings).value := by
  unfold GpuHost.prepareLayout
  split
  · exact hWork.refl host
  · exact hWork.laysOut host _

/- It goes along with every action but draws and frames. -/
theorem AlongWork.act
    (hWork : AlongWork related)
    (host : GpuHost)
    {action : Action}
    (hIsWork : action.isWork = true) :
    related host (host.act action) := by
  have hPending := hWork.submitPending host
  cases action with
  | makeProgram descriptor =>
      exact hWork.prepareLayout host _
  | makeResources key bindings =>
      exact hWork.prepareLayout host bindings
  | recordDraw pass => cases hIsWork
  | uploadMemory memory =>
      exact hWork.trans hPending (hWork.enqueue _ _)
  | writeMemory address words =>
      exact hWork.trans hPending (hWork.queueWords _ _ _)
  | uploadPalette entries =>
      rw [GpuHost.act, uploadPalette]
      split
      · exact hWork.trans hPending (hWork.enqueue _ _)
      · exact hPending
  | readMemory =>
      exact hWork.trans hPending (hWork.readsBack _)
  | submitFrame => cases hIsWork

end Work

end GpuHost

------------------------------------------------------------
-- Actions in One Slot
------------------------------------------------------------

namespace GpuHost

/-
  The host stays on its frame slot and leaves the other
  slots alone; it may have made submissions.
-/
structure StaysOn
    (host next : GpuHost) : Prop where
  slotCount : next.slotCount = host.slotCount
  current : next.current.val = host.current.val
  submissions :
    host.queue.submissions ≤ next.queue.submissions
  others :
    ∀ place, place ≠ host.current.val →
      next.submissionAt place = host.submissionAt place

/- Nothing done stays on the slot. -/
theorem StaysOn.refl
    (host : GpuHost) :
    StaysOn host host where
  slotCount := rfl
  current := rfl
  submissions := Nat.le_refl _
  others _ _ := rfl

/- What stays on the slot may go on there. -/
theorem StaysOn.trans
    {host middle next : GpuHost}
    (hFirst : StaysOn host middle)
    (hSecond : StaysOn middle next) :
    StaysOn host next where
  slotCount := hSecond.slotCount.trans hFirst.slotCount
  current := hSecond.current.trans hFirst.current
  submissions :=
    Nat.le_trans hFirst.submissions hSecond.submissions
  others := by
    intro place hPlace
    have hMiddle : place ≠ middle.current.val := by
      rw [hFirst.current]
      exact hPlace
    rw [hSecond.others place hMiddle,
      hFirst.others place hPlace]

/- A changed slot takes the place of the one in use. -/
theorem getElem?_setSlot
    (host : GpuHost)
    (slot : FrameSlot)
    (place : Nat) :
    (host.setSlot slot).slots[place]? =
      if place = host.current.val then some slot
      else host.slots[place]? := by
  unfold setSlot
  dsimp only
  rw [Vector.getElem?_set]
  by_cases hPlace : host.current.val = place
  · rw [if_pos hPlace, if_pos hPlace.symm]
  · rw [if_neg hPlace, if_neg (Ne.symm hPlace)]

/- The slot in use is the one at the current place. -/
theorem getElem?_current
    (host : GpuHost) :
    host.slots[host.current.val]? = some host.slot :=
  Vector.getElem?_eq_getElem host.current.isLt

/- A changed slot remembers what it is given. -/
theorem submissionAt_setSlot
    (host : GpuHost)
    (slot : FrameSlot)
    (place : Nat) :
    (host.setSlot slot).submissionAt place =
      if place = host.current.val then slot.submission
      else host.submissionAt place := by
  rw [submissionAt, getElem?_setSlot]
  split
  · rfl
  · rfl

/- What the slot in use remembers. -/
theorem submissionAt_current
    (host : GpuHost) :
    host.submissionAt host.current.val =
      host.slot.submission := by
  rw [submissionAt, getElem?_current]
  rfl

/- A change of the slot in use stays on it. -/
theorem setSlot_staysOn
    (host : GpuHost)
    (slot : FrameSlot) :
    StaysOn host (host.setSlot slot) where
  slotCount := rfl
  current := rfl
  submissions := Nat.le_refl _
  others := by
    intro place hPlace
    rw [submissionAt_setSlot, if_neg hPlace]

/- A command that is queued stays on the slot. -/
theorem enqueue_staysOn
    (host : GpuHost)
    (command : Command) :
    StaysOn host (host.enqueue command) where
  slotCount := rfl
  current := rfl
  submissions := Nat.le_refl _
  others _ _ := rfl

/- A submission is remembered in the slot in use. -/
theorem submissionAt_submitRecording
    (host : GpuHost)
    (place : Nat) :
    host.submitRecording.submissionAt place =
      if place = host.current.val then
        some (host.queue.submissions + 1)
      else host.submissionAt place :=
  submissionAt_setSlot host _ place

/- A submission stays on the slot. -/
theorem submitRecording_staysOn
    (host : GpuHost) :
    StaysOn host host.submitRecording where
  slotCount := rfl
  current := rfl
  submissions := Nat.le_succ _
  others := by
    intro place hPlace
    rw [submissionAt_submitRecording, if_neg hPlace]

/- Making room in the ring stays on the slot. -/
theorem makeRoom_staysOn
    (host : GpuHost) :
    StaysOn host host.makeRoom.state := by
  unfold makeRoom
  split
  · exact (submitRecording_staysOn host).trans
      (setSlot_staysOn _ _)
  · exact StaysOn.refl host

/- Taking a place of the ring stays on the slot. -/
theorem pushParams_staysOn
    {host next : GpuHost}
    {params : Params}
    {offset : UInt32}
    (hPushed : host.pushParams params = .ok (offset, next)) :
    StaysOn host next := by
  unfold pushParams at hPushed
  split at hPushed
  · cases hPushed
  · dsimp only at hPushed
    split at hPushed
    · cases hPushed
    · cases hPushed
      exact (enqueue_staysOn host _).trans
        (setSlot_staysOn _ _)

/- Queueing a draw stays on the slot, fault or not. -/
theorem pushDraw_staysOn
    (host : GpuHost)
    (pass : Pass Descriptor (List Binding))
    (scissor : Scissor) :
    StaysOn host (host.pushDraw pass scissor).state := by
  have hQueued :=
    enqueue_staysOn host
      (.writeVertices host.current.val pass.first
        pass.vertices)
  unfold pushDraw
  dsimp only
  split
  · split
    · exact hQueued
    · rename_i offset pushed hPushed
      have hLoaded :=
        hQueued.trans (pushParams_staysOn hPushed)
      split
      · exact hLoaded
      · exact hLoaded.trans
          ⟨rfl, rfl, Nat.le_refl _, fun _ _ => rfl⟩
  · exact StaysOn.refl host

/- Recording a draw stays on the slot, fault or not. -/
theorem recordDraw_staysOn
    (host : GpuHost)
    (pass : Pass Descriptor (List Binding)) :
    StaysOn host (host.recordDraw pass).state := by
  unfold recordDraw
  dsimp only
  split
  · exact StaysOn.refl host
  · have hRoom := makeRoom_staysOn host
    have hFault : host.makeRoom.fault = none := by
      unfold makeRoom
      split
      · rfl
      · rfl
    rw [Outcome.state_andThen hFault]
    exact hRoom.trans (pushDraw_staysOn _ _ _)

/- All work in one slot stays on it. -/
theorem staysOn_alongWork : AlongWork StaysOn where
  refl := StaysOn.refl
  trans := StaysOn.trans
  enqueue := enqueue_staysOn
  submits := submitRecording_staysOn
  readsBack _ :=
    ⟨rfl, rfl, Nat.le_succ _, fun _ _ => rfl⟩
  laysOut _ _ := ⟨rfl, rfl, Nat.le_refl _, fun _ _ => rfl⟩

/- Only a submitted frame goes on to another slot. -/
theorem act_staysOn
    (host : GpuHost)
    {action : Action}
    (hAction : action ≠ .submitFrame) :
    StaysOn host (host.act action) := by
  cases action with
  | recordDraw pass => exact recordDraw_staysOn host pass
  | submitFrame => exact absurd rfl hAction
  | _ => exact staysOn_alongWork.act host rfl

------------------------------------------------------------
-- The Next Slot
------------------------------------------------------------

/-
  The host has submitted once more in its slot and gone on
  to another slot, or come back to the same one.  What that
  slot remembered was waited for, and it remembers nothing.
-/
structure MovesOn
    (host next : GpuHost) : Prop where
  slotCount : next.slotCount = host.slotCount
  submissions :
    next.queue.submissions = host.queue.submissions + 1
  cleared : next.submissionAt next.current.val = none
  others :
    ∀ place, place ≠ next.current.val →
      next.submissionAt place =
        host.submitRecording.submissionAt place
  awaited :
    ∀ number,
      host.submitRecording.submissionAt next.current.val =
          some number →
        .wait number ∈ next.queue.commands

/- Waiting for the slot in use clears it. -/
theorem submissionAt_awaitSlot
    (host : GpuHost)
    (place : Nat) :
    host.awaitSlot.submissionAt place =
      if place = host.current.val then none
      else host.submissionAt place := by
  unfold awaitSlot
  split
  · exact submissionAt_setSlot _ _ place
  · rename_i hNone
    by_cases hPlace : place = host.current.val
    · rw [if_pos hPlace, hPlace, submissionAt_current, hNone]
    · rw [if_neg hPlace]

/- What the slot in use remembers is waited for. -/
theorem wait_mem_awaitSlot
    (host : GpuHost)
    {number : Nat}
    (hNumber :
      host.submissionAt host.current.val = some number) :
    .wait number ∈ host.awaitSlot.queue.commands := by
  rw [submissionAt_current] at hNumber
  unfold awaitSlot
  rw [hNumber]
  exact List.mem_cons_self

/- Waiting neither submits nor goes on. -/
theorem awaitSlot_keeps
    (host : GpuHost) :
    host.awaitSlot.slotCount = host.slotCount ∧
      host.awaitSlot.current.val = host.current.val ∧
      host.awaitSlot.queue.submissions =
        host.queue.submissions := by
  unfold awaitSlot
  split
  · exact ⟨rfl, rfl, rfl⟩
  · exact ⟨rfl, rfl, rfl⟩

/- A free ring remembers the same submission. -/
theorem submissionAt_resetRing
    (host : GpuHost)
    (place : Nat) :
    host.resetRing.submissionAt place =
      host.submissionAt place := by
  unfold resetRing
  rw [submissionAt_setSlot]
  split
  · rename_i hPlace
    rw [hPlace]
    exact (submissionAt_current host).symm
  · rfl

/- A frame makes its submission in the slot it leaves. -/
theorem submissions_submitFrame
    (host : GpuHost) :
    host.submitRecording.current = host.current ∧
      host.submitFrame.queue.submissions =
        host.submitRecording.queue.submissions :=
  ⟨rfl, (awaitSlot_keeps host.submitRecording.advance).2.2⟩

/- A submitted frame moves on. -/
theorem submitFrame_movesOn
    (host : GpuHost) :
    MovesOn host host.submitFrame := by
  -- Going on changes the place in use and no slot.
  let moved := host.submitRecording.advance
  rcases awaitSlot_keeps moved with ⟨hCount, hCurrent, -⟩
  have hSubmissions := (submissions_submitFrame host).2
  have hNext :
      host.submitFrame.current.val = moved.current.val :=
    hCurrent
  have hSlots (place : Nat) :
      host.submitFrame.submissionAt place =
        if place = moved.current.val then none
        else host.submitRecording.submissionAt place := by
    have hAwaited := submissionAt_awaitSlot moved place
    exact (submissionAt_resetRing _ place).trans hAwaited
  refine ⟨hCount, hSubmissions, ?_, ?_, ?_⟩
  · rw [hSlots, if_pos hNext]
  · intro place hPlace
    rw [hNext] at hPlace
    rw [hSlots, if_neg hPlace]
  · intro number hNumber
    rw [hNext] at hNumber
    exact wait_mem_awaitSlot moved hNumber

end GpuHost

------------------------------------------------------------
-- What Slots Remember
------------------------------------------------------------

namespace WatchedHost

/-
  The number is remembered by a slot of a host, and no
  submission that was made in the slot came later.
-/
structure IsLast
    (watched : WatchedHost)
    (host : GpuHost)
    (place number : Nat) : Prop where
  remembered : host.submissionAt place = some number
  made : (place, number) ∈ watched.made
  last :
    ∀ other, (place, other) ∈ watched.made →
      other ≤ number

/-
  Each slot that has been in use remembers its last
  submission, but for the slot that is in use now.
-/
structure Remembers
    (watched : WatchedHost) : Prop where
  current : watched.host.current.val ∈ watched.used
  used :
    ∀ place number, (place, number) ∈ watched.made →
      place ∈ watched.used
  numbers :
    ∀ place number, (place, number) ∈ watched.made →
      number ≤ watched.host.queue.submissions
  slots :
    ∀ place ∈ watched.used,
      place ≠ watched.host.current.val →
        ∃ number,
          watched.IsLast watched.host place number

/- Nothing is to be remembered at first. -/
theorem start_remembers
    (host : GpuHost) :
    (start host).Remembers where
  current := List.mem_singleton_self _
  used _ _ hMade := absurd hMade List.not_mem_nil
  numbers _ _ hMade := absurd hMade List.not_mem_nil
  slots := by
    intro place hUsed hOther
    exact absurd (List.mem_singleton.mp hUsed) hOther

/- Actions in one slot add to its submissions alone. -/
theorem remembers_of_staysOn
    {watched : WatchedHost}
    {action : GpuHost.Action}
    (hRemembers : watched.Remembers)
    (hStays :
      GpuHost.StaysOn watched.host
        (watched.act action).host) :
    (watched.act action).Remembers := by
  -- The slot in use is noted once more.
  have hUsed (place : Nat) :
      place ∈ (watched.act action).used ↔
        place ∈ watched.used := by
    have hCurrent := hRemembers.current
    rw [← hStays.current] at hCurrent
    change place ∈ _ :: watched.used ↔ _
    rw [List.mem_cons]
    constructor
    · rintro (rfl | hBefore)
      · exact hCurrent
      · exact hBefore
    · exact Or.inr
  constructor
  · exact List.mem_cons_self
  · intro place number hMade
    rw [hUsed]
    rcases (mem_made_act watched action place number).mp
        hMade with
      ⟨rfl, -, -⟩ | hBefore
    · exact hRemembers.current
    · exact hRemembers.used place number hBefore
  · intro place number hMade
    rcases (mem_made_act watched action place number).mp
        hMade with
      ⟨-, -, hLast⟩ | hBefore
    · exact hLast
    · exact Nat.le_trans
        (hRemembers.numbers place number hBefore)
        hStays.submissions
  · intro place hPlace hOther
    rw [hUsed] at hPlace
    rw [hStays.current] at hOther
    rcases hRemembers.slots place hPlace hOther with
      ⟨number, hNumber⟩
    refine ⟨number, ?_, ?_, ?_⟩
    · rw [hStays.others place hOther]
      exact hNumber.remembered
    · exact (mem_made_act _ _ _ _).mpr
        (Or.inr hNumber.made)
    · intro other hMade
      rcases (mem_made_act watched action place other).mp
          hMade with
        ⟨hSame, -, -⟩ | hBefore
      · exact absurd hSame hOther
      · exact hNumber.last other hBefore

/-
  Right after the submission of a frame every slot that has
  been in use remembers its last submission: the slot in use
  has just been given the greatest number of all.
-/
theorem isLast_submitRecording
    {watched : WatchedHost}
    (hRemembers : watched.Remembers)
    {place : Nat}
    (hUsed : place ∈ watched.used) :
    ∃ number,
      (watched.act .submitFrame).IsLast
        watched.host.submitRecording place number := by
  have hMoves := GpuHost.submitFrame_movesOn watched.host
  have hSubmissions :
      (watched.act .submitFrame).host.queue.submissions =
        watched.host.queue.submissions + 1 :=
    hMoves.submissions
  -- Only the slot in use gets a new submission, and its
  -- number is greater than all before.
  by_cases hPlace : place = watched.host.current.val
  · refine
      ⟨watched.host.queue.submissions + 1, ?_, ?_, ?_⟩
    · rw [GpuHost.submissionAt_submitRecording,
        if_pos hPlace]
    · rw [mem_made_act, hSubmissions]
      exact Or.inl
        ⟨hPlace, Nat.lt_succ_self _, Nat.le_refl _⟩
    · intro other hMade
      rw [mem_made_act, hSubmissions] at hMade
      rcases hMade with ⟨-, -, hLast⟩ | hBefore
      · exact hLast
      · exact Nat.le_succ_of_le
          (hRemembers.numbers place other hBefore)
  · rcases hRemembers.slots place hUsed hPlace with
      ⟨number, hNumber⟩
    refine ⟨number, ?_, ?_, ?_⟩
    · rw [GpuHost.submissionAt_submitRecording,
        if_neg hPlace]
      exact hNumber.remembered
    · exact (mem_made_act _ _ _ _).mpr
        (Or.inr hNumber.made)
    · intro other hMade
      rcases (mem_made_act _ _ _ _).mp hMade with
        ⟨hSame, -, -⟩ | hBefore
      · exact absurd hSame hPlace
      · exact hNumber.last other hBefore

/- The submissions of a frame were made in used slots. -/
theorem used_of_made_submitFrame
    {watched : WatchedHost}
    (hRemembers : watched.Remembers)
    {place number : Nat}
    (hMade :
      (place, number) ∈ (watched.act .submitFrame).made) :
    place ∈ watched.used := by
  rcases (mem_made_act _ _ _ _).mp hMade with
    ⟨rfl, -, -⟩ | hBefore
  · exact hRemembers.current
  · exact hRemembers.used place number hBefore

/- A submitted frame keeps what slots remember. -/
theorem submitFrame_remembers
    {watched : WatchedHost}
    (hRemembers : watched.Remembers) :
    (watched.act .submitFrame).Remembers := by
  have hMoves := GpuHost.submitFrame_movesOn watched.host
  constructor
  · exact List.mem_cons_self
  · intro place number hMade
    exact List.mem_cons_of_mem _
      (used_of_made_submitFrame hRemembers hMade)
  · intro place number hMade
    rcases (mem_made_act _ _ _ _).mp hMade with
      ⟨-, -, hLast⟩ | hBefore
    · exact hLast
    · have hNumber :=
        hRemembers.numbers place number hBefore
      have hSubmissions :
          (watched.act .submitFrame).host.queue.submissions =
            watched.host.queue.submissions + 1 :=
        hMoves.submissions
      omega
  · intro place hPlace hOther
    have hUsed : place ∈ watched.used :=
      (List.mem_cons.mp hPlace).resolve_left hOther
    rcases isLast_submitRecording hRemembers hUsed with
      ⟨number, hNumber⟩
    refine ⟨number, ?_, hNumber.made, hNumber.last⟩
    have hKept := hMoves.others place hOther
    exact hKept.trans hNumber.remembered

/- Every action keeps what slots remember. -/
theorem act_remembers
    {watched : WatchedHost}
    (hRemembers : watched.Remembers)
    (action : GpuHost.Action) :
    (watched.act action).Remembers := by
  by_cases hAction : action = .submitFrame
  · rw [hAction]
    exact submitFrame_remembers hRemembers
  · exact remembers_of_staysOn hRemembers
      (GpuHost.act_staysOn watched.host hAction)

/- Every run keeps what slots remember. -/
theorem actAll_remembers
    {watched : WatchedHost}
    (hRemembers : watched.Remembers)
    (actions : List GpuHost.Action) :
    (watched.actAll actions).Remembers := by
  induction actions generalizing watched with
  | nil => exact hRemembers
  | cons action rest ih =>
      exact ih (act_remembers hRemembers action)

/-
  After a submitted frame all submissions that were ever
  made in the slot now in use are covered by a wait.
-/
theorem awaited_of_made
    {watched : WatchedHost}
    (hRemembers : watched.Remembers)
    {number : Nat} :
    let next := watched.act .submitFrame
    (next.host.current.val, number) ∈ next.made →
      ∃ waited,
        .wait waited ∈ next.host.queue.commands ∧
          number ≤ waited := by
  intro next hMade
  have hMoves := GpuHost.submitFrame_movesOn watched.host
  have hUsed := used_of_made_submitFrame hRemembers hMade
  rcases isLast_submitRecording hRemembers hUsed with
    ⟨waited, hWaited⟩
  exact ⟨waited, hMoves.awaited waited hWaited.remembered,
    hWaited.last number hMade⟩

end WatchedHost

/- The number of slots that remember a submission. -/
def GpuHost.remembered
    (host : GpuHost) : Nat :=
  host.slots.toList.countP fun slot =>
    slot.submission.isSome

/- A slot that remembers nothing is not counted. -/
theorem GpuHost.remembered_lt
    {host : GpuHost}
    (hCleared : host.slot.submission = none) :
    host.remembered < host.slotCount := by
  have hMember : host.slot ∈ host.slots.toList := by
    rw [Vector.mem_toList_iff]
    exact Vector.getElem_mem host.current.isLt
  have hLength :
      host.slots.toList.length = host.slotCount :=
    Vector.length_toList
  rw [← hLength]
  refine List.countP_lt_length_iff.mpr
    ⟨host.slot, hMember, ?_⟩
  rw [hCleared]
  rfl

/- An action keeps the number of slots. -/
theorem GpuHost.slotCount_act
    (host : GpuHost)
    (action : GpuHost.Action) :
    (host.act action).slotCount = host.slotCount := by
  by_cases hAction : action = .submitFrame
  · rw [hAction]
    exact (submitFrame_movesOn host).slotCount
  · exact (act_staysOn host hAction).slotCount

/- Actions keep the number of slots. -/
theorem GpuHost.slotCount_actAll
    (host : GpuHost)
    (actions : List GpuHost.Action) :
    (host.actAll actions).slotCount = host.slotCount := by
  induction actions generalizing host with
  | nil => rfl
  | cons action rest ih =>
      exact (ih (host.act action)).trans
        (host.slotCount_act action)

namespace WatchedHost

/-
  Frame slots are used again only after all work that used
  them was waited for.  A host can be made for every
  positive number of frame slots; take any run of it, also
  after faults, let a frame be submitted, and let a queue
  number submissions by any increasing index.  Then every
  submission ever made in the slot now in use is covered by
  a wait, and that slot remembers none; every other slot
  that has been in use remembers the last submission made in
  it; and so one slot less than there are remembers one, at
  most.
-/
theorem slots_awaited
    (config : DrawConfig)
    (alignment : UInt32)
    (hSlots : 0 < config.frameSlots)
    (index : Nat → Nat)
    (hIndex : StrictMono index) :
    ∃ made,
      GpuHost.create config alignment = .ok made ∧
        ∀ actions : List GpuHost.Action,
          let watched := (start made.value).actAll actions
          let next := watched.act .submitFrame
          next.host =
              (made.value.actAll actions).submitFrame ∧
            (∀ number,
              (next.host.current.val, number) ∈ next.made →
                ∃ waited,
                  .wait waited ∈ next.host.queue.commands ∧
                    index number ≤ index waited) ∧
            next.host.slot.submission = none ∧
            (∀ place ∈ next.used,
              place ≠ next.host.current.val →
                ∃ number,
                  next.host.submissionAt place =
                      some number ∧
                    (place, number) ∈ next.made ∧
                    ∀ other, (place, other) ∈ next.made →
                      index other ≤ index number) ∧
            next.host.remembered ≤
              config.frameSlots - 1 := by
  have hCreated :
      ∃ made,
        GpuHost.create config alignment = .ok made ∧
          made.value.slotCount = config.frameSlots := by
    rw [GpuHost.create, dif_pos hSlots]
    exact ⟨_, rfl, rfl⟩
  rcases hCreated with ⟨made, hMade, hCount⟩
  refine ⟨made, hMade, ?_⟩
  intro actions watched next
  have hBefore : watched.Remembers :=
    actAll_remembers (start_remembers made.value) actions
  have hAfter : next.Remembers :=
    submitFrame_remembers hBefore
  have hMoves := GpuHost.submitFrame_movesOn watched.host
  have hHost :
      watched.host = made.value.actAll actions :=
    host_actAll _ actions
  have hCleared : next.host.slot.submission = none := by
    rw [← GpuHost.submissionAt_current]
    exact hMoves.cleared
  refine ⟨?_, ?_, hCleared, ?_, ?_⟩
  · rw [← hHost]
    rfl
  · intro number hNumber
    rcases awaited_of_made hBefore hNumber with
      ⟨waited, hWait, hLast⟩
    exact ⟨waited, hWait, hIndex.monotone hLast⟩
  · intro place hUsed hOther
    rcases hAfter.slots place hUsed hOther with
      ⟨number, hNumber⟩
    exact ⟨number, hNumber.remembered, hNumber.made,
      fun other hOther =>
        hIndex.monotone (hNumber.last other hOther)⟩
  · have hFewer := GpuHost.remembered_lt hCleared
    have hKept : next.host.slotCount = config.frameSlots := by
      have hMoved : next.host.slotCount =
          watched.host.slotCount := hMoves.slotCount
      rw [hMoved, hHost, GpuHost.slotCount_actAll, hCount]
    omega

/- A draw of one blank triangle. -/
def blankPass : Pass Descriptor (List Binding) where
  descriptor := {}
  program := {}
  resources := []
  params := {}
  scissor := ⟨0, 0, 8, 8⟩
  storage := Array.replicate 3 Vertex.zero
  start := 0
  stop := 3

/-
  A run on two frame slots with one place for parameters
  each: its second draw is submitted early, its third one is
  in the other slot, and the readback is in the first again.
-/
def alternatingRun : List GpuHost.Action :=
  [.recordDraw blankPass, .recordDraw blankPass,
    .submitFrame, .recordDraw blankPass, .submitFrame,
    .readMemory]

/- The sizes of that run. -/
def alternatingConfig : DrawConfig where
  frameSlots := 2
  vertexCapacity := 3
  paramSlots := 1

/-
  One more frame goes on to the second slot, whose one
  submission was waited for.  The first slot made four of
  them and remembers the last.
-/
theorem slots_awaited_alternating :
    ∃ made,
      GpuHost.create alternatingConfig 256 = .ok made ∧
        let next :=
          ((start made.value).actAll alternatingRun).act
            .submitFrame
        next.made =
            [(0, 5), (0, 4), (1, 3), (0, 2), (0, 1)] ∧
          next.host.current.val = 1 ∧
          next.host.submissionAt 0 = some 5 ∧
          (∃ waited,
            .wait waited ∈ next.host.queue.commands ∧
              3 ≤ waited) ∧
          next.host.remembered ≤ 1 := by
  rcases slots_awaited alternatingConfig 256 (by decide) id
      strictMono_id with
    ⟨made, hMade, hRun⟩
  cases hMade
  refine ⟨_, rfl, ?_⟩
  intro next
  rcases hRun alternatingRun with
    ⟨-, hAwaited, -, -, hRemembered⟩
  have hMadeHere : (next.host.current.val, 3) ∈ next.made := by
    decide +kernel
  exact ⟨by decide +kernel, by decide +kernel,
    by decide +kernel, hAwaited 3 hMadeHere, hRemembered⟩

end WatchedHost

end PagedRaster
