import Mathlib.Data.List.Induction
import PagedRaster.Proofs.Draw.Immediate
import PagedRaster.Proofs.Draw.Ledger

/-
  This file proves that the two caches of a tracker stay
  coherent.  Over every run, a program is made once for each
  descriptor that is drawn, in the order of first use, and
  every draw carries the program made for its descriptor;
  resource sets and their keys behave alike.

  Key definitions include:
    * `Cache.Serves`
    * `Move`, `Tracker.attempt`
    * `Observed.programCalls`, `Observed.resourceCalls`
    * `Tracker.Idle`
    * `Tracker.Served`

  Key theorems include:
    * `Cache.Serves.hit`, `Cache.Serves.miss`
    * `Tracker.perform_keeps`
    * `Tracker.flush_served`
    * `Tracker.attempt_served`
    * `Tracker.caches_coherent`
-/

namespace PagedRaster

------------------------------------------------------------
-- First Uses
------------------------------------------------------------

namespace FirstUses

variable {α β : Type}
variable [DecidableEq α] [DecidableEq β]

/- A last element joins the first uses when it is new. -/
theorem eraseDups_concat
    (uses : List α)
    (last : α) :
    (uses ++ [last]).eraseDups =
      if last ∈ uses then uses.eraseDups
      else uses.eraseDups ++ [last] := by
  rw [List.eraseDups_append]
  by_cases hSeen : last ∈ uses <;>
    simp [List.removeAll, List.eraseDups_cons, hSeen]

/- An image has no more first uses than the list itself. -/
theorem length_eraseDups_map_le
    (f : α → β)
    (uses : List α) :
    (uses.map f).eraseDups.length ≤
      uses.eraseDups.length := by
  induction uses using List.reverseRecOn with
  | nil => exact Nat.le_refl _
  | append_singleton uses last ih =>
      rw [List.map_append, List.map_singleton,
        eraseDups_concat, eraseDups_concat]
      by_cases hSeen : last ∈ uses
      · rw [if_pos hSeen,
          if_pos (List.mem_map_of_mem hSeen)]
        exact ih
      · rw [if_neg hSeen, List.length_append,
          List.length_singleton]
        split
        · omega
        · rw [List.length_append, List.length_singleton]
          omega

end FirstUses

------------------------------------------------------------
-- Caches and Their Uses
------------------------------------------------------------

namespace Cache

variable {κ α : Type}
variable [DecidableEq κ]

/- A found value stands in an entry of its key. -/
theorem mem_entries_of_get?
    {cache : Cache κ α}
    {key : κ}
    {value : α}
    (hFound : cache.get? key = some value) :
    (key, value) ∈ cache.entries := by
  rcases Option.map_eq_some_iff.mp hFound with
    ⟨entry, hEntry, rfl⟩
  have hKey := List.find?_some hEntry
  have hMember := List.mem_of_find?_eq_some hEntry
  rw [decide_eq_true_iff] at hKey
  subst hKey
  exact hMember

/- A key that is not found has no entry. -/
theorem not_mem_keys_of_get?
    {cache : Cache κ α}
    {key : κ}
    (hMissing : cache.get? key = none) :
    key ∉ cache.entries.map Prod.fst := by
  intro hKey
  rcases List.mem_map.mp hKey with ⟨entry, hEntry, rfl⟩
  have hNone := Option.map_eq_none_iff.mp hMissing
  exact List.find?_eq_none.mp hNone entry hEntry (by simp)

/-
  A cache serves a list of uses: its keys, oldest first, are
  the used ones in the order of first use, and each use got
  the value of its key.
-/
structure Serves
    (cache : Cache κ α)
    (uses : List (κ × α)) : Prop where
  keys :
    cache.entries.reverse.map Prod.fst =
      (uses.map Prod.fst).eraseDups
  served :
    ∀ use ∈ uses, cache.get? use.1 = some use.2

/- The empty cache serves nothing. -/
theorem serves_empty :
    (empty : Cache κ α).Serves [] where
  keys := rfl
  served := nofun

/- A served list has a use of every bound key. -/
theorem Serves.mem_keys_iff
    {cache : Cache κ α}
    {uses : List (κ × α)}
    (hServes : cache.Serves uses)
    (key : κ) :
    key ∈ uses.map Prod.fst ↔
      key ∈ cache.entries.map Prod.fst := by
  rw [← List.mem_eraseDups, ← hServes.keys,
    List.map_reverse, List.mem_reverse]

/- A use of a bound key leaves the cache as it is. -/
theorem Serves.hit
    {cache : Cache κ α}
    {uses : List (κ × α)}
    (hServes : cache.Serves uses)
    {key : κ}
    {value : α}
    (hFound : cache.get? key = some value) :
    cache.Serves (uses ++ [(key, value)]) where
  keys := by
    have hSeen : key ∈ uses.map Prod.fst :=
      (hServes.mem_keys_iff key).mpr
        (List.mem_map_of_mem (mem_entries_of_get? hFound))
    rw [hServes.keys, List.map_append, List.map_singleton,
      FirstUses.eraseDups_concat, if_pos hSeen]
  served := by
    intro use hUse
    rcases List.mem_append.mp hUse with hOld | hNew
    · exact hServes.served use hOld
    · rw [List.mem_singleton] at hNew
      subst hNew
      exact hFound

/- The first use of a key binds it. -/
theorem Serves.miss
    {cache : Cache κ α}
    {uses : List (κ × α)}
    (hServes : cache.Serves uses)
    {key : κ}
    (hMissing : cache.get? key = none)
    (value : α) :
    (cache.insert key value).Serves
      (uses ++ [(key, value)]) where
  keys := by
    have hNew : key ∉ uses.map Prod.fst := by
      rw [hServes.mem_keys_iff]
      exact not_mem_keys_of_get? hMissing
    rw [List.map_append, List.map_singleton,
      FirstUses.eraseDups_concat, if_neg hNew, ← hServes.keys]
    simp [insert]
  served := by
    intro use hUse
    rcases List.mem_append.mp hUse with hOld | hNew
    · have hBound := hServes.served use hOld
      have hOther : use.1 ≠ key := by
        intro hSame
        rw [hSame, hMissing] at hBound
        cases hBound
      rw [get?_insert_of_ne cache value hOther]
      exact hBound
    · rw [List.mem_singleton] at hNew
      subst hNew
      exact get?_insert_self cache key value

/- As many keys are bound as are used. -/
theorem Serves.size_eq
    {cache : Cache κ α}
    {uses : List (κ × α)}
    (hServes : cache.Serves uses) :
    cache.size = (uses.map Prod.fst).eraseDups.length := by
  rw [← hServes.keys, List.length_map, List.length_reverse,
    size]

end Cache

------------------------------------------------------------
-- Uses and Calls
------------------------------------------------------------

namespace Pass

variable {P R : Type}

/- The program that a draw uses for its descriptor. -/
def programUse
    (pass : Pass P R) : Descriptor × P :=
  (pass.descriptor, pass.program)

/- The resources that a draw uses for its key. -/
def resourceUse
    (pass : Pass P R) : ResourceKey × R :=
  (pass.descriptor.resourceKey, pass.resources)

end Pass

namespace Call

variable {P R : Type}

/- What a call that makes a program is given and answers. -/
def program? :
    Call P R → Option (Descriptor × Program × P)
  | .program descriptor source made =>
      some (descriptor, source, made)
  | _ => none

/- What a call that makes resources is given and answers. -/
def resources? :
    Call P R → Option (ResourceKey × List Binding × R)
  | .resources key bindings made =>
      some (key, bindings, made)
  | _ => none

end Call

namespace Observed

variable {β P R : Type}
variable [Backend β P R]

/- The calls that made programs, in order. -/
def programCalls
    (observed : Observed β) :
    List (Descriptor × Program × P) :=
  observed.calls.filterMap Call.program?

/- The calls that made resources, in order. -/
def resourceCalls
    (observed : Observed β) :
    List (ResourceKey × List Binding × R) :=
  observed.calls.filterMap Call.resources?

/- A noted call adds the program that it made. -/
@[simp]
theorem programCalls_note
    (observed : Observed β)
    (backend : β)
    (call : Call P R) :
    (observed.note backend call).programCalls =
      observed.programCalls ++ call.program?.toList := by
  cases hCall : call.program? <;>
    simp [programCalls, note, List.filterMap_append, hCall]

/- A noted call adds the resources that it made. -/
@[simp]
theorem resourceCalls_note
    (observed : Observed β)
    (backend : β)
    (call : Call P R) :
    (observed.note backend call).resourceCalls =
      observed.resourceCalls ++ call.resources?.toList := by
  cases hCall : call.resources? <;>
    simp [resourceCalls, note, List.filterMap_append, hCall]

end Observed

/- A canvas whose palette is bound does not miss it. -/
theorem Canvas.recordDraw_bindsPalette
    (canvas : Canvas)
    {pass : Pass Descriptor (List Binding)}
    (hBound :
      pass.program.usesPalette = true →
        pass.resources.contains .palette = true) :
    (Backend.recordDraw canvas pass).fault ≠
      some .missingPalette := by
  have hGate :
      (pass.program.usesPalette &&
        !pass.resources.contains .palette) = false := by
    cases hUses : pass.program.usesPalette with
    | false => rfl
    | true =>
        rw [hBound hUses]
        rfl
  change (Canvas.recordDraw canvas pass).fault ≠ _
  unfold Canvas.recordDraw
  rw [hGate, if_neg Bool.false_ne_true]
  split
  · nofun
  · nofun

------------------------------------------------------------
-- Moves of the Owner
------------------------------------------------------------

/-
  What the owner of a tracker does: ask it, or change its
  backend past it.
-/
inductive Move
    (β : Type) where
  | request (request : Request)
  | edit (change : β → β)

/- The same move over an observed backend. -/
def Move.observed
    {β P R : Type}
    [Backend β P R] : Move β → Move (Observed β)
  | .request asked => .request asked
  | .edit change =>
      .edit fun observed =>
        ⟨change observed.backend, observed.calls⟩

namespace Tracker

variable {β P R : Type}
variable [Backend β P R]

/- Make one move. -/
def move
    (t : Tracker β) : Move β → Outcome (Tracker β)
  | .request request => t.perform request
  | .edit change =>
      .done { t with backend := change t.backend }

/-
  Attempt moves in order.  Each one starts in the state that
  the one before it reached, also after a fault; as long as
  there is none this is the run of the moves.
-/
def attempt
    (t : Tracker β)
    (moves : List (Move β)) : Tracker β :=
  moves.foldl (fun t move => (t.move move).state) t

/-
  Attempts over a wrapper lead to the same state, if each
  move over it does.
-/
theorem attempt_forget
    {γ : Type}
    [Backend γ P R]
    (drop : γ → β)
    {lift : Move β → Move γ}
    (hLift :
      ∀ (t : Tracker γ) move,
        (t.move (lift move)).state.forget drop =
          ((t.forget drop).move move).state)
    (t : Tracker γ)
    (moves : List (Move β)) :
    (t.attempt (moves.map lift)).forget drop =
      (t.forget drop).attempt moves := by
  induction moves generalizing t with
  | nil => rfl
  | cons first rest ih =>
      simp only [attempt, List.map_cons, List.foldl_cons]
        at ih ⊢
      rw [ih, hLift]

/- An observed tracker makes the same moves. -/
theorem move_unobserved
    (t : Tracker (Observed β))
    (move : Move β) :
    (t.move move.observed).state.unobserved =
      (t.unobserved.move move).state := by
  cases move with
  | request request =>
      exact congrArg Outcome.state
        (perform_unobserved t request)
  | edit change => rfl

/- Observation does not change what attempts lead to. -/
theorem attempt_unobserved
    (t : Tracker (Observed β))
    (moves : List (Move β)) :
    (t.attempt (moves.map Move.observed)).unobserved =
      t.unobserved.attempt moves :=
  attempt_forget Observed.backend move_unobserved t moves

------------------------------------------------------------
-- One Flush in Every Request
------------------------------------------------------------

/-
  The second tracker differs from the first in nothing that
  a cache answers for: at most a frame was submitted.
-/
structure Idle
    (t u : Tracker β) : Prop where
  programs : u.programs = t.programs
  resources : u.resources = t.resources
  programCount : u.stats.programs = t.stats.programs
  resourceCount :
    u.stats.resourceSets = t.stats.resourceSets
  backend :
    u.backend = t.backend ∨
      u.backend = (Backend.submitFrame t.backend).value

/-
  Of all that a request does only its flush uses the caches.
  So what a flush keeps and what does not depend on the
  drawing is kept by every request, fault or not.
-/
theorem perform_keeps
    {Property : Tracker β → Prop}
    (hFlush : ∀ t, Property t → Property t.flush.state)
    (hIdle : ∀ t u, Idle t u → Property t → Property u)
    {t : Tracker β}
    (hHolds : Property t)
    (request : Request) :
    Property (t.perform request).state := by
  have hSame :
      ∀ t u : Tracker β, Property t →
        u.programs = t.programs →
        u.resources = t.resources →
        u.stats.programs = t.stats.programs →
        u.stats.resourceSets = t.stats.resourceSets →
        u.backend = t.backend → Property u := by
    intro t u hHolds hPrograms hResources hProgramCount
      hResourceCount hBackend
    exact hIdle t u
      ⟨hPrograms, hResources, hProgramCount,
        hResourceCount, Or.inl hBackend⟩ hHolds
  have hFrame :
      ∀ t, Property t → Property t.flushFrame.state := by
    intro t hHolds
    refine Outcome.andThen_keeps (hFlush t hHolds) ?_
    intro u hFlushed
    have hSubmitted : Property u.submit.state :=
      hIdle u u.submit.state
        ⟨rfl, rfl, rfl, rfl, Or.inr rfl⟩ hFlushed
    refine Outcome.andThen_keeps hSubmitted ?_
    intro v hHolds
    exact hSame v v.afterFrame.frameDone hHolds
      rfl rfl rfl rfl rfl
  cases request with
  | change wanted =>
      refine change_keeps hHolds (hFlush t hHolds) ?_ wanted
      intro u state hKept
      exact hSame u _ hKept rfl rfl rfl rfl rfl
  | append added =>
      have hStore (t : Tracker β) (hHolds : Property t) :
          Property (t.store added).state := by
        rcases store_eq t added with ⟨batch, hState⟩
        rw [hState]
        exact hSame t _ hHolds rfl rfl rfl rfl rfl
      simp only [perform]
      unfold append
      split
      · exact hStore t hHolds
      · refine Outcome.andThen_keeps (hFrame t hHolds) ?_
        intro u hFramed
        split
        · exact hStore u hFramed
        · exact hFramed
  | flush => exact hFlush t hHolds
  | beforeFrame => exact hFlush t hHolds
  | afterFrame =>
      exact hSame t t.afterFrame hHolds
        rfl rfl rfl rfl rfl
  | flushFrame => exact hFrame t hHolds

------------------------------------------------------------
-- Served Draws
------------------------------------------------------------

/-
  The programs of a tracker serve a list of uses.  Each one
  was made once, from the text of its descriptor, and
  counted.
-/
structure ProgramsServe
    (t : Tracker (Observed β))
    (uses : List (Descriptor × P)) : Prop where
  serves : t.programs.Serves uses
  calls :
    t.backend.programCalls =
      t.programs.entries.reverse.map fun entry =>
        (entry.1, entry.1.program, entry.2)
  count : t.stats.programs = t.programs.size

/-
  The resources of a tracker serve a list of uses.  Each set
  was made once, from the bindings of its key, and counted.
-/
structure ResourcesServe
    (t : Tracker (Observed β))
    (uses : List (ResourceKey × R)) : Prop where
  serves : t.resources.Serves uses
  calls :
    t.backend.resourceCalls =
      t.resources.entries.reverse.map fun entry =>
        (entry.1, entry.1.bindings, entry.2)
  count : t.stats.resourceSets = t.resources.size

/- Both caches serve the draws that were recorded. -/
structure Served
    (t : Tracker (Observed β)) : Prop where
  programs :
    t.ProgramsServe (t.backend.passes.map Pass.programUse)
  resources :
    t.ResourcesServe (t.backend.passes.map Pass.resourceUse)

/- A fresh tracker has nothing to serve. -/
theorem fresh_served
    (backend : β)
    (storage : Array Vertex) :
    (fresh backend storage).observe.Served where
  programs := ⟨Cache.serves_empty, rfl, rfl⟩
  resources := ⟨Cache.serves_empty, rfl, rfl⟩

/- The program handed out is one more use. -/
theorem prepareProgram_serves
    {t : Tracker (Observed β)}
    {uses : List (Descriptor × P)}
    (hServe : t.ProgramsServe uses) :
    t.prepareProgram.value.2.ProgramsServe
      (uses ++
        [(t.descriptor, t.prepareProgram.value.1)]) := by
  cases hFound : t.programs.get? t.descriptor with
  | some program =>
      simp only [prepareProgram, hFound]
      exact ⟨hServe.serves.hit hFound, hServe.calls,
        hServe.count⟩
  | none =>
      simp only [prepareProgram, hFound]
      exact
        { serves := hServe.serves.miss hFound _
          calls := by
            simp [Backend.makeProgram, Call.program?,
              hServe.calls, Cache.insert]
          count := by
            simp [hServe.count, Cache.size, Cache.insert] }

/- Making a program leaves the resources alone. -/
theorem prepareProgram_resourcesServe
    {t : Tracker (Observed β)}
    {uses : List (ResourceKey × R)}
    (hServe : t.ResourcesServe uses) :
    t.prepareProgram.value.2.ResourcesServe uses := by
  unfold prepareProgram
  split
  · exact hServe
  · refine ⟨hServe.serves, ?_, hServe.count⟩
    simp [Backend.makeProgram, Call.resources?,
      hServe.calls]

/- The resources handed out are one more use. -/
theorem prepareResources_serves
    {t : Tracker (Observed β)}
    {uses : List (ResourceKey × R)}
    (hServe : t.ResourcesServe uses) :
    t.prepareResources.value.2.ResourcesServe
      (uses ++
        [(t.descriptor.resourceKey,
          t.prepareResources.value.1)]) := by
  cases hFound :
      t.resources.get? t.descriptor.resourceKey with
  | some resources =>
      simp only [prepareResources, hFound]
      exact ⟨hServe.serves.hit hFound, hServe.calls,
        hServe.count⟩
  | none =>
      simp only [prepareResources, hFound]
      exact
        { serves := hServe.serves.miss hFound _
          calls := by
            simp [Backend.makeResources, Call.resources?,
              hServe.calls, Cache.insert]
          count := by
            simp [hServe.count, Cache.size, Cache.insert] }

/- Making resources leaves the programs alone. -/
theorem prepareResources_programsServe
    {t : Tracker (Observed β)}
    {uses : List (Descriptor × P)}
    (hServe : t.ProgramsServe uses) :
    t.prepareResources.value.2.ProgramsServe uses := by
  unfold prepareResources
  dsimp only
  split
  · exact hServe
  · refine ⟨hServe.serves, ?_, hServe.count⟩
    simp [Backend.makeResources, Call.program?,
      hServe.calls]

/- Making a program leaves the descriptor alone. -/
theorem descriptor_prepareProgram
    (t : Tracker β) :
    t.prepareProgram.value.2.descriptor = t.descriptor :=
  congrArg RenderState.descriptor
    (prepareProgram_sameDrawing t).renderState

/- The draw of a batch uses the program it is given. -/
@[simp]
theorem programUse_pass
    (t : Tracker β)
    (program : P)
    (resources : R) :
    (t.pass program resources).programUse =
      (t.descriptor, program) :=
  rfl

/- The draw of a batch uses the resources it is given. -/
@[simp]
theorem resourceUse_pass
    (t : Tracker β)
    (program : P)
    (resources : R) :
    (t.pass program resources).resourceUse =
      (t.descriptor.resourceKey, resources) :=
  rfl

/- Recording a draw uses no cache. -/
theorem record_caches
    (t : Tracker β)
    (program : P)
    (resources : R) :
    let u := (t.record program resources).state
    u.programs = t.programs ∧
      u.resources = t.resources ∧
      u.stats.programs = t.stats.programs ∧
      u.stats.resourceSets = t.stats.resourceSets := by
  unfold record
  split
  · exact ⟨rfl, rfl, rfl, rfl⟩
  · exact ⟨rfl, rfl, rfl, rfl⟩

/- A recorded draw is served what its caches serve it. -/
theorem record_served
    {t : Tracker (Observed β)}
    {program : P}
    {resources : R}
    (hPrograms :
      t.ProgramsServe
        (t.backend.passes.map Pass.programUse ++
          [(t.descriptor, program)]))
    (hResources :
      t.ResourcesServe
        (t.backend.passes.map Pass.resourceUse ++
          [(t.descriptor.resourceKey, resources)])) :
    (t.record program resources).state.Served := by
  have hBackend := record_backend t program resources
  rcases record_caches t program resources with
    ⟨hProgramCache, hResourceCache, hProgramCount,
      hResourceCount⟩
  constructor
  · constructor
    · rw [hProgramCache, hBackend]
      simpa [Call.pass?] using hPrograms.serves
    · rw [hProgramCache, hBackend]
      simpa [Call.program?] using hPrograms.calls
    · rw [hProgramCache, hProgramCount]
      exact hPrograms.count
  · constructor
    · rw [hResourceCache, hBackend]
      simpa [Call.pass?] using hResources.serves
    · rw [hResourceCache, hBackend]
      simpa [Call.resources?] using hResources.calls
    · rw [hResourceCache, hResourceCount]
      exact hResources.count

/- A flush keeps every draw served, fault or not. -/
theorem flush_served
    {t : Tracker (Observed β)}
    (hServed : t.Served) :
    t.flush.state.Served := by
  rcases flush_cases t with
    ⟨messages, hFlush⟩ | hFlush | hFlush
  · have hReady : t.ready.descriptor = t.descriptor :=
      congrArg RenderState.descriptor
        (ready_sameDrawing t).renderState
    have hPasses := (ready_calls t).1
    rw [hFlush, Outcome.state_after]
    apply record_served
    · rw [hPasses, hReady]
      exact prepareResources_programsServe
        (prepareProgram_serves hServed.programs)
    · have hMade :=
        prepareResources_serves
          (prepareProgram_resourcesServe hServed.resources)
      rw [descriptor_prepareProgram] at hMade
      rw [hPasses, hReady]
      exact hMade
  · rw [hFlush]
    exact hServed
  · rw [hFlush]
    exact hServed

/- What is not drawing keeps every draw served. -/
theorem Idle.served
    {t u : Tracker (Observed β)}
    (hIdle : Idle t u)
    (hServed : t.Served) :
    u.Served := by
  have hCalls :
      u.backend.passes = t.backend.passes ∧
        u.backend.programCalls = t.backend.programCalls ∧
        u.backend.resourceCalls =
          t.backend.resourceCalls := by
    rcases hIdle.backend with hBackend | hBackend
    · rw [hBackend]
      exact ⟨rfl, rfl, rfl⟩
    · rw [hBackend]
      simp [Backend.submitFrame, Call.pass?, Call.program?,
        Call.resources?]
  rcases hCalls with ⟨hPasses, hPrograms, hResources⟩
  constructor
  · constructor
    · rw [hIdle.programs, hPasses]
      exact hServed.programs.serves
    · rw [hIdle.programs, hPrograms]
      exact hServed.programs.calls
    · rw [hIdle.programs, hIdle.programCount]
      exact hServed.programs.count
  · constructor
    · rw [hIdle.resources, hPasses]
      exact hServed.resources.serves
    · rw [hIdle.resources, hResources]
      exact hServed.resources.calls
    · rw [hIdle.resources, hIdle.resourceCount]
      exact hServed.resources.count

------------------------------------------------------------
-- Runs
------------------------------------------------------------

/- Moves keep every draw served, fault or not. -/
theorem attempt_served
    {t : Tracker (Observed β)}
    (hServed : t.Served)
    (moves : List (Move β)) :
    (t.attempt (moves.map Move.observed)).Served := by
  induction moves generalizing t with
  | nil => exact hServed
  | cons first rest ih =>
      apply ih
      cases first with
      | request request =>
          exact perform_keeps
            (fun t => flush_served)
            (fun t u hIdle => hIdle.served) hServed request
      | edit change =>
          exact ⟨⟨hServed.programs.serves,
              hServed.programs.calls,
              hServed.programs.count⟩,
            ⟨hServed.resources.serves,
              hServed.resources.calls,
              hServed.resources.count⟩⟩

/-
  What the calls of a run show of its caches: a program is
  made once for each drawn descriptor, in the order of first
  use and from its text, a resource set once for each drawn
  key; every draw carries what was made for it; and the
  counters count these calls.
-/
structure BuildsOnce
    (t : Tracker (Observed β)) : Prop where
  programs :
    t.backend.programCalls.map
        (fun call => (call.1, call.2.1)) =
      (t.backend.passes.map Pass.descriptor).eraseDups.map
        fun descriptor => (descriptor, descriptor.program)
  resources :
    t.backend.resourceCalls.map
        (fun call => (call.1, call.2.1)) =
      (t.backend.passes.map fun pass =>
        pass.descriptor.resourceKey).eraseDups.map
          fun key => (key, key.bindings)
  ownProgram :
    ∀ pass ∈ t.backend.passes,
      (pass.descriptor, pass.descriptor.program,
        pass.program) ∈ t.backend.programCalls
  ownResources :
    ∀ pass ∈ t.backend.passes,
      (pass.descriptor.resourceKey,
        pass.descriptor.resourceKey.bindings,
        pass.resources) ∈ t.backend.resourceCalls
  programCount :
    t.stats.programs =
      (t.backend.passes.map
        Pass.descriptor).eraseDups.length
  resourceCount :
    t.stats.resourceSets =
      (t.backend.passes.map fun pass =>
        pass.descriptor.resourceKey).eraseDups.length
  fewerResources :
    t.stats.resourceSets ≤ t.stats.programs

/- Served draws were built once. -/
theorem Served.buildsOnce
    {t : Tracker (Observed β)}
    (hServed : t.Served) :
    t.BuildsOnce := by
  have hDescriptors :
      (t.backend.passes.map Pass.programUse).map Prod.fst =
        t.backend.passes.map Pass.descriptor := by
    rw [List.map_map]
    rfl
  have hKeys :
      (t.backend.passes.map Pass.resourceUse).map
          Prod.fst =
        t.backend.passes.map fun pass =>
          pass.descriptor.resourceKey := by
    rw [List.map_map]
    rfl
  have hProgramKeys := hServed.programs.serves.keys
  have hResourceKeys := hServed.resources.serves.keys
  have hProgramSize := hServed.programs.serves.size_eq
  have hResourceSize := hServed.resources.serves.size_eq
  rw [hDescriptors] at hProgramKeys hProgramSize
  rw [hKeys] at hResourceKeys hResourceSize
  have hProgramCount :=
    hServed.programs.count.trans hProgramSize
  have hResourceCount :=
    hServed.resources.count.trans hResourceSize
  exact
    { programs := by
        rw [hServed.programs.calls, ← hProgramKeys,
          List.map_map, List.map_map]
        rfl
      resources := by
        rw [hServed.resources.calls, ← hResourceKeys,
          List.map_map, List.map_map]
        rfl
      ownProgram := by
        intro pass hPass
        have hFound :=
          hServed.programs.serves.served pass.programUse
            (List.mem_map_of_mem hPass)
        have hEntry := Cache.mem_entries_of_get? hFound
        rw [hServed.programs.calls]
        exact List.mem_map.mpr
          ⟨_, List.mem_reverse.mpr hEntry, rfl⟩
      ownResources := by
        intro pass hPass
        have hFound :=
          hServed.resources.serves.served pass.resourceUse
            (List.mem_map_of_mem hPass)
        have hEntry := Cache.mem_entries_of_get? hFound
        rw [hServed.resources.calls]
        exact List.mem_map.mpr
          ⟨_, List.mem_reverse.mpr hEntry, rfl⟩
      programCount := hProgramCount
      resourceCount := hResourceCount
      fewerResources := by
        have hFewer :=
          FirstUses.length_eraseDups_map_le
            Descriptor.resourceKey
            (t.backend.passes.map Pass.descriptor)
        rw [List.map_map] at hFewer
        rw [hProgramCount, hResourceCount]
        exact hFewer }

------------------------------------------------------------
-- Canvases
------------------------------------------------------------

/- A flush keeps the caches of a tracked canvas coherent. -/
theorem flush_coherent
    {t : Tracker Canvas}
    (hCaches : Coherent t) :
    Coherent t.flush.state := by
  rcases flush_cases t with
    ⟨messages, hFlush⟩ | hFlush | hFlush
  · have hProgram := (prepareProgram_canvas hCaches).2.2
    have hReady := (prepareResources_canvas hProgram).2.2
    have hRecord :=
      record_caches t.ready t.prepareProgram.value.1
        t.prepareProgram.value.2.prepareResources.value.1
    rw [hFlush, Outcome.state_after]
    constructor
    · rw [hRecord.1]
      exact hReady.programs
    · rw [hRecord.2.1]
      exact hReady.resources
  · rw [hFlush]
    exact hCaches
  · rw [hFlush]
    exact hCaches

/- Moves keep the caches of a tracked canvas coherent. -/
theorem attempt_coherent
    {t : Tracker Canvas}
    (hCaches : Coherent t)
    (moves : List (Move Canvas)) :
    Coherent (t.attempt moves) := by
  induction moves generalizing t with
  | nil => exact hCaches
  | cons first rest ih =>
      apply ih
      cases first with
      | request request =>
          refine
            perform_keeps (fun t => flush_coherent) ?_
              hCaches request
          intro t u hIdle hCaches
          constructor
          · rw [hIdle.programs]
            exact hCaches.programs
          · rw [hIdle.resources]
            exact hCaches.resources
      | edit change =>
          exact ⟨hCaches.programs, hCaches.resources⟩

/- A flush over a canvas never lacks a palette. -/
theorem flush_bindsPalette
    {t : Tracker Canvas}
    (hCaches : Coherent t) :
    t.flush.fault ≠ some .missingPalette := by
  rcases flush_cases t with
    ⟨messages, hFlush⟩ | hFlush | hFlush
  · rcases prepareProgram_canvas hCaches with
      ⟨hProgram, -, hCached⟩
    have hResources := (prepareResources_canvas hCached).1
    rw [hFlush, Outcome.fault_after, record_fault, hProgram,
      hResources, descriptor_prepareProgram]
    apply Canvas.recordDraw_bindsPalette
    exact t.descriptor.resourceKey
      |>.contains_palette_bindings
  · rw [hFlush]
    nofun
  · rw [hFlush]
    nofun

/-
  The caches stay coherent.  Over every backend, whatever
  its owner does and also after faults, programs and
  resource sets are built once, in order of first use, and
  each draw carries its own.  So a canvas is always given
  the program of the drawn descriptor and a palette where
  the program needs one, and no move ever finds a palette
  missing.
-/
theorem caches_coherent :
    (∀ {β P R : Type} [Backend β P R]
      (backend : β)
      (storage : Array Vertex)
      (moves : List (Move β)),
      let t :=
        (fresh backend storage).observe.attempt
          (moves.map Move.observed)
      t.unobserved = (fresh backend storage).attempt moves ∧
        t.BuildsOnce) ∧
    (∀ (canvas : Canvas)
      (storage : Array Vertex)
      (moves : List (Move Canvas)),
      let t :=
        (fresh canvas storage).observe.attempt
          (moves.map Move.observed)
      (∀ pass ∈ t.backend.passes,
        pass.program = pass.descriptor ∧
          (pass.program.usesPalette = true →
            pass.resources.contains .palette = true)) ∧
        ∀ next : Move Canvas,
          (t.unobserved.move next).fault ≠
            some .missingPalette) := by
  constructor
  · intro β P R _ backend storage moves t
    exact ⟨attempt_unobserved _ moves,
      (attempt_served (fresh_served backend storage)
        moves).buildsOnce⟩
  · intro canvas storage moves t
    have hServed : t.Served :=
      attempt_served (fresh_served canvas storage) moves
    have hPlain :
        t.unobserved = (fresh canvas storage).attempt moves :=
      attempt_unobserved _ moves
    have hCaches : Coherent t.unobserved := by
      rw [hPlain]
      exact attempt_coherent
        (fresh_coherent canvas storage) moves
    constructor
    · intro pass hPass
      have hProgram : pass.program = pass.descriptor :=
        hCaches.programs _ _
          (hServed.programs.serves.served pass.programUse
            (List.mem_map_of_mem hPass))
      have hResources :
          pass.resources =
            pass.descriptor.resourceKey.bindings :=
        hCaches.resources _ _
          (hServed.resources.serves.served pass.resourceUse
            (List.mem_map_of_mem hPass))
      rw [hProgram, hResources]
      exact ⟨rfl, pass.descriptor.resourceKey
        |>.contains_palette_bindings⟩
    · intro next hMissing
      cases next with
      | request request =>
          rcases fault_of_perform hMissing with
            hFlush | ⟨hOther, -⟩ | ⟨count, capacity, hOther⟩
          · exact flush_bindsPalette hCaches hFlush
          · cases hOther
          · cases hOther
      | edit change => cases hMissing

end Tracker

end PagedRaster
