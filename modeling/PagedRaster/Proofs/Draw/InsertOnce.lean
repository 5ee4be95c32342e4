import Mathlib.Data.Finset.Card
import PagedRaster.Proofs.Draw.Coherence

/-
  This file proves that caches are insert-once maps.  Over
  every sequence of calls, refused ones included, a key
  keeps the value that it was bound to first, a builder runs
  exactly when its key is not bound, and the size is the
  number of distinct keys bound so far.

  Key definitions include:
    * `Cache.Call`, `Cache.Answer`
    * `Cache.Session`, `Session.step`, `Session.run`
    * `Call.boundKeys`
    * `Session.InsertsOnce`

  Key theorems include:
    * `Session.step_miss`, `Session.step_hit`
    * `Session.run_keeps`
    * `Session.run_serves`
    * `Session.insertsOnce_run`
    * `Cache.caches_insertOnce`
-/

namespace PagedRaster

/- First uses are distinct. -/
theorem FirstUses.nodup_eraseDups
    {α : Type}
    [DecidableEq α]
    (uses : List α) :
    uses.eraseDups.Nodup := by
  induction uses using List.reverseRecOn with
  | nil => exact List.nodup_nil
  | append_singleton uses last ih =>
      rw [eraseDups_concat]
      split
      · exact ih
      · rename_i hNew
        rw [← List.mem_eraseDups] at hNew
        exact List.nodup_append.mpr
          ⟨ih, List.nodup_singleton last, by grind⟩

namespace Cache

------------------------------------------------------------
-- Calls
------------------------------------------------------------

/-
  One call on a cache.  Callers ask by names, and several
  names may share a key.  A builder may read and change a
  state that all builders share, so a run of it shows.
-/
inductive Call
    (δ α σ : Type) where
  | tryGet (name : δ)
  | register (name : δ) (value : α)
  | getOrInsert (name : δ) (build : StateM σ α)

/- What a call gives back. -/
inductive Answer
    (α : Type) where
  | found (value : Option α)
  | value (value : α)
  | refused (fault : Fault)

/- A cache is empty if it has no size. -/
theorem isEmpty_iff_size
    {κ α : Type}
    (cache : Cache κ α) :
    cache.isEmpty = true ↔ cache.size = 0 := by
  rw [isEmpty, size, List.isEmpty_iff, List.length_eq_zero_iff]

/- Inserting a key updates the look-up. -/
theorem get?_insert
    {κ α : Type}
    [DecidableEq κ]
    (cache : Cache κ α)
    (key : κ)
    (value : α) :
    (cache.insert key value).get? =
      Function.update cache.get? key (some value) := by
  funext other
  by_cases hSame : other = key
  · rw [hSame, get?_insert_self, Function.update_self]
  · rw [get?_insert_of_ne cache value hSame,
      Function.update_of_ne hSame]

namespace Call

variable {κ δ α σ : Type}

/-
  The name that a call binds if it is not bound yet, and
  how its value comes about.
-/
def binding? : Call δ α σ → Option (δ × StateM σ α)
  | .tryGet _ => none
  | .register name value => some (name, pure value)
  | .getOrInsert name build => some (name, build)

/- The key that a call binds if it is not bound yet. -/
def bindingKey?
    (key : δ → κ)
    (call : Call δ α σ) : Option κ :=
  call.binding?.map fun binding => key binding.1

variable [DecidableEq κ]

/- The distinct keys that calls have bound. -/
def boundKeys
    (key : δ → κ)
    (calls : List (Call δ α σ)) : Finset κ :=
  (calls.filterMap (bindingKey? key)).toFinset

end Call

/- A cache in use, and the state that builders share. -/
structure Session
    (κ α σ : Type) where
  cache : Cache κ α
  world : σ

namespace Session

variable {κ δ α σ : Type}
variable [DecidableEq κ]

/- A session on an empty cache. -/
def start
    (world : σ) : Session κ α σ where
  cache := empty
  world := world

/-
  Answer one call.  A refused one is survived: the session
  goes on as it was.
-/
def step
    (twice : κ → Fault)
    (key : δ → κ)
    (s : Session κ α σ) :
    Call δ α σ → Answer α × Session κ α σ
  | .tryGet name => (.found (s.cache.get? (key name)), s)
  | .register name value =>
      match s.cache.register twice (key name) value with
      | .ok (stored, cache) =>
          (.value stored, { s with cache := cache })
      | .error fault => (.refused fault, s)
  | .getOrInsert name build =>
      match (s.cache.getOrInsertM (key name) build).run
          s.world with
      | ((value, cache), world) =>
          (.value value, { cache := cache, world := world })

/- Answer calls one after the other. -/
def run
    (twice : κ → Fault)
    (key : δ → κ)
    (s : Session κ α σ)
    (calls : List (Call δ α σ)) : Session κ α σ :=
  calls.foldl (fun s call => (s.step twice key call).2) s

------------------------------------------------------------
-- One Call
------------------------------------------------------------

section Step

variable {twice : κ → Fault}
variable {key : δ → κ}
variable {s : Session κ α σ}
variable {name : δ}

/- A call that binds nothing is a look-up. -/
theorem step_lookUp
    {call : Call δ α σ}
    (hCall : call.binding? = none) :
    (s.step twice key call).2 = s := by
  cases call with
  | tryGet name => rfl
  | register name value => cases hCall
  | getOrInsert name build => cases hCall

/- A key that is not bound is bound to a value built now. -/
theorem step_miss
    {call : Call δ α σ}
    {build : StateM σ α}
    (hMissing : s.cache.get? (key name) = none)
    (hCall : call.binding? = some (name, build)) :
    s.step twice key call =
      (.value (build.run s.world).1,
        { cache :=
            s.cache.insert (key name) (build.run s.world).1
          world := (build.run s.world).2 }) := by
  cases call with
  | tryGet name => cases hCall
  | register name value =>
      cases hCall
      simp only [step, register, hMissing]
      rfl
  | getOrInsert name build =>
      cases hCall
      simp only [step, getOrInsertM, hMissing]
      rfl

/- A bound key yields its value, and nothing is built. -/
theorem step_hit
    {value : α}
    (hFound : s.cache.get? (key name) = some value)
    (build : StateM σ α) :
    s.step twice key (.getOrInsert name build) =
      (.value value, s) := by
  simp only [step, getOrInsertM, hFound]
  rfl

/- Registering a bound key is refused. -/
theorem step_refused
    {value : α}
    (hFound : s.cache.get? (key name) = some value)
    (other : α) :
    s.step twice key (.register name other) =
      (.refused (twice (key name)), s) := by
  simp only [step, register, hFound]

/- A call on a bound key changes nothing. -/
theorem step_of_bound
    {call : Call δ α σ}
    {build : StateM σ α}
    {value : α}
    (hFound : s.cache.get? (key name) = some value)
    (hCall : call.binding? = some (name, build)) :
    (s.step twice key call).2 = s := by
  cases call with
  | tryGet name => rfl
  | register name value =>
      cases hCall
      rw [step_refused hFound]
  | getOrInsert name build =>
      cases hCall
      rw [step_hit hFound]

/- A call leaves bound keys as they are. -/
theorem step_keeps
    {k : κ}
    {value : α}
    (hFound : s.cache.get? k = some value)
    (call : Call δ α σ) :
    (s.step twice key call).2.cache.get? k = some value := by
  cases hCall : call.binding? with
  | none => rwa [step_lookUp hCall]
  | some binding =>
      rcases binding with ⟨name, build⟩
      cases hBound : s.cache.get? (key name) with
      | some bound => rwa [step_of_bound hBound hCall]
      | none =>
          have hOther : k ≠ key name := by
            intro hSame
            rw [hSame, hBound] at hFound
            cases hFound
          rw [step_miss hBound hCall]
          exact
            (get?_insert_of_ne s.cache _ hOther).trans hFound

/-
  Of two names that are not bound, binding one binds the
  other exactly if they share a key.
-/
theorem get?_register_iff
    {other : δ}
    (hName : s.cache.get? (key name) = none)
    (hOther : s.cache.get? (key other) = none)
    (value : α) :
    (s.step twice key (.register name value)).2.cache.get?
        (key other) =
      some value ↔
        key name = key other := by
  rw [step_miss hName rfl, get?_insert, Function.update_apply]
  constructor
  · intro hFound
    split at hFound
    · rename_i hSame
      exact hSame.symm
    · rw [hOther] at hFound
      cases hFound
  · intro hSame
    rw [if_pos hSame.symm]
    rfl

end Step

------------------------------------------------------------
-- Sequences of Calls
------------------------------------------------------------

section Run

variable (twice : κ → Fault)
variable (key : δ → κ)

/- Calls after calls. -/
theorem run_append
    (s : Session κ α σ)
    (calls others : List (Call δ α σ)) :
    s.run twice key (calls ++ others) =
      (s.run twice key calls).run twice key others :=
  List.foldl_append

/- Calls leave bound keys as they are. -/
theorem run_keeps
    {s : Session κ α σ}
    {k : κ}
    {value : α}
    (hFound : s.cache.get? k = some value)
    (calls : List (Call δ α σ)) :
    (s.run twice key calls).cache.get? k = some value := by
  induction calls generalizing s with
  | nil => exact hFound
  | cons call rest ih => exact ih (step_keeps hFound call)

/-
  A cache serves the calls that bind, each with the value
  that its key has.
-/
theorem run_serves
    (world : σ)
    (past : List (Call δ α σ)) :
    ∃ uses,
      ((start world).run twice key past).cache.Serves uses ∧
        uses.map Prod.fst =
          past.filterMap (Call.bindingKey? key) := by
  induction past using List.reverseRecOn with
  | nil => exact ⟨[], serves_empty, rfl⟩
  | append_singleton past call ih =>
      rcases ih with ⟨uses, hServes, hUses⟩
      rw [run_append, List.filterMap_append, ← hUses]
      generalize (start world).run twice key past = s
        at hServes
      change
        ∃ uses',
          (s.step twice key call).2.cache.Serves uses' ∧
            uses'.map Prod.fst =
              uses.map Prod.fst ++
                (call.bindingKey? key).toList
      unfold Call.bindingKey?
      cases hCall : call.binding? with
      | none =>
          rw [step_lookUp hCall]
          exact ⟨uses, hServes, by simp⟩
      | some binding =>
          rcases binding with ⟨name, build⟩
          cases hBound : s.cache.get? (key name) with
          | some value =>
              rw [step_of_bound hBound hCall]
              exact ⟨_, hServes.hit hBound, by simp⟩
          | none =>
              rw [step_miss hBound hCall]
              exact ⟨_, hServes.miss hBound _, by simp⟩

/- What is bound are the keys of the calls that bind. -/
theorem isSome_get?_run
    (world : σ)
    (past : List (Call δ α σ))
    (k : κ) :
    (((start world).run twice key past).cache.get? k).isSome =
        true ↔
      k ∈ Call.boundKeys key past := by
  rcases run_serves twice key world past with
    ⟨uses, hServes, hUses⟩
  rw [Call.boundKeys, List.mem_toFinset, ← hUses,
    List.mem_map]
  constructor
  · intro hSome
    rcases Option.isSome_iff_exists.mp hSome with
      ⟨value, hFound⟩
    have hKey :=
      (hServes.mem_keys_iff k).mpr
        (List.mem_map_of_mem (mem_entries_of_get? hFound))
    exact List.mem_map.mp hKey
  · rintro ⟨use, hUse, rfl⟩
    rw [hServes.served use hUse]
    rfl

/- The size counts them. -/
theorem size_run
    (world : σ)
    (past : List (Call δ α σ)) :
    ((start world).run twice key past).cache.size =
      (Call.boundKeys key past).card := by
  rcases run_serves twice key world past with
    ⟨uses, hServes, hUses⟩
  have hDistinct :
      (uses.map Prod.fst).eraseDups.toFinset =
        (uses.map Prod.fst).toFinset := by
    ext k
    simp
  rw [hServes.size_eq, Call.boundKeys, ← hUses, ← hDistinct,
    List.toFinset_card_of_nodup
      (FirstUses.nodup_eraseDups _)]

/- The first call that binds a key gives it its value. -/
theorem get?_run_of_first
    (world : σ)
    {before : List (Call δ α σ)}
    {call : Call δ α σ}
    {name : δ}
    {build : StateM σ α}
    (hCall : call.binding? = some (name, build))
    (hFirst : key name ∉ Call.boundKeys key before)
    (after : List (Call δ α σ)) :
    ((start world).run twice key
        (before ++ call :: after)).cache.get? (key name) =
      some
        (build.run
          ((start world).run twice key before).world).1 := by
  have hMissing :
      ((start world).run twice key before).cache.get?
          (key name) =
        none := by
    rw [← Option.not_isSome_iff_eq_none,
      isSome_get?_run twice key world before]
    exact hFirst
  have hBound :
      (((start world).run twice key before).step twice key
          call).2.cache.get? (key name) =
        some
          (build.run
            ((start world).run twice key
              before).world).1 := by
    rw [step_miss hMissing hCall]
    exact get?_insert_self _ _ _
  rw [run_append]
  exact run_keeps twice key hBound after

end Run

------------------------------------------------------------
-- Insert-Once Maps
------------------------------------------------------------

/-
  What a session looks like after calls, and what it answers
  next.  What is bound follows from the calls alone.
-/
structure InsertsOnce
    (twice : κ → Fault)
    (key : δ → κ)
    (world : σ)
    (past : List (Call δ α σ))
    (s : Session κ α σ) : Prop where
  /- The bound keys are those of the calls that bind. -/
  bound_iff :
    ∀ k,
      (s.cache.get? k).isSome = true ↔
        k ∈ Call.boundKeys key past
  /- The size is the number of distinct keys. -/
  size_eq :
    s.cache.size = (Call.boundKeys key past).card
  isEmpty_iff :
    s.cache.isEmpty = true ↔ s.cache.size = 0
  /- The first call that binds a key gives its value. -/
  first_value :
    ∀ before call after name build,
      past = before ++ call :: after →
      Call.binding? call = some (name, build) →
      key name ∉ Call.boundKeys key before →
      s.cache.get? (key name) =
        some
          (build.run
            ((start world).run twice key before).world).1
  /- A look-up changes nothing. -/
  tryGet :
    ∀ name,
      s.step twice key (.tryGet name) =
        (.found (s.cache.get? (key name)), s)
  /- A bound key is not bound again, and builds nothing. -/
  hit :
    ∀ name value,
      s.cache.get? (key name) = some value →
      (∀ build,
        s.step twice key (.getOrInsert name build) =
          (.value value, s)) ∧
      ∀ other,
        s.step twice key (.register name other) =
          (.refused (twice (key name)), s)
  /- A key that is not bound gets a value, and no other. -/
  miss :
    ∀ name,
      s.cache.get? (key name) = none →
      ∀ call build,
        Call.binding? call = some (name, build) →
        ∃ value cache,
          s.step twice key call =
            (.value value,
              { cache := cache
                world := (build.run s.world).2 }) ∧
          value = (build.run s.world).1 ∧
          cache.get? =
            Function.update s.cache.get? (key name)
              (some value)

/- Every session is an insert-once map. -/
theorem insertsOnce_run
    (twice : κ → Fault)
    (key : δ → κ)
    (world : σ)
    (past : List (Call δ α σ)) :
    InsertsOnce twice key world past
      ((start world).run twice key past) where
  bound_iff := isSome_get?_run twice key world past
  size_eq := size_run twice key world past
  isEmpty_iff := isEmpty_iff_size _
  first_value := by
    rintro before call after name build rfl hCall hFirst
    exact get?_run_of_first twice key world hCall hFirst
      after
  tryGet _ := rfl
  hit _ _ hFound := ⟨step_hit hFound, step_refused hFound⟩
  miss name hMissing call build hCall := by
    refine ⟨_, _, step_miss hMissing hCall, rfl, ?_⟩
    exact get?_insert _ _ _

end Session

end Cache

------------------------------------------------------------
-- Both Caches
------------------------------------------------------------

open Cache (Call Session)

/- Keys are equal if the four choices in them are. -/
theorem Descriptor.resourceKey_eq_iff
    (d e : Descriptor) :
    d.resourceKey = e.resourceKey ↔
      d.textured = e.textured ∧ d.frame = e.frame ∧
        d.depth = e.depth ∧ d.texture = e.texture := by
  simp [resourceKey]

/-
  Both caches are insert-once maps.  The program cache tells
  all descriptors apart.  The resource cache compares keys:
  of two descriptors without an entry, binding one binds the
  other exactly if they agree on being textured and on the
  formats of frame, depth and texture.
-/
theorem Cache.caches_insertOnce
    {α σ : Type}
    (world : σ)
    (past : List (Call Descriptor α σ)) :
    Session.InsertsOnce Fault.programCachedTwice id world
        past
        ((Session.start world).run Fault.programCachedTwice
          id past) ∧
      let s : Session ResourceKey α σ :=
        (Session.start world).run Fault.resourcesCachedTwice
          Descriptor.resourceKey past
      Session.InsertsOnce Fault.resourcesCachedTwice
          Descriptor.resourceKey world past s ∧
        ∀ (d e : Descriptor) (value : α),
          s.cache.get? d.resourceKey = none →
          s.cache.get? e.resourceKey = none →
          ((s.step Fault.resourcesCachedTwice
              Descriptor.resourceKey
              (.register d value)).2.cache.get?
                e.resourceKey =
              some value ↔
            d.textured = e.textured ∧ d.frame = e.frame ∧
              d.depth = e.depth ∧ d.texture = e.texture) := by
  refine ⟨Session.insertsOnce_run _ _ world past,
    Session.insertsOnce_run _ _ world past, ?_⟩
  intro d e value hFirst hSecond
  rw [← Descriptor.resourceKey_eq_iff]
  exact Session.get?_register_iff hFirst hSecond value

/- A descriptor that samples, and one that also blends. -/
def Descriptor.sampling : Descriptor where
  textured := true

def Descriptor.samplingBlended : Descriptor where
  textured := true
  blends := true

/- A builder that numbers what it builds. -/
def Cache.numbering : StateM Nat Nat :=
  fun count => (count, count + 1)

/-
  After calls on plain descriptors, among them one that is
  refused, two sampling ones share an entry.
-/
theorem Cache.caches_insertOnce_shared :
    let past : List (Call Descriptor Nat Nat) :=
      [.getOrInsert {} numbering,
        .register { blends := true } 5]
    let s : Session ResourceKey Nat Nat :=
      (Session.start 3).run Fault.resourcesCachedTwice
        Descriptor.resourceKey past
    s.cache.get? Descriptor.sampling.resourceKey = none ∧
      s.cache.get? Descriptor.samplingBlended.resourceKey =
        none ∧
      (s.step Fault.resourcesCachedTwice
          Descriptor.resourceKey
          (.register .sampling 7)).2.cache.get?
            Descriptor.samplingBlended.resourceKey =
        some 7 := by
  intro past s
  have hFirst :
      s.cache.get? Descriptor.sampling.resourceKey = none := by
    decide
  have hSecond :
      s.cache.get? Descriptor.samplingBlended.resourceKey =
        none := by
    decide
  have hShared :=
    (caches_insertOnce 3 past).2.2 .sampling
      .samplingBlended 7 hFirst hSecond
  exact ⟨hFirst, hSecond,
    hShared.mpr ⟨rfl, rfl, rfl, rfl⟩⟩

end PagedRaster
