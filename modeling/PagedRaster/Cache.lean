import PagedRaster.Fault

/-
  This file defines caches that keep the first value of
  each key for as long as they live.

  Key definitions include:
    * `Cache`
    * `Cache.get?`
    * `Cache.register`
    * `Cache.getOrInsertM`, `Cache.getOrInsert`
-/

namespace PagedRaster

/-
  A cache: its entries, newest first.  A key occurs once,
  because an entry is added only when its key is missing.
-/
structure Cache
    (κ α : Type) where
  entries : List (κ × α)

namespace Cache

variable {κ α : Type}

/- The cache without entries. -/
def empty : Cache κ α :=
  ⟨[]⟩

/- Number of entries. -/
def size
    (cache : Cache κ α) : Nat :=
  cache.entries.length

/- The cache has no entries. -/
def isEmpty
    (cache : Cache κ α) : Bool :=
  cache.entries.isEmpty

variable [DecidableEq κ]

/- The value of a key. -/
def get?
    (cache : Cache κ α)
    (key : κ) : Option α :=
  (cache.entries.find? fun entry =>
    decide (entry.1 = key)).map Prod.snd

/- Add an entry in front. -/
def insert
    (cache : Cache κ α)
    (key : κ)
    (value : α) : Cache κ α :=
  ⟨(key, value) :: cache.entries⟩

/-
  Bind a key that is not bound yet.  Binding it again is a
  fault of the caller.
-/
def register
    (cache : Cache κ α)
    (twice : κ → Fault)
    (key : κ)
    (value : α) : Except Fault (α × Cache κ α) :=
  match cache.get? key with
  | some _ => .error (twice key)
  | none => .ok (value, cache.insert key value)

/-
  The value of a key.  A missing key is bound to the value
  that the builder gives; a bound one leaves the builder
  alone.
-/
def getOrInsertM
    {m : Type → Type}
    [Monad m]
    (cache : Cache κ α)
    (key : κ)
    (build : m α) : m (α × Cache κ α) :=
  match cache.get? key with
  | some value => pure (value, cache)
  | none => do
      let value ← build
      pure (value, cache.insert key value)

/- The same with a builder that has no effects. -/
def getOrInsert
    (cache : Cache κ α)
    (key : κ)
    (build : Unit → α) : α × Cache κ α :=
  Id.run (cache.getOrInsertM key (pure (build ())))

------------------------------------------------------------
-- Look-up Laws
------------------------------------------------------------

/- Nothing is bound in the empty cache. -/
@[simp]
theorem get?_empty
    (key : κ) :
    (empty : Cache κ α).get? key = none :=
  rfl

/- A key is bound to the value inserted for it. -/
@[simp]
theorem get?_insert_self
    (cache : Cache κ α)
    (key : κ)
    (value : α) :
    (cache.insert key value).get? key = some value := by
  simp [get?, insert]

/- Inserting a key leaves the other keys alone. -/
theorem get?_insert_of_ne
    (cache : Cache κ α)
    {key other : κ}
    (value : α)
    (hOther : other ≠ key) :
    (cache.insert key value).get? other =
      cache.get? other := by
  have hKey : key ≠ other := fun h => hOther h.symm
  simp [get?, insert, hKey]

end Cache

end PagedRaster
