/-
  This file defines arithmetic of words that may fail: a
  sum, a difference or a product that is no word is none.

  Key definitions include:
    * `checkedAdd`, `checkedSub`, `checkedMul`

  Key theorems include:
    * `exists_checkedSum`
    * `toNat_of_checkedAdd`
    * `exists_checkedProduct`
-/

namespace PagedRaster

/- A sum of words, if it is a word. -/
def checkedAdd
    (word other : UInt32) : Option UInt32 :=
  if word.toNat + other.toNat < UInt32.size then
    some (word + other)
  else
    none

/- A difference of words, if it is a word. -/
def checkedSub
    (word other : UInt32) : Option UInt32 :=
  if other ≤ word then some (word - other) else none

/- A product of words, if it is a word. -/
def checkedMul
    (word other : UInt32) : Option UInt32 :=
  if word.toNat * other.toNat < UInt32.size then
    some (word * other)
  else
    none

/- A sum of small numbers is a word. -/
theorem exists_checkedSum
    {word other : UInt32}
    (hFits : word.toNat + other.toNat < UInt32.size) :
    ∃ sum,
      checkedAdd word other = some sum ∧
        sum.toNat = word.toNat + other.toNat := by
  refine ⟨word + other, if_pos hFits, ?_⟩
  rw [UInt32.toNat_add]
  exact Nat.mod_eq_of_lt hFits

/- A sum that is a word is the sum of the numbers. -/
theorem toNat_of_checkedAdd
    {word other sum : UInt32}
    (hSum : checkedAdd word other = some sum) :
    sum.toNat = word.toNat + other.toNat := by
  unfold checkedAdd at hSum
  split at hSum
  · rename_i hFits
    cases hSum
    rw [UInt32.toNat_add]
    exact Nat.mod_eq_of_lt hFits
  · cases hSum

/- A product of small numbers is a word. -/
theorem exists_checkedProduct
    {word other : UInt32}
    (hFits : word.toNat * other.toNat < UInt32.size) :
    ∃ product,
      checkedMul word other = some product ∧
        product.toNat = word.toNat * other.toNat := by
  refine ⟨word * other, if_pos hFits, ?_⟩
  rw [UInt32.toNat_mul]
  exact Nat.mod_eq_of_lt hFits

end PagedRaster
