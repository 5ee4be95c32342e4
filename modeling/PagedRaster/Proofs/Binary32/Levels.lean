import PagedRaster.Proofs.Binary32.Division

/-
  This file proves two facts about the floats of a colour.
  A mix by zero or one is exactly one of its ends.  And a
  channel is zero, or so far from zero that sums of channels
  are zero just when all of them are.

  Key definitions include:
    * `Binary32.IsLevel`

  Key theorems include:
    * `Binary32.HasValue.mix_zero`
    * `Binary32.HasValue.mix_one`
    * `Binary32.IsLevel.add`
    * `Binary32.IsLevel.beq_zero`
    * `Binary32.isLevel_fraction`
-/

namespace PagedRaster

namespace Binary32

------------------------------------------------------------
-- Exact Mixing
------------------------------------------------------------

/- A representable result of the unit interval is exact. -/
theorem hasValue_of_unit
    {result : Float32}
    {exact : ℚ}
    (hResult :
      |exact| ≤ 2 ^ 127 →
        ∃ rounded,
          RoundsTo exact rounded ∧ HasValue result rounded)
    (hExact : Representable |exact|)
    (hUnit : |exact| ≤ 1) :
    HasValue result exact :=
  hasValue_of_representable
    (hResult (hUnit.trans (by norm_num))) hExact

/- So zero is. -/
theorem hasValue_of_none
    {result : Float32}
    (hResult :
      |(0 : ℚ)| ≤ 2 ^ 127 →
        ∃ rounded,
          RoundsTo 0 rounded ∧ HasValue result rounded) :
    HasValue result 0 :=
  hasValue_of_unit hResult
    (by rw [abs_zero]; exact representable_zero)
    (by rw [abs_zero]; exact zero_le_one)

section Mixing

variable {x y t : Float32}
variable {p q : ℚ}

/- A mix by zero is the first end. -/
theorem HasValue.mix_zero
    (hX : HasValue x p)
    (hY : HasValue y q)
    (hT : HasValue t 0)
    (hUnit : |p| ≤ 1) :
    HasValue (mix x y t) p := by
  have hP := hX.representable
  have hRest : HasValue (1.0 - t) 1 := by
    have hDifference := hasValue_one.sub hT
    rw [sub_zero] at hDifference
    exact hasValue_of_unit hDifference
      hasValue_one.representable abs_one.le
  have hFirst : HasValue (x * (1.0 - t)) p := by
    have hProduct := hX.mul hRest
    rw [mul_one] at hProduct
    exact hasValue_of_unit hProduct hP hUnit
  have hSecond : HasValue (y * t) 0 := by
    have hProduct := hY.mul hT
    rw [mul_zero] at hProduct
    exact hasValue_of_none hProduct
  have hSum := hFirst.add hSecond
  rw [add_zero] at hSum
  exact hasValue_of_unit hSum hP hUnit

/- A mix by one is the second end. -/
theorem HasValue.mix_one
    (hX : HasValue x p)
    (hY : HasValue y q)
    (hT : HasValue t 1)
    (hUnit : |q| ≤ 1) :
    HasValue (mix x y t) q := by
  have hQ := hY.representable
  have hRest : HasValue (1.0 - t) 0 := by
    have hDifference := hasValue_one.sub hT
    rw [sub_self] at hDifference
    exact hasValue_of_none hDifference
  have hFirst : HasValue (x * (1.0 - t)) 0 := by
    have hProduct := hX.mul hRest
    rw [mul_zero] at hProduct
    exact hasValue_of_none hProduct
  have hSecond : HasValue (y * t) q := by
    have hProduct := hY.mul hT
    rw [mul_one] at hProduct
    exact hasValue_of_unit hProduct hQ hUnit
  have hSum := hFirst.add hSecond
  rw [zero_add] at hSum
  exact hasValue_of_unit hSum hQ hUnit

end Mixing

------------------------------------------------------------
-- Levels
------------------------------------------------------------

/-
  A float is a number up to a bound; it is zero, or far from
  it if it is lit.
-/
def IsLevel
    (x : Float32)
    (most : Nat)
    (lit : Prop) : Prop :=
  ∃ value,
    HasValue x value ∧ value ≤ most ∧
      (lit → 1 / 256 ≤ value) ∧ (¬lit → value = 0)

/- The least level that is lit is representable. -/
theorem representable_leastLevel :
    Representable |1 / 256| := by
  have hUnits :=
    representable_abs_units
      (by decide : |(1 : Int)| < 2 ^ 24)
      (by decide : (-149 : Int) ≤ -8)
  norm_num at hUnits ⊢
  exact hUnits

/- A sum is lit if one of its parts is. -/
theorem IsLevel.add
    {x y : Float32}
    {most most' : Nat}
    {lit lit' : Prop}
    (hX : IsLevel x most lit)
    (hY : IsLevel y most' lit')
    (hSmall : most + most' < 2 ^ 24) :
    IsLevel (x + y) (most + most') (lit ∨ lit') := by
  rcases hX with ⟨p, hX, hMost, hLit, hDark⟩
  rcases hY with ⟨q, hY, hMost', hLit', hDark'⟩
  have hP : 0 ≤ p := by
    by_cases hCase : lit
    · linarith [hLit hCase]
    · exact (hDark hCase).ge
  have hQ : 0 ≤ q := by
    by_cases hCase : lit'
    · linarith [hLit' hCase]
    · exact (hDark' hCase).ge
  have hSum : 0 ≤ p + q := add_nonneg hP hQ
  have hBound : p + q ≤ (most + most' : Nat) := by
    push_cast
    linarith
  have hCount : ((most + most' : Nat) : ℚ) < 2 ^ 24 := by
    exact_mod_cast hSmall
  rcases hX.add hY
      (by rw [abs_of_nonneg hSum]; linarith) with
    ⟨value, hRounds, hValue⟩
  refine ⟨value, hValue, ?_, ?_, ?_⟩
  · apply hRounds.le _ _ hBound
    have hFits :
        |((most + most' : Nat) : Int)| < 2 ^ 24 := by
      rw [abs_of_nonneg (Int.natCast_nonneg _)]
      exact_mod_cast hSmall
    have hWhole := representable_abs_intCast hFits
    rwa [Int.cast_natCast] at hWhole
  · intro hEither
    apply hRounds.ge _ representable_leastLevel
    rcases hEither with hFirst | hSecond
    · linarith [hLit hFirst]
    · linarith [hLit' hSecond]
  · intro hNeither
    rw [not_or] at hNeither
    have hExact : p + q = 0 := by
      rw [hDark hNeither.1, hDark' hNeither.2, add_zero]
    rw [hExact] at hRounds
    exact hRounds.eq_of_representable
      (by rw [abs_zero]; exact representable_zero)

/- A level is zero if it is not lit. -/
theorem IsLevel.beq_zero
    {x : Float32}
    {most : Nat}
    {lit : Prop}
    (hX : IsLevel x most lit) :
    (x == 0.0) = true ↔ ¬lit := by
  rcases hX with ⟨value, hX, -, hLit, hDark⟩
  rw [hX.beq_iff hasValue_zero]
  constructor
  · intro hZero hCase
    linarith [hLit hCase]
  · exact hDark

/- A fraction of a scale is lit if it is not zero. -/
theorem isLevel_fraction
    {word : UInt32}
    {most : Float32}
    {n : Nat}
    (hMost : HasValue most n)
    (hScale : n ≤ 255)
    (hPos : 0 < n)
    (hWord : word.toNat ≤ n) :
    IsLevel (word.toFloat32 / most) 1 (word.toNat ≠ 0) := by
  have hSmall : word.toNat < 2 ^ 24 := by omega
  have hDivisor : (0 : ℚ) < n := Nat.cast_pos.mpr hPos
  have hLow : (0 : ℚ) ≤ word.toNat / n := by positivity
  have hHigh : (word.toNat : ℚ) / n ≤ 1 := by
    rw [div_le_one hDivisor]
    exact_mod_cast hWord
  rcases (hasValue_toFloat32 hSmall).div hMost hDivisor.ne'
      (by rw [abs_of_nonneg hLow]; linarith) with
    ⟨value, hRounds, hValue⟩
  refine ⟨value, hValue, ?_, ?_, ?_⟩
  · rw [Nat.cast_one]
    exact hRounds.le 1 hasValue_one.representable hHigh
  · intro hLit
    apply hRounds.ge _ representable_leastLevel
    have hOne : (1 : ℚ) ≤ word.toNat := by
      exact_mod_cast Nat.pos_of_ne_zero hLit
    have hScale' : (n : ℚ) ≤ 255 := by exact_mod_cast hScale
    rw [le_div_iff₀ hDivisor]
    linarith
  · intro hDark
    rw [not_ne_iff] at hDark
    rw [hDark, Nat.cast_zero, zero_div] at hRounds
    exact hRounds.eq_of_representable
      (by rw [abs_zero]; exact representable_zero)

end Binary32

end PagedRaster
