import PagedRaster.Proofs.Binary32.Range

/-
  This file gives binary32 floats of either sign a rational
  value, and says what the operations do to it.  Rounding
  does not cross a representable number, so an operation is
  exact when its exact result is representable.

  Key definitions include:
    * `Binary32.RoundsTo`
    * `Binary32.Denotes`
    * `Binary32.HasValue`

  Key theorems include:
    * `Binary32.RoundsTo.eq_of_representable`
    * `Binary32.RoundsTo.near`
    * `Binary32.normalize_roundsTo`
    * `Binary32.HasValue.add`, `Binary32.HasValue.sub`
    * `Binary32.HasValue.mul`
    * `Binary32.HasValue.lt_iff`
    * `Binary32.hasValue_toFloat32`
    * `Binary32.HasValue.toNat_toUInt32`
    * `Binary32.HasValue.toInt_toInt32_of_nonneg`
    * `Binary32.HasValue.floorInt_eq`
    * `Binary32.HasValue.ceilInt_eq`
-/

namespace PagedRaster

namespace Binary32

open Float.Model (Format UnpackedFloat)
open Float.Model.UnpackedFloat

------------------------------------------------------------
-- Rounding of Either Sign
------------------------------------------------------------

/-
  No representable number of either sign lies between an
  exact value and what it is rounded to.
-/
structure RoundsTo
    (exact rounded : ℚ) : Prop where
  le :
    ∀ bound, Representable |bound| →
      exact ≤ bound → rounded ≤ bound
  ge :
    ∀ bound, Representable |bound| →
      bound ≤ exact → bound ≤ rounded

/- Zero is representable. -/
theorem representable_zero : Representable 0 :=
  ⟨0, 0, by decide, by decide, by simp⟩

/- A small count of units is representable. -/
theorem representable_abs_units
    {count : Int}
    (hSmall : |count| < 2 ^ 24)
    {unit : Int}
    (hUnit : -149 ≤ unit) :
    Representable |(count : ℚ) * 2 ^ unit| := by
  have hPos : (0 : ℚ) < 2 ^ unit := zpow_pos two_pos unit
  have hNat : count.natAbs < 2 ^ 24 := by
    rw [Int.abs_eq_natAbs] at hSmall
    exact_mod_cast hSmall
  refine ⟨count.natAbs, unit, hNat, hUnit, ?_⟩
  rw [abs_mul, abs_of_pos hPos, Nat.cast_natAbs,
    Int.cast_abs]

/- A small integer is representable. -/
theorem representable_abs_intCast
    {count : Int}
    (hSmall : |count| < 2 ^ 24) :
    Representable |(count : ℚ)| := by
  have hUnits :=
    representable_abs_units hSmall
      (by decide : (-149 : Int) ≤ 0)
  rwa [zpow_zero, mul_one] at hUnits

/- A value that is not negative is rounded to such a one. -/
theorem Rounds.roundsTo
    {exact rounded : ℚ}
    (hRounds : Rounds exact rounded)
    (hExact : 0 ≤ exact) :
    RoundsTo exact rounded where
  le bound hBound hLe := by
    rw [abs_of_nonneg (hExact.trans hLe)] at hBound
    exact hRounds.le bound hBound hLe
  ge bound hBound hLe := by
    rcases le_total 0 bound with hPos | hNeg
    · rw [abs_of_nonneg hPos] at hBound
      exact hRounds.ge bound hBound hLe
    · exact hNeg.trans
        (hRounds.ge 0 representable_zero hExact)

namespace RoundsTo

variable {exact rounded : ℚ}

/- Rounding is symmetric. -/
theorem neg
    (hRounds : RoundsTo exact rounded) :
    RoundsTo (-exact) (-rounded) where
  le bound hBound hLe := by
    rw [← abs_neg] at hBound
    have hGe := hRounds.ge (-bound) hBound (by linarith)
    linarith
  ge bound hBound hLe := by
    rw [← abs_neg] at hBound
    have hLe := hRounds.le (-bound) hBound (by linarith)
    linarith

/- What is representable is not moved. -/
theorem eq_of_representable
    (hRounds : RoundsTo exact rounded)
    (hExact : Representable |exact|) :
    rounded = exact :=
  le_antisymm (hRounds.le exact hExact (le_refl exact))
    (hRounds.ge exact hExact (le_refl exact))

/- Rounding keeps to a representable range. -/
theorem bounded
    (hRounds : RoundsTo exact rounded)
    {bound : ℚ}
    (hBound : Representable bound)
    (hPos : 0 ≤ bound)
    (hExact : |exact| ≤ bound) :
    |rounded| ≤ bound := by
  rw [abs_le] at hExact ⊢
  constructor
  · apply hRounds.ge _ _ hExact.1
    rwa [abs_neg, abs_of_nonneg hPos]
  · apply hRounds.le _ _ hExact.2
    rwa [abs_of_nonneg hPos]

/- A value that is not negative stays so. -/
theorem nonneg
    (hRounds : RoundsTo exact rounded)
    (hExact : 0 ≤ exact) :
    0 ≤ rounded :=
  hRounds.ge 0 (by rw [abs_zero]; exact representable_zero)
    hExact

/- Rounding moves a number by a unit at most. -/
theorem near
    (hRounds : RoundsTo exact rounded)
    {unit : Int}
    (hUnit : -149 ≤ unit)
    (hExact : 0 ≤ exact)
    (hSmall : exact + 2 ^ unit < 2 ^ 24 * 2 ^ unit) :
    |rounded - exact| ≤ 2 ^ unit := by
  have hPlace : (0 : ℚ) < 2 ^ unit := zpow_pos two_pos unit
  -- The number lies between two neighbouring counts.
  obtain ⟨count, hCount⟩ :
      ∃ count : Int, count = ⌊exact / 2 ^ unit⌋ :=
    ⟨_, rfl⟩
  have hLow : (count : ℚ) * 2 ^ unit ≤ exact := by
    rw [← le_div_iff₀ hPlace, hCount]
    exact Int.floor_le _
  have hHigh : exact ≤ (count + 1 : Int) * 2 ^ unit := by
    rw [← div_le_iff₀ hPlace, hCount]
    push_cast
    exact (Int.lt_floor_add_one _).le
  have hNonneg : 0 ≤ count := by
    rw [hCount]
    exact Int.floor_nonneg.mpr (div_nonneg hExact hPlace.le)
  have hFits : count + 1 < 2 ^ 24 := by
    have hLt :
        ((count + 1 : Int) : ℚ) * 2 ^ unit <
          2 ^ 24 * 2 ^ unit := by
      push_cast
      linarith
    exact_mod_cast lt_of_mul_lt_mul_right hLt hPlace.le
  have hFloor :=
    hRounds.ge _
      (representable_abs_units
        (abs_lt.mpr ⟨by omega, by omega⟩) hUnit) hLow
  have hCeil :=
    hRounds.le _
      (representable_abs_units
        (abs_lt.mpr ⟨by omega, by omega⟩) hUnit) hHigh
  push_cast at hHigh hCeil
  rw [abs_le]
  constructor <;> linarith

end RoundsTo

------------------------------------------------------------
-- Values of Either Sign
------------------------------------------------------------

/- A value with a sign. -/
def signed
    (sign : Sign)
    (value : ℚ) : ℚ :=
  match sign with
  | .negative => -value
  | .positive => value

/- A sign does not change the size. -/
theorem abs_signed
    (sign : Sign)
    (value : ℚ) :
    |signed sign value| = |value| := by
  cases sign with
  | negative => exact abs_neg value
  | positive => rfl

/- Signs of factors make up the sign of the product. -/
theorem signed_mul
    (sign sign' : Sign)
    (p q : ℚ) :
    signed sign p * signed sign' q =
      signed (sign * sign') (p * q) := by
  cases sign with
  | negative =>
      cases sign' with
      | negative => exact neg_mul_neg p q
      | positive => exact neg_mul p q
  | positive =>
      cases sign' with
      | negative => exact mul_neg p q
      | positive => rfl

/- An integer number of units with a sign. -/
theorem cast_apply_mul
    (sign : Sign)
    (count : Nat)
    (unit : ℚ) :
    ((sign.apply count : Int) : ℚ) * unit =
      signed sign (count * unit) := by
  cases sign with
  | negative =>
      change ((-(count : Int) : Int) : ℚ) * unit =
        -(count * unit)
      push_cast
      ring
  | positive =>
      change (((count : Int) : Int) : ℚ) * unit =
        count * unit
      push_cast
      ring

/- An unpacked float in canonical form with a value. -/
inductive Denotes
    (value : ℚ) : UnpackedFloat → Prop
  | zero
      (sign : Sign)
      (value_eq : value = 0) :
      Denotes value (.zero sign)
  | finite
      (sign : Sign)
      (mantissa : Nat)
      (exponent : Int)
      (pos : 0 < mantissa)
      (below : mantissa < 2 ^ 24)
      (least : -149 ≤ exponent)
      (canonical :
        2 ^ 23 ≤ mantissa ∨ exponent = -149)
      (value_eq :
        value = signed sign (mantissa * 2 ^ exponent)) :
      Denotes value (.finite sign mantissa exponent pos)

/- A value that is not negative has either form. -/
theorem Holds.denotes
    {value : ℚ}
    {unpacked : UnpackedFloat}
    (hHolds : Holds value unpacked) :
    Denotes value unpacked := by
  cases hHolds with
  | zero sign value_eq => exact Denotes.zero sign value_eq
  | finite mantissa exponent pos below least canonical
      value_eq =>
      exact Denotes.finite .positive mantissa exponent pos
        below least canonical value_eq

namespace Denotes

variable {value : ℚ}
variable {unpacked : UnpackedFloat}

/- A value that is not negative has the form of such. -/
theorem holds
    (hDenotes : Denotes value unpacked)
    (hValue : 0 ≤ value) :
    Holds value unpacked := by
  cases hDenotes with
  | zero sign value_eq => exact Holds.zero sign value_eq
  | finite sign mantissa exponent pos below least canonical
      value_eq =>
      cases sign with
      | positive =>
          exact Holds.finite mantissa exponent pos below
            least canonical value_eq
      | negative =>
          have hPos : (0 : ℚ) < mantissa * 2 ^ exponent := by
            positivity
          have hNegative :
              value = -(mantissa * 2 ^ exponent) :=
            value_eq
          linarith

/- The negative of a float has the negative value. -/
theorem neg
    (hDenotes : Denotes value unpacked) :
    Denotes (-value) unpacked.neg := by
  cases hDenotes with
  | zero sign value_eq =>
      exact Denotes.zero _ (by rw [value_eq, neg_zero])
  | finite sign mantissa exponent pos below least canonical
      value_eq =>
      refine Denotes.finite _ mantissa exponent pos below
        least canonical ?_
      rw [value_eq]
      cases sign with
      | negative => exact neg_neg _
      | positive => rfl

/- A value that does not overflow is packed without loss. -/
theorem unpack_pack
    (hDenotes : Denotes value unpacked)
    (hFinite : |value| < 2 ^ 128) :
    unpack Format.binary32
        (pack Format.binary32 unpacked) =
      unpacked := by
  cases hDenotes with
  | zero sign value_eq => exact unpack_packedZero
  | finite sign mantissa exponent pos below least canonical
      value_eq =>
      have hPos : (0 : ℚ) < mantissa * 2 ^ exponent := by
        positivity
      rw [value_eq, abs_signed, abs_of_pos hPos] at hFinite
      exact unpack_pack_finite sign pos below least
        canonical hFinite

/- A value that is in canonical form is representable. -/
theorem representable
    (hDenotes : Denotes value unpacked) :
    Representable |value| := by
  cases hDenotes with
  | zero sign value_eq =>
      rw [value_eq, abs_zero]
      exact representable_zero
  | finite sign mantissa exponent pos below least canonical
      value_eq =>
      have hPos : (0 : ℚ) < mantissa * 2 ^ exponent := by
        positivity
      rw [value_eq, abs_signed, abs_of_pos hPos]
      exact ⟨mantissa, exponent, below, least, rfl⟩

end Denotes

------------------------------------------------------------
-- Rounded Operations
------------------------------------------------------------

/- A rounded result that has a sign. -/
theorem denotes_of_rounds
    (result : Sign → UnpackedFloat)
    {exact rounded : ℚ}
    (hNegative :
      result .negative = (result .positive).neg)
    (hExact : 0 ≤ exact)
    (hRounds : Rounds exact rounded)
    (hHolds : Holds rounded (result .positive))
    (sign : Sign) :
    ∃ value,
      RoundsTo (signed sign exact) value ∧
        Denotes value (result sign) := by
  cases sign with
  | negative =>
      refine ⟨-rounded, (hRounds.roundsTo hExact).neg, ?_⟩
      rw [hNegative]
      exact hHolds.denotes.neg
  | positive =>
      exact ⟨rounded, hRounds.roundsTo hExact,
        hHolds.denotes⟩

/- Rounding treats both signs alike. -/
theorem roundWithAccuracy_negative
    (mantissa : Nat)
    (exponent : Int)
    (accuracy : Accuracy) :
    roundWithAccuracy Format.binary32 .negative mantissa
        exponent accuracy =
      (roundWithAccuracy Format.binary32 .positive mantissa
        exponent accuracy).neg := by
  unfold roundWithAccuracy
  dsimp only
  split
  · rfl
  · rfl

/- A sum of small units is rounded. -/
theorem normalize_roundsTo
    (count : Int)
    (unit : Int) :
    ∃ rounded,
      RoundsTo (count * 2 ^ unit) rounded ∧
        Denotes rounded
          (UnpackedFloat.normalize Format.binary32 count
            unit .positive) := by
  have hUnit : (0 : ℚ) < 2 ^ unit := zpow_pos two_pos unit
  have hRound
      {size : Nat}
      (hSize : 0 < size)
      (sign : Sign) :
      ∃ rounded,
        RoundsTo (signed sign (size * 2 ^ unit)) rounded ∧
          Denotes rounded
            (UnpackedFloat.round Format.binary32 sign size
              unit) := by
    rcases round_rounds unit hSize with
      ⟨rounded, hRounds, hHolds⟩
    refine denotes_of_rounds
      (fun sign =>
        UnpackedFloat.round Format.binary32 sign size unit)
      ?_ (by positivity) hRounds hHolds sign
    exact roundWithAccuracy_negative _ _ _
  rcases lt_trichotomy count 0 with hNeg | rfl | hPos
  · have hCompare : compare count 0 = .lt :=
      compare_lt_iff_lt.mpr hNeg
    have hSize : 0 < (-count).toNat := by omega
    have hValue :
        signed .negative ((-count).toNat * 2 ^ unit) =
          count * 2 ^ unit := by
      rw [← cast_apply_mul]
      congr 2
      change -((-count).toNat : Int) = count
      omega
    have hRounded := hRound hSize .negative
    rw [hValue] at hRounded
    unfold UnpackedFloat.normalize
    rw [hCompare]
    exact hRounded
  · refine ⟨0, ?_, Denotes.zero .positive rfl⟩
    rw [Int.cast_zero, zero_mul]
    exact (rounds_self 0).roundsTo (le_refl 0)
  · have hCompare : compare count 0 = .gt :=
      compare_gt_iff_gt.mpr hPos
    have hSize : 0 < count.toNat := by omega
    have hValue :
        signed .positive (count.toNat * 2 ^ unit) =
          count * 2 ^ unit := by
      rw [← cast_apply_mul]
      congr 2
      exact Int.toNat_of_nonneg hPos.le
    have hRounded := hRound hSize .positive
    rw [hValue] at hRounded
    unfold UnpackedFloat.normalize
    rw [hCompare]
    exact hRounded

/- Rounding may leave a value of either sign as it is. -/
theorem roundsTo_self
    (value : ℚ) :
    RoundsTo value value where
  le _ _ hExact := hExact
  ge _ _ hExact := hExact

namespace Denotes

variable {first second : UnpackedFloat}
variable {p q : ℚ}

/- A sum of two values of either sign is rounded. -/
theorem add
    (hFirst : Denotes p first)
    (hSecond : Denotes q second) :
    ∃ rounded,
      RoundsTo (p + q) rounded ∧
        Denotes rounded
          (UnpackedFloat.add Format.binary32 first
            second) := by
  cases hFirst with
  | zero sign hZero =>
      refine ⟨p + q, roundsTo_self _, ?_⟩
      rw [hZero, zero_add]
      cases hSecond with
      | zero sign' hZero' =>
          rw [UnpackedFloat.add]
          split
          · exact Denotes.zero _ hZero'
          · exact Denotes.zero _ hZero'
      | finite sign' mantissa' exponent' pos' below' least'
          canonical' hValue' =>
          exact Denotes.finite _ _ _ pos' below' least'
            canonical' hValue'
  | finite sign mantissa exponent pos below least canonical
      hValue =>
      cases hSecond with
      | zero sign' hZero' =>
          refine ⟨p + q, roundsTo_self _, ?_⟩
          rw [hZero', add_zero]
          exact Denotes.finite _ _ _ pos below least
            canonical hValue
      | finite sign' mantissa' exponent' pos' below' least'
          canonical' hValue' =>
          -- Both numbers are taken in the smaller unit.
          let lesser := min exponent exponent'
          let first := mantissa <<< (exponent - lesser).toNat
          let second :=
            mantissa' <<< (exponent' - lesser).toNat
          have hFirst :
              ((sign.apply first : Int) : ℚ) * 2 ^ lesser =
                p := by
            rw [cast_apply_mul, hValue,
              value_shiftLeft mantissa (min_le_left _ _)]
          have hSecond :
              ((sign'.apply second : Int) : ℚ) *
                  2 ^ lesser =
                q := by
            rw [cast_apply_mul, hValue',
              value_shiftLeft mantissa' (min_le_right _ _)]
          have hSum :
              ((sign.apply first + sign'.apply second :
                  Int) : ℚ) * 2 ^ lesser =
                p + q := by
            rw [Int.cast_add, add_mul, hFirst, hSecond]
          rw [← hSum]
          exact normalize_roundsTo _ lesser

/- A difference is a sum with the negative. -/
theorem sub
    (hFirst : Denotes p first)
    (hSecond : Denotes q second) :
    ∃ rounded,
      RoundsTo (p - q) rounded ∧
        Denotes rounded
          (UnpackedFloat.sub Format.binary32 first
            second) := by
  have hSame :
      UnpackedFloat.sub Format.binary32 first second =
        UnpackedFloat.add Format.binary32 first
          second.neg := by
    cases hFirst with
    | zero => cases hSecond <;> rfl
    | finite =>
        cases hSecond with
        | zero => rfl
        | finite sign' =>
            unfold UnpackedFloat.sub UnpackedFloat.add
            dsimp only [UnpackedFloat.neg]
            rw [sub_eq_add_neg]
            congr 2
            cases sign' with
            | negative => exact neg_neg _
            | positive => rfl
  rw [hSame, sub_eq_add_neg]
  exact hFirst.add hSecond.neg

/- A product of two values of either sign is rounded. -/
theorem mul
    (hFirst : Denotes p first)
    (hSecond : Denotes q second) :
    ∃ rounded,
      RoundsTo (p * q) rounded ∧
        Denotes rounded
          (UnpackedFloat.mul Format.binary32 first
            second) := by
  cases hFirst with
  | zero sign hZero =>
      refine ⟨p * q, roundsTo_self _, ?_⟩
      rw [hZero, zero_mul]
      cases hSecond with
      | zero => exact Denotes.zero _ rfl
      | finite => exact Denotes.zero _ rfl
  | finite sign mantissa exponent pos below least canonical
      hValue =>
      cases hSecond with
      | zero sign' hZero' =>
          refine ⟨p * q, roundsTo_self _, ?_⟩
          rw [hZero', mul_zero]
          exact Denotes.zero _ rfl
      | finite sign' mantissa' exponent' pos' below' least'
          canonical' hValue' =>
          have hHolds :
              Holds (mantissa * 2 ^ exponent)
                (.finite .positive mantissa exponent pos) :=
            Holds.finite mantissa exponent pos below least
              canonical rfl
          have hHolds' :
              Holds (mantissa' * 2 ^ exponent')
                (.finite .positive mantissa' exponent'
                  pos') :=
            Holds.finite mantissa' exponent' pos' below'
              least' canonical' rfl
          rcases hHolds.mul hHolds' with
            ⟨rounded, hRounds, hRounded⟩
          rw [hValue, hValue', signed_mul]
          exact denotes_of_rounds
            (fun sign =>
              roundWithAccuracy Format.binary32 sign
                (mantissa * mantissa')
                (exponent + exponent') .exact)
            (roundWithAccuracy_negative _ _ _)
            (by positivity) hRounds hRounded (sign * sign')

end Denotes

------------------------------------------------------------
-- Comparison
------------------------------------------------------------

/- Numbers in canonical form are ordered by exponents. -/
theorem lt_of_exponent_lt
    {mantissa mantissa' : Nat}
    {exponent exponent' : Int}
    (hBelow : mantissa < 2 ^ 24)
    (hLeast : -149 ≤ exponent)
    (hCanonical :
      2 ^ 23 ≤ mantissa' ∨ exponent' = -149)
    (hLt : exponent < exponent') :
    (mantissa : ℚ) * 2 ^ exponent <
      mantissa' * 2 ^ exponent' := by
  have hNormal : 2 ^ 23 ≤ mantissa' :=
    hCanonical.resolve_right (by omega)
  have hPos : (0 : ℚ) < 2 ^ exponent :=
    zpow_pos two_pos exponent
  calc
    (mantissa : ℚ) * 2 ^ exponent <
        (2 ^ 24 : Nat) * 2 ^ exponent :=
      mul_lt_mul_of_pos_right (Nat.cast_lt.mpr hBelow) hPos
    _ = (2 ^ 23 : Nat) * 2 ^ (exponent + (1 : Nat)) := by
      rw [mul_two_pow_add, ← Nat.pow_add]
    _ ≤ (2 ^ 23 : Nat) * 2 ^ exponent' := by
      apply mul_le_mul_of_nonneg_left _ (Nat.cast_nonneg _)
      exact zpow_le_zpow_right₀ one_le_two (by omega)
    _ ≤ mantissa' * 2 ^ exponent' :=
      (units_le_iff _ _ exponent').mpr hNormal

/- So comparing the parts compares the numbers. -/
theorem compare_parts
    {mantissa mantissa' : Nat}
    {exponent exponent' : Int}
    (hBelow : mantissa < 2 ^ 24)
    (hBelow' : mantissa' < 2 ^ 24)
    (hLeast : -149 ≤ exponent)
    (hLeast' : -149 ≤ exponent')
    (hCanonical : 2 ^ 23 ≤ mantissa ∨ exponent = -149)
    (hCanonical' :
      2 ^ 23 ≤ mantissa' ∨ exponent' = -149) :
    (compare exponent exponent').then
        (compare mantissa mantissa') =
      compare ((mantissa : ℚ) * 2 ^ exponent)
        (mantissa' * 2 ^ exponent') := by
  rcases lt_trichotomy exponent exponent' with
    hLt | rfl | hGt
  · have hValue :=
      lt_of_exponent_lt hBelow hLeast hCanonical' hLt
    rw [compare_lt_iff_lt.mpr hLt,
      compare_lt_iff_lt.mpr hValue]
    rfl
  · have hPos : (0 : ℚ) < 2 ^ exponent :=
      zpow_pos two_pos exponent
    have hSame : compare exponent exponent = .eq :=
      compare_eq_iff_eq.mpr rfl
    rw [hSame]
    change compare mantissa mantissa' = _
    rcases lt_trichotomy mantissa mantissa' with
      hLt | rfl | hGt
    · rw [compare_lt_iff_lt.mpr hLt, eq_comm,
        compare_lt_iff_lt]
      exact mul_lt_mul_of_pos_right (Nat.cast_lt.mpr hLt)
        hPos
    · rw [compare_eq_iff_eq.mpr rfl, eq_comm,
        compare_eq_iff_eq]
    · rw [compare_gt_iff_gt.mpr hGt, eq_comm,
        compare_gt_iff_gt]
      exact mul_lt_mul_of_pos_right (Nat.cast_lt.mpr hGt)
        hPos
  · have hValue :=
      lt_of_exponent_lt hBelow' hLeast' hCanonical hGt
    rw [compare_gt_iff_gt.mpr hGt,
      compare_gt_iff_gt.mpr hValue]
    rfl

/- Negatives are ordered the other way. -/
theorem compare_neg_neg
    (p q : ℚ) :
    compare (-p) (-q) = (compare p q).swap := by
  rcases lt_trichotomy p q with hLt | rfl | hGt
  · rw [compare_lt_iff_lt.mpr hLt]
    exact compare_gt_iff_gt.mpr (neg_lt_neg hLt)
  · rw [compare_eq_iff_eq.mpr rfl, compare_eq_iff_eq.mpr rfl]
    rfl
  · rw [compare_gt_iff_gt.mpr hGt]
    exact compare_lt_iff_lt.mpr (neg_lt_neg hGt)

/- Floats compare as their values do. -/
theorem Denotes.compare_eq
    {first second : UnpackedFloat}
    {p q : ℚ}
    (hFirst : Denotes p first)
    (hSecond : Denotes q second) :
    first.compare second = some (compare p q) := by
  cases hFirst with
  | zero sign hZero =>
      cases hSecond with
      | zero sign' hZero' =>
          rw [hZero, hZero', compare_eq_iff_eq.mpr rfl]
          rfl
      | finite sign' mantissa' exponent' pos' below' least'
          canonical' hValue' =>
          have hPos' :
              (0 : ℚ) < mantissa' * 2 ^ exponent' := by
            positivity
          rw [hZero, hValue']
          cases sign' with
          | negative =>
              exact congrArg some
                (compare_gt_iff_gt.mpr
                  (neg_neg_of_pos hPos')).symm
          | positive =>
              exact congrArg some
                (compare_lt_iff_lt.mpr hPos').symm
  | finite sign mantissa exponent pos below least canonical
      hValue =>
      have hPos : (0 : ℚ) < mantissa * 2 ^ exponent := by
        positivity
      cases hSecond with
      | zero sign' hZero' =>
          rw [hZero', hValue]
          cases sign with
          | negative =>
              exact congrArg some
                (compare_lt_iff_lt.mpr
                  (neg_neg_of_pos hPos)).symm
          | positive =>
              exact congrArg some
                (compare_gt_iff_gt.mpr hPos).symm
      | finite sign' mantissa' exponent' pos' below' least'
          canonical' hValue' =>
          have hPos' :
              (0 : ℚ) < mantissa' * 2 ^ exponent' := by
            positivity
          have hParts :=
            compare_parts below below' least least'
              canonical canonical'
          rw [hValue, hValue']
          cases sign with
          | negative =>
              cases sign' with
              | negative =>
                  change
                    some ((compare exponent exponent').then
                      (compare mantissa mantissa')).swap =
                      some (compare (-_) (-_))
                  rw [hParts, compare_neg_neg]
              | positive =>
                  have hLt :=
                    (neg_neg_of_pos hPos).trans hPos'
                  exact congrArg some
                    (compare_lt_iff_lt.mpr hLt).symm
          | positive =>
              cases sign' with
              | negative =>
                  have hGt :=
                    (neg_neg_of_pos hPos').trans hPos
                  exact congrArg some
                    (compare_gt_iff_gt.mpr hGt).symm
              | positive => exact congrArg some hParts

------------------------------------------------------------
-- Values of Floats
------------------------------------------------------------

/- A float has a rational value. -/
def HasValue
    (x : Float32)
    (value : ℚ) : Prop :=
  Denotes value x.toModel.unpack

/- A rounded result that does not overflow has its value. -/
theorem hasValue_of_roundsTo
    {result : UnpackedFloat}
    {exact : ℚ}
    (hResult :
      ∃ rounded,
        RoundsTo exact rounded ∧ Denotes rounded result)
    (hRange : |exact| ≤ 2 ^ 127) :
    ∃ rounded,
      RoundsTo exact rounded ∧
        HasValue (.ofModel (.pack result)) rounded := by
  rcases hResult with ⟨rounded, hRounds, hDenotes⟩
  have hBound : Representable (2 ^ 127) := by
    refine ⟨2 ^ 23, 104, by decide, by decide, ?_⟩
    norm_num
  have hFinite : |rounded| < 2 ^ 128 :=
    (hRounds.bounded hBound (by positivity) hRange).trans_lt
      (by norm_num)
  have hSame :
      (Float32.ofModel (.pack result)).toModel.unpack =
        result :=
    hDenotes.unpack_pack hFinite
  refine ⟨rounded, hRounds, ?_⟩
  rw [HasValue, hSame]
  exact hDenotes

/- A representable result is exact. -/
theorem hasValue_of_representable
    {x : Float32}
    {exact : ℚ}
    (hResult :
      ∃ rounded,
        RoundsTo exact rounded ∧ HasValue x rounded)
    (hExact : Representable |exact|) :
    HasValue x exact := by
  rcases hResult with ⟨rounded, hRounds, hValue⟩
  rwa [hRounds.eq_of_representable hExact] at hValue

namespace HasValue

variable {x y : Float32}
variable {p q : ℚ}

/- The value of a sum. -/
theorem add
    (hX : HasValue x p)
    (hY : HasValue y q)
    (hRange : |p + q| ≤ 2 ^ 127) :
    ∃ rounded,
      RoundsTo (p + q) rounded ∧ HasValue (x + y) rounded :=
  hasValue_of_roundsTo (Denotes.add hX hY) hRange

/- The value of a difference. -/
theorem sub
    (hX : HasValue x p)
    (hY : HasValue y q)
    (hRange : |p - q| ≤ 2 ^ 127) :
    ∃ rounded,
      RoundsTo (p - q) rounded ∧ HasValue (x - y) rounded :=
  hasValue_of_roundsTo (Denotes.sub hX hY) hRange

/- The value of a product. -/
theorem mul
    (hX : HasValue x p)
    (hY : HasValue y q)
    (hRange : |p * q| ≤ 2 ^ 127) :
    ∃ rounded,
      RoundsTo (p * q) rounded ∧ HasValue (x * y) rounded :=
  hasValue_of_roundsTo (Denotes.mul hX hY) hRange

/- The values of floats are below the greatest power. -/
theorem abs_lt
    (hX : HasValue x p) :
    |p| < 2 ^ 128 := by
  unfold HasValue at hX
  generalize hUnpacked : x.toModel.unpack = unpacked at hX
  cases hX with
  | zero sign value_eq =>
      rw [value_eq, abs_zero]
      positivity
  | finite sign mantissa exponent pos below least canonical
      value_eq =>
      unfold Float32.Model.unpack at hUnpacked
      rw [unpack_eq_ofParts] at hUnpacked
      have hMost := (canonical_ofParts hUnpacked).2.1.2
      have hPlace : (0 : ℚ) < 2 ^ exponent :=
        zpow_pos two_pos exponent
      rw [value_eq, abs_signed, abs_of_pos (by positivity)]
      calc
        (mantissa : ℚ) * 2 ^ exponent <
            (2 ^ 24 : Nat) * 2 ^ exponent :=
          mul_lt_mul_of_pos_right (Nat.cast_lt.mpr below)
            hPlace
        _ ≤ (2 ^ 24 : Nat) * 2 ^ (104 : Int) := by
          apply mul_le_mul_of_nonneg_left _
            (Nat.cast_nonneg _)
          exact zpow_le_zpow_right₀ one_le_two hMost
        _ = 2 ^ 128 := by
          norm_num

/- The value of a negative. -/
theorem neg
    (hX : HasValue x p) :
    HasValue (-x) (-p) := by
  have hNegative : Denotes (-p) x.toModel.unpack.neg :=
    Denotes.neg hX
  have hSame :
      (-x).toModel.unpack = x.toModel.unpack.neg :=
    hNegative.unpack_pack (by rw [abs_neg]; exact hX.abs_lt)
  rw [HasValue, hSame]
  exact hNegative

/- Floats are ordered by their values. -/
theorem lt_iff
    (hX : HasValue x p)
    (hY : HasValue y q) :
    x < y ↔ p < q := by
  rw [Binary32.lt_iff, Denotes.compare_eq hX hY,
    Option.some.injEq, compare_lt_iff_lt]

/- Floats are equal if their values are. -/
theorem beq_iff
    (hX : HasValue x p)
    (hY : HasValue y q) :
    (x == y) = true ↔ p = q := by
  have hBeq :
      (x == y) =
        (x.toModel.unpack.compare y.toModel.unpack ==
          some .eq) :=
    rfl
  rw [hBeq, beq_iff_eq, Denotes.compare_eq hX hY,
    Option.some.injEq, compare_eq_iff_eq]

/- A float with a value is finite. -/
theorem isFinite
    (hX : HasValue x p) :
    x.isFinite = true := by
  change x.toModel.unpack.isFinite = true
  unfold HasValue at hX
  generalize x.toModel.unpack = unpacked at hX
  cases hX with
  | zero => rfl
  | finite => rfl

/- A float with a value is a number. -/
theorem isNaN
    (hX : HasValue x p) :
    x.isNaN = false := by
  change x.toModel.unpack.isNaN = false
  unfold HasValue at hX
  generalize x.toModel.unpack = unpacked at hX
  cases hX with
  | zero => rfl
  | finite => rfl

/- The smaller of two floats has the smaller value. -/
theorem least
    (hX : HasValue x p)
    (hY : HasValue y q) :
    HasValue (Binary32.least x y) (min p q) := by
  unfold Binary32.least
  rw [hX.isNaN, if_neg Bool.false_ne_true]
  split
  · rename_i hLt
    rw [hY.lt_iff hX] at hLt
    rwa [min_eq_right hLt.le]
  · rename_i hNotLt
    rw [hY.lt_iff hX, not_lt] at hNotLt
    rwa [min_eq_left hNotLt]

/- The larger of two floats has the larger value. -/
theorem greatest
    (hX : HasValue x p)
    (hY : HasValue y q) :
    HasValue (Binary32.greatest x y) (max p q) := by
  unfold Binary32.greatest
  rw [hX.isNaN, if_neg Bool.false_ne_true]
  split
  · rename_i hLt
    rw [hX.lt_iff hY] at hLt
    rwa [max_eq_right hLt.le]
  · rename_i hNotLt
    rw [hX.lt_iff hY, not_lt] at hNotLt
    rwa [max_eq_left hNotLt]

end HasValue

/- Zero as a float. -/
theorem hasValue_zero : HasValue 0.0 0 :=
  Denotes.zero .positive rfl

/- One half as a float. -/
theorem hasValue_half : HasValue 0.5 (1 / 2) := by
  refine Denotes.finite .positive (2 ^ 23) (-24) (by decide)
    (by decide) (by decide) (by decide) ?_
  change (1 / 2 : ℚ) = (2 ^ 23 : Nat) * 2 ^ (-24 : Int)
  norm_num

/- One as a float. -/
theorem hasValue_one : HasValue 1.0 1 := by
  refine Denotes.finite .positive (2 ^ 23) (-23) (by decide)
    (by decide) (by decide) (by decide) ?_
  change (1 : ℚ) = (2 ^ 23 : Nat) * 2 ^ (-23 : Int)
  norm_num

/- The greatest byte as a float. -/
theorem hasValue_maxByte : HasValue 255.0 255 := by
  refine Denotes.finite .positive (255 * 2 ^ 16) (-16)
    (by decide) (by decide) (by decide) (by decide) ?_
  change (255 : ℚ) = (255 * 2 ^ 16 : Nat) * 2 ^ (-16 : Int)
  norm_num

/- A value that is not negative is cut down to one. -/
theorem HasValue.clampUnit
    {x : Float32}
    {p : ℚ}
    (hX : HasValue x p)
    (hPos : 0 ≤ p) :
    HasValue (Binary32.clampUnit x) (min p 1) := by
  unfold Binary32.clampUnit clamp
  rw [if_neg ((hX.lt_iff hasValue_zero).not.mpr
    (not_lt.mpr hPos))]
  split
  · rename_i hAbove
    rw [hasValue_one.lt_iff hX] at hAbove
    rw [min_eq_right hAbove.le]
    exact hasValue_one
  · rename_i hWithin
    rw [hasValue_one.lt_iff hX, not_lt] at hWithin
    rwa [min_eq_left hWithin]

/- What is in a range stays there when it is cut. -/
theorem Within.clampUnit
    {x : Float32}
    {bound : ℚ}
    (hX : Within x bound) :
    Within (Binary32.clampUnit x) bound := by
  rcases hX with hNone | ⟨value, hValue, hLe⟩
  · have hUnordered (y : Float32) : ¬x < y ∧ ¬y < x := by
      rw [lt_iff, lt_iff, hNone]
      cases y.toModel.unpack <;> simp [UnpackedFloat.compare]
    unfold Binary32.clampUnit clamp
    rw [if_neg (hUnordered _).1, if_neg (hUnordered _).2]
    exact Or.inl hNone
  · have hPos := hValue.nonneg
    have hX : HasValue x value := hValue.denotes
    exact Or.inr ⟨min value 1,
      Denotes.holds (hX.clampUnit hPos)
        (le_min hPos zero_le_one),
      (min_le_left _ _).trans hLe⟩

/- Whatever is multiplied by zero is zero or no number. -/
theorem HasValue.within_mul_zero
    {x : Float32}
    (hX : HasValue x 0)
    (weight : Float32) :
    Within (weight * x) 0 := by
  have hProduct :
      weight * x =
        .ofModel (.pack
          (UnpackedFloat.mul Format.binary32
            weight.toModel.unpack x.toModel.unpack)) :=
    rfl
  have hNone (sign : Sign) :
      Within (.ofModel (.pack (.zero sign))) 0 :=
    within_of_rounds (Holds.zero sign rfl) (rounds_self 0)
      (le_refl 0) representable_zero (by norm_num)
  rw [hProduct]
  unfold HasValue at hX
  generalize x.toModel.unpack = factor at hX
  cases hX with
  | zero sign =>
      cases weight.toModel.unpack with
      | notANumber => exact within_of_notANumber rfl 0
      | infinity => exact within_of_notANumber rfl 0
      | zero => exact hNone _
      | finite => exact hNone _
  | finite sign mantissa exponent pos below least canonical
      value_eq =>
      have hPos : (0 : ℚ) < mantissa * 2 ^ exponent := by
        positivity
      cases sign with
      | negative =>
          have hNeg : (0 : ℚ) = -(mantissa * 2 ^ exponent) :=
            value_eq
          linarith
      | positive => exact absurd value_eq hPos.ne

------------------------------------------------------------
-- Integers
------------------------------------------------------------

/- A small word is converted without loss. -/
theorem hasValue_toFloat32
    {n : UInt32}
    (hSmall : n.toNat < 2 ^ 24) :
    HasValue n.toFloat32 n.toNat := by
  have hCount : |(n.toNat : Int)| < 2 ^ 24 := by
    rw [abs_of_nonneg (Int.natCast_nonneg _)]
    exact_mod_cast hSmall
  have hExact :
      ((n.toNat : Int) : ℚ) * 2 ^ (0 : Int) = n.toNat := by
    rw [zpow_zero, mul_one, Int.cast_natCast]
  have hFits := representable_abs_intCast hCount
  rw [Int.cast_natCast] at hFits
  have hRange : |(n.toNat : ℚ)| ≤ 2 ^ 127 := by
    have hLt : (n.toNat : ℚ) < 2 ^ 24 := by
      exact_mod_cast hSmall
    rw [abs_of_nonneg (Nat.cast_nonneg _)]
    linarith
  have hRounded := normalize_roundsTo (n.toNat : Int) 0
  rw [hExact] at hRounded
  exact hasValue_of_representable
    (hasValue_of_roundsTo hRounded hRange) hFits

/- A number of units is cut to its whole part. -/
theorem roundToInt_positive
    (mantissa : Nat)
    (exponent : Int) :
    roundToInt .positive mantissa exponent =
      (⌊(mantissa : ℚ) * 2 ^ exponent⌋₊ : Nat) := by
  -- The mantissa is shifted up or down to units of one.
  let up := (exponent - 0).toNat
  let least := exponent - up
  let down := (0 - least).toNat
  have hUnits : exponent = up - down := by omega
  have hQuotient :
      (mantissa : ℚ) * 2 ^ exponent =
        (mantissa * 2 ^ up : Nat) / (2 ^ down : Nat) := by
    rw [hUnits, zpow_sub₀ two_ne_zero, zpow_natCast,
      zpow_natCast]
    push_cast
    ring
  have hShifted :=
    shiftedBy_shiftRight (mantissa <<< up) down
  rw [hQuotient, Nat.floor_div_eq_div, ← Nat.shiftLeft_eq]
  exact congrArg Int.ofNat hShifted.mantissa

namespace HasValue

variable {x : Float32}
variable {p : ℚ}

/-
  A value is cut to its whole part, or to the greatest word
  if that is smaller.
-/
theorem toNat_toUInt32_eq_min
    (hX : HasValue x p)
    (hPos : 0 ≤ p) :
    x.toUInt32.toNat = min ⌊p⌋₊ (UInt32.size - 1) := by
  have hWord :
      x.toUInt32 =
        UInt32.ofNatClamp
          (toInt 0 (UInt32.size - 1)
            x.toModel.unpack).toNat :=
    rfl
  have hCut :
      toInt 0 (UInt32.size - 1) x.toModel.unpack = ⌊p⌋₊ := by
    have hHolds := Denotes.holds hX hPos
    generalize x.toModel.unpack = unpacked at hHolds
    cases hHolds with
    | zero sign value_eq =>
        rw [value_eq, Nat.floor_zero]
        rfl
    | finite mantissa exponent pos below least canonical
        value_eq =>
        rw [value_eq]
        exact roundToInt_positive mantissa exponent
  rw [hWord, hCut, Int.toNat_natCast, toNat_ofNatClamp]

/- A value in the word range is cut to its whole part. -/
theorem toNat_toUInt32
    (hX : HasValue x p)
    (hPos : 0 ≤ p)
    (hLt : p < 2 ^ 32) :
    x.toUInt32.toNat = ⌊p⌋₊ := by
  have hFits : ⌊p⌋₊ < UInt32.size := by
    rw [Nat.floor_lt hPos]
    exact hLt
  rw [hX.toNat_toUInt32_eq_min hPos]
  exact Nat.min_eq_left (Nat.le_sub_one_of_lt hFits)

/- As a signed word it stops at the greatest one of them. -/
theorem toInt_toInt32_of_nonneg
    (hX : HasValue x p)
    (hPos : 0 ≤ p) :
    (toInt32 x).toInt = min (⌊p⌋₊ : Int) (2 ^ 31 - 1) := by
  have hNotNegative : ¬x < 0.0 := by
    rw [hX.lt_iff hasValue_zero]
    exact not_lt.mpr hPos
  have hWord := hX.toNat_toUInt32_eq_min hPos
  have hSize : UInt32.size - 1 = 4294967295 := rfl
  have hNat : x.toUInt32.toBitVec.toNat = x.toUInt32.toNat :=
    rfl
  unfold toInt32
  rw [if_neg hNotNegative]
  dsimp only
  split
  · rename_i hSmall
    have hSmall : x.toUInt32.toNat < 2147483648 :=
      UInt32.lt_iff_toNat_lt.mp hSmall
    change x.toUInt32.toBitVec.toInt = _
    rw [BitVec.toInt_eq_toNat_of_lt (by omega), hNat]
    omega
  · rename_i hLarge
    have hLarge : ¬x.toUInt32.toNat < 2147483648 :=
      fun hSmall => hLarge (UInt32.lt_iff_toNat_lt.mpr hSmall)
    have hMost : Int32.maxValue.toInt = 2147483647 := rfl
    omega

/- Below that it is the whole part. -/
theorem toInt_toInt32
    (hX : HasValue x p)
    (hPos : 0 ≤ p)
    (hLt : p < 2 ^ 31) :
    (toInt32 x).toInt = ⌊p⌋₊ := by
  have hSmall : ⌊p⌋₊ < 2 ^ 31 := by
    rw [Nat.floor_lt hPos]
    exact_mod_cast hLt
  rw [hX.toInt_toInt32_of_nonneg hPos]
  exact min_eq_left (by omega)

/- The whole part of a small value is a float again. -/
theorem ofInt32_toInt32
    (hX : HasValue x p)
    (hPos : 0 ≤ p)
    (hLt : p < 2 ^ 24) :
    HasValue (ofInt32 (toInt32 x)) ⌊p⌋₊ := by
  have hWhole :=
    hX.toInt_toInt32 hPos (hLt.trans (by norm_num))
  have hSmall : ⌊p⌋₊ < 2 ^ 24 := by
    rw [Nat.floor_lt hPos]
    exact_mod_cast hLt
  have hNotNegative : ¬toInt32 x < 0 := by
    rw [Int32.lt_iff_toInt_lt, hWhole]
    exact Int.not_lt.mpr (Int.natCast_nonneg _)
  have hNat : (toInt32 x).toUInt32.toNat = ⌊p⌋₊ := by
    have hBits :
        ((toInt32 x).toUInt32.toNat : Int).bmod (2 ^ 32) =
          (toInt32 x).toInt :=
      (BitVec.toInt_eq_toNat_bmod (toInt32 x).toBitVec).symm
    have hWord := (toInt32 x).toUInt32.toNat_lt
    rw [hWhole, Int.bmod_def] at hBits
    omega
  unfold ofInt32
  rw [if_neg hNotNegative, ← hNat]
  rw [← hNat] at hSmall
  exact hasValue_toFloat32 hSmall

/- The greatest integer below a small value. -/
theorem floorInt_eq
    (hX : HasValue x p)
    (hPos : 0 ≤ p)
    (hLt : p < 2 ^ 24) :
    floorInt x = ⌊p⌋₊ := by
  have hNotBelow : ¬x < ofInt32 (toInt32 x) := by
    rw [hX.lt_iff (hX.ofInt32_toInt32 hPos hLt)]
    exact not_lt.mpr (Nat.floor_le hPos)
  unfold floorInt
  dsimp only
  rw [if_neg hNotBelow]
  exact hX.toInt_toInt32 hPos (hLt.trans (by norm_num))

/- The smallest integer above a small value. -/
theorem ceilInt_eq
    (hX : HasValue x p)
    (hPos : 0 ≤ p)
    (hLt : p < 2 ^ 24) :
    ceilInt x = ⌈p⌉₊ := by
  have hWhole :=
    hX.toInt_toInt32 hPos (hLt.trans (by norm_num))
  have hCompare :
      ofInt32 (toInt32 x) < x ↔ (⌊p⌋₊ : ℚ) < p :=
    (hX.ofInt32_toInt32 hPos hLt).lt_iff hX
  unfold ceilInt
  dsimp only
  rw [hWhole]
  split
  · rename_i hAbove
    rw [hCompare, ← Nat.lt_ceil] at hAbove
    have hCeil := Nat.ceil_le_floor_add_one p
    omega
  · rename_i hSame
    rw [hCompare, not_lt, ← Nat.ceil_le] at hSame
    have hFloor := Nat.floor_le_ceil p
    omega

end HasValue

end Binary32

end PagedRaster
