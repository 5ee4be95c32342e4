import PagedRaster.Binary32
import PagedRaster.Proofs.Binary32.Rounding

/-
  This file keeps binary32 results in a range.  A float that
  is no number, or lies between zero and a bound, leads to
  such floats again when it is multiplied, added or cut to
  an integer, because rounding does not cross a bound that
  is representable.

  Key definitions include:
    * `Binary32.Within`

  Key theorems include:
    * `Binary32.Holds.mul`
    * `Binary32.Holds.add`
    * `Binary32.within_of_operation`
    * `Binary32.Within.mul`
    * `Binary32.Within.add`
    * `Binary32.within_clampUnit`
    * `Binary32.Within.toNat_toUInt32_le`
-/

namespace PagedRaster

namespace Binary32

open Float.Model (Format UnpackedFloat)
open Float.Model.UnpackedFloat

------------------------------------------------------------
-- Rounded Operations
------------------------------------------------------------

/- Rounding may leave a value as it is. -/
theorem rounds_self
    (value : ℚ) :
    Rounds value value where
  le _ _ hExact := hExact
  ge _ _ hExact := hExact

/- The unit of a product is no smaller than it is given in. -/
theorem exponent_le_unitOf_mul
    {mantissa mantissa' : Nat}
    {exponent exponent' : Int}
    (hPos : 0 < mantissa)
    (hPos' : 0 < mantissa')
    (hCanonical : 2 ^ 23 ≤ mantissa ∨ exponent = -149)
    (hCanonical' :
      2 ^ 23 ≤ mantissa' ∨ exponent' = -149) :
    exponent + exponent' ≤
      unitOf (mantissa * mantissa')
        (exponent + exponent') := by
  have hProduct : mantissa * mantissa' ≠ 0 := by
    positivity
  have hLarge :
      23 ≤ (mantissa * mantissa').log2 ∨
        (exponent = -149 ∧ exponent' = -149) := by
    rcases hCanonical with hNormal | hLeast
    · left
      rw [Nat.le_log2 hProduct]
      exact hNormal.trans (Nat.le_mul_of_pos_right _ hPos')
    · rcases hCanonical' with hNormal | hLeast'
      · left
        rw [Nat.le_log2 hProduct]
        exact hNormal.trans (Nat.le_mul_of_pos_left _ hPos)
      · exact Or.inr ⟨hLeast, hLeast'⟩
  unfold unitOf
  omega

/- A product of two values is rounded. -/
theorem Holds.mul
    {first second : UnpackedFloat}
    {p q : ℚ}
    (hFirst : Holds p first)
    (hSecond : Holds q second) :
    ∃ rounded,
      Rounds (p * q) rounded ∧
        Holds rounded
          (UnpackedFloat.mul Format.binary32 first
            second) := by
  cases hFirst with
  | zero sign hZero =>
      refine ⟨p * q, rounds_self _, ?_⟩
      rw [hZero, zero_mul]
      cases hSecond with
      | zero => exact Holds.zero _ rfl
      | finite => exact Holds.zero _ rfl
  | finite mantissa exponent pos below least canonical
      hValue =>
      cases hSecond with
      | zero sign hZero =>
          refine ⟨p * q, rounds_self _, ?_⟩
          rw [hZero, mul_zero]
          exact Holds.zero _ rfl
      | finite mantissa' exponent' pos' below' least'
          canonical' hValue' =>
          have hUnit :=
            exponent_le_unitOf_mul pos pos' canonical
              canonical'
          have hProduct :
              ((mantissa * mantissa' : Nat) : ℚ) *
                  2 ^ (exponent + exponent') =
                p * q := by
            rw [hValue, hValue', zpow_add₀ two_ne_zero]
            push_cast
            ring
          rw [← hProduct]
          exact roundWithAccuracy_exact
            (Nat.mul_pos pos pos') hUnit

/- A number in a smaller unit. -/
theorem value_shiftLeft
    (mantissa : Nat)
    {exponent lesser : Int}
    (hLesser : lesser ≤ exponent) :
    ((mantissa <<< (exponent - lesser).toNat : Nat) : ℚ) *
        2 ^ lesser =
      mantissa * 2 ^ exponent := by
  rw [Nat.shiftLeft_eq, ← mul_two_pow_add,
    Int.toNat_of_nonneg (Int.sub_nonneg_of_le hLesser),
    add_sub_cancel]

/- A positive number is rounded as it is. -/
theorem normalize_of_pos
    {mantissa : Nat}
    (exponent : Int)
    (zeroSign : Sign)
    (hPos : 0 < mantissa) :
    UnpackedFloat.normalize Format.binary32 mantissa
        exponent zeroSign =
      UnpackedFloat.round Format.binary32 .positive mantissa
        exponent := by
  have hCompare : compare (mantissa : Int) 0 = .gt :=
    compare_gt_iff_gt.mpr (Int.natCast_pos.mpr hPos)
  unfold UnpackedFloat.normalize
  rw [hCompare]
  rfl

/- A sum of two values is rounded. -/
theorem Holds.add
    {first second : UnpackedFloat}
    {p q : ℚ}
    (hFirst : Holds p first)
    (hSecond : Holds q second) :
    ∃ rounded,
      Rounds (p + q) rounded ∧
        Holds rounded
          (UnpackedFloat.add Format.binary32 first
            second) := by
  cases hFirst with
  | zero sign hZero =>
      refine ⟨p + q, rounds_self _, ?_⟩
      rw [hZero, zero_add]
      cases hSecond with
      | zero sign' hZero' =>
          rw [UnpackedFloat.add]
          split
          · exact Holds.zero _ hZero'
          · exact Holds.zero _ hZero'
      | finite mantissa' exponent' pos' below' least'
          canonical' hValue' =>
          exact Holds.finite _ _ pos' below' least'
            canonical' hValue'
  | finite mantissa exponent pos below least canonical
      hValue =>
      cases hSecond with
      | zero sign hZero =>
          refine ⟨p + q, rounds_self _, ?_⟩
          rw [hZero, add_zero]
          exact Holds.finite _ _ pos below least canonical
            hValue
      | finite mantissa' exponent' pos' below' least'
          canonical' hValue' =>
          -- Both numbers are taken in the smaller unit.
          let lesser := min exponent exponent'
          let first := mantissa <<< (exponent - lesser).toNat
          let second :=
            mantissa' <<< (exponent' - lesser).toNat
          have hFirst :
              (first : ℚ) * 2 ^ lesser = p :=
            (value_shiftLeft mantissa
              (min_le_left _ _)).trans hValue.symm
          have hSecond :
              (second : ℚ) * 2 ^ lesser = q :=
            (value_shiftLeft mantissa'
              (min_le_right _ _)).trans hValue'.symm
          have hSum :
              ((first + second : Nat) : ℚ) * 2 ^ lesser =
                p + q := by
            rw [Nat.cast_add, add_mul, hFirst, hSecond]
          have hPos : 0 < first + second := by
            apply Nat.add_pos_left
            simp only [first, Nat.shiftLeft_eq]
            positivity
          rw [← hSum]
          have hRound := round_rounds lesser hPos
          rwa [← normalize_of_pos lesser .positive hPos]
            at hRound

------------------------------------------------------------
-- Ranges
------------------------------------------------------------

/- A float is no number, or between zero and a bound. -/
def Within
    (x : Float32)
    (bound : ℚ) : Prop :=
  x.toModel.unpack = .notANumber ∨
    ∃ value, Holds value x.toModel.unpack ∧ value ≤ bound

/- A result in range stays there when it is packed. -/
theorem within_of_rounds
    {result : UnpackedFloat}
    {exact rounded bound : ℚ}
    (hHolds : Holds rounded result)
    (hRounds : Rounds exact rounded)
    (hExact : exact ≤ bound)
    (hBound : Representable bound)
    (hFinite : bound < 2 ^ 128) :
    Within (.ofModel (.pack result)) bound := by
  have hLe : rounded ≤ bound :=
    hRounds.le bound hBound hExact
  refine Or.inr ⟨rounded, ?_, hLe⟩
  have hSame := hHolds.unpack_pack (hLe.trans_lt hFinite)
  have hUnpacked :
      (Float32.ofModel (.pack result)).toModel.unpack =
        result :=
    hSame
  rw [hUnpacked]
  exact hHolds

/- No number is in every range. -/
theorem within_of_notANumber
    {result : UnpackedFloat}
    (hResult : result = .notANumber)
    (bound : ℚ) :
    Within (.ofModel (.pack result)) bound := by
  rw [hResult]
  exact Or.inl rfl

/- Values in range are not negative. -/
theorem Holds.nonneg
    {value : ℚ}
    {unpacked : UnpackedFloat}
    (hHolds : Holds value unpacked) :
    0 ≤ value := by
  cases hHolds with
  | zero sign value_eq => exact value_eq.ge
  | finite mantissa exponent pos below least canonical
      value_eq =>
      rw [value_eq]
      positivity

/-
  An operation on two floats in range stays in range, if it
  keeps what is no number, rounds its exact result, and the
  exact result does not pass the bound.
-/
theorem within_of_operation
    {operation :
      UnpackedFloat → UnpackedFloat → UnpackedFloat}
    {exact : ℚ → ℚ → ℚ}
    {x y : Float32}
    {p q bound : ℚ}
    (hX : Within x p)
    (hY : Within y q)
    (hLeft :
      ∀ second,
        operation .notANumber second = .notANumber)
    (hRight :
      ∀ first, operation first .notANumber = .notANumber)
    (hRounds :
      ∀ {first second p q},
        Holds p first → Holds q second →
          ∃ rounded,
            Rounds (exact p q) rounded ∧
              Holds rounded (operation first second))
    (hExact :
      ∀ p' q', 0 ≤ p' → 0 ≤ q' → p' ≤ p → q' ≤ q →
        exact p' q' ≤ bound)
    (hBound : Representable bound)
    (hFinite : bound < 2 ^ 128) :
    Within
      (.ofModel
        (.pack
          (operation x.toModel.unpack y.toModel.unpack)))
      bound := by
  rcases hX with hNone | ⟨p', hX, hP⟩
  · apply within_of_notANumber
    rw [hNone, hLeft]
  · rcases hY with hNone | ⟨q', hY, hQ⟩
    · apply within_of_notANumber
      rw [hNone, hRight]
    · rcases hRounds hX hY with ⟨rounded, hRounded, hHolds⟩
      exact within_of_rounds hHolds hRounded
        (hExact p' q' hX.nonneg hY.nonneg hP hQ) hBound
        hFinite

/- A product of two floats in range. -/
theorem Within.mul
    {x y : Float32}
    {p q bound : ℚ}
    (hX : Within x p)
    (hY : Within y q)
    (hLe : p * q ≤ bound)
    (hBound : Representable bound)
    (hFinite : bound < 2 ^ 128) :
    Within (x * y) bound := by
  apply within_of_operation hX hY _ _ Holds.mul _ hBound
    hFinite
  · intro second
    cases second <;> rfl
  · intro first
    cases first <;> rfl
  · intro p' q' hP' hQ' hP hQ
    have hProduct : p' * q' ≤ p * q :=
      mul_le_mul hP hQ hQ' (hP'.trans hP)
    exact hProduct.trans hLe

/- A sum of two floats in range. -/
theorem Within.add
    {x y : Float32}
    {p q bound : ℚ}
    (hX : Within x p)
    (hY : Within y q)
    (hLe : p + q ≤ bound)
    (hBound : Representable bound)
    (hFinite : bound < 2 ^ 128) :
    Within (x + y) bound := by
  apply within_of_operation hX hY _ _ Holds.add _ hBound
    hFinite
  · intro second
    cases second <;> rfl
  · intro first
    cases first <;> rfl
  · intro p' q' _ _ hP hQ
    exact (add_le_add hP hQ).trans hLe

------------------------------------------------------------
-- Integers
------------------------------------------------------------

/- A value that is cut to an integer does not grow. -/
theorem exists_roundToInt
    (mantissa : Nat)
    (exponent : Int) :
    ∃ whole : Nat,
      roundToInt .positive mantissa exponent = whole ∧
        (whole : ℚ) ≤ mantissa * 2 ^ exponent := by
  -- The mantissa is shifted up or down to units of one.
  let up := (exponent - 0).toNat
  let least := exponent - up
  let down := (0 - least).toNat
  let whole := mantissa <<< up / 2 ^ down
  refine ⟨whole, ?_, ?_⟩
  · have hShifted :=
      shiftedBy_shiftRight (mantissa <<< up) down
    exact congrArg Int.ofNat hShifted.mantissa
  · have hOne : least + down = 0 := by omega
    have hCut : whole * 2 ^ down ≤ mantissa * 2 ^ up := by
      have hFloor :=
        Nat.div_mul_le_self (mantissa <<< up) (2 ^ down)
      exact hFloor.trans (Nat.shiftLeft_eq _ _).le
    calc
      (whole : ℚ) = whole * 2 ^ (least + down) := by
        rw [hOne, zpow_zero, mul_one]
      _ = (whole * 2 ^ down : Nat) * 2 ^ least :=
        mul_two_pow_add _ _ _
      _ ≤ (mantissa * 2 ^ up : Nat) * 2 ^ least :=
        (units_le_iff _ _ _).mpr hCut
      _ = mantissa * 2 ^ (least + up) :=
        (mul_two_pow_add _ _ _).symm
      _ = mantissa * 2 ^ exponent := by
        rw [Int.sub_add_cancel]

/- A clamped word stops at the greatest one. -/
theorem toNat_ofNatClamp
    (n : Nat) :
    (UInt32.ofNatClamp n).toNat =
      min n (UInt32.size - 1) := by
  unfold UInt32.ofNatClamp
  split
  · rename_i hFits
    exact (Nat.min_eq_left (Nat.le_sub_one_of_lt hFits)).symm
  · rename_i hLarge
    have hMost : UInt32.size - 1 ≤ n :=
      (Nat.sub_le _ _).trans (Nat.le_of_not_lt hLarge)
    exact (Nat.min_eq_right hMost).symm

/- A float in range is cut to an integer in range. -/
theorem Within.toNat_toUInt32_le
    {x : Float32}
    {bound : ℚ}
    {most : Nat}
    (hX : Within x bound)
    (hMost : bound < most + 1) :
    x.toUInt32.toNat ≤ most := by
  have hWord :
      x.toUInt32 =
        UInt32.ofNatClamp
          (toInt 0 (UInt32.size - 1)
            x.toModel.unpack).toNat :=
    rfl
  rw [hWord]
  rw [toNat_ofNatClamp]
  refine (Nat.min_le_left _ _).trans ?_
  rcases hX with hNone | ⟨value, hHolds, hLe⟩
  · rw [hNone]
    exact Nat.zero_le most
  · generalize x.toModel.unpack = unpacked at hHolds ⊢
    cases hHolds with
    | zero sign value_eq => exact Nat.zero_le most
    | finite mantissa exponent pos below least canonical
        value_eq =>
        rcases exists_roundToInt mantissa exponent with
          ⟨whole, hWhole, hCut⟩
        have hBelow : (whole : ℚ) < (most + 1 : Nat) := by
          rw [← value_eq] at hCut
          push_cast
          linarith
        have hLt := Nat.cast_lt.mp hBelow
        rw [toInt, hWhole]
        exact Nat.lt_succ_iff.mp hLt

------------------------------------------------------------
-- The Unit Interval
------------------------------------------------------------

/- Floats are compared unpacked. -/
theorem lt_iff
    (x y : Float32) :
    x < y ↔
      x.toModel.unpack.compare y.toModel.unpack =
        some .lt := by
  have hLt :
      x < y ↔
        (x.toModel.unpack.compare y.toModel.unpack ==
          some .lt) = true :=
    decide_eq_true_iff
  rw [hLt, beq_iff_eq]

/- A float in canonical form that is not above one. -/
theorem value_le_one
    {mantissa : Nat}
    {exponent : Int}
    (hBelow : mantissa < 2 ^ 24)
    (hNotAbove :
      (compare (-23) exponent).then
          (compare (2 ^ 23) mantissa) ≠
        .lt) :
    (mantissa : ℚ) * 2 ^ exponent ≤ 1 := by
  rcases lt_trichotomy exponent (-23) with
    hSmall | rfl | hLarge
  · have hPower :
        (2 : ℚ) ^ exponent ≤ 2 ^ (-24 : Int) :=
      zpow_le_zpow_right₀ one_le_two (by omega)
    have hMantissa : (mantissa : ℚ) ≤ 2 ^ 24 := by
      exact_mod_cast hBelow.le
    calc
      (mantissa : ℚ) * 2 ^ exponent ≤
          2 ^ 24 * 2 ^ (-24 : Int) :=
        mul_le_mul hMantissa hPower (by positivity)
          (by positivity)
      _ = 1 := by norm_num
  · have hMantissa : mantissa ≤ 2 ^ 23 := by
      by_contra hAbove
      have hLt : compare (2 ^ 23) mantissa = .lt :=
        compare_lt_iff_lt.mpr (Nat.lt_of_not_le hAbove)
      rw [hLt] at hNotAbove
      exact hNotAbove rfl
    calc
      (mantissa : ℚ) * 2 ^ (-23 : Int) ≤
          (2 ^ 23 : Nat) * 2 ^ (-23 : Int) :=
        (units_le_iff _ _ _).mpr hMantissa
      _ = 1 := by norm_num
  · have hLt : compare (-23) exponent = .lt :=
      compare_lt_iff_lt.mpr hLarge
    rw [hLt] at hNotAbove
    exact absurd rfl hNotAbove

/- A value moved into the unit interval is between its ends. -/
theorem within_clampUnit
    (x : Float32) :
    Within (clampUnit x) 1 := by
  have hZero :
      (0.0 : Float32).toModel.unpack = .zero .positive :=
    rfl
  have hOne :
      (1.0 : Float32).toModel.unpack =
        .finite .positive (2 ^ 23) (-23) (by decide) :=
    rfl
  have hUnit :
      ((2 ^ 23 : Nat) : ℚ) * 2 ^ (-23 : Int) = 1 := by
    norm_num
  unfold clampUnit clamp
  split
  · exact Or.inr ⟨0, Holds.zero _ rfl, zero_le_one⟩
  · rename_i hLow
    split
    · exact Or.inr
        ⟨1, Holds.finite _ _ _ (by decide) (by decide)
          (by decide) hUnit.symm, le_refl 1⟩
    · rename_i hHigh
      rw [lt_iff, hZero] at hLow
      rw [lt_iff, hOne] at hHigh
      unfold Within
      cases hX : x.toModel.unpack with
      | notANumber => exact Or.inl rfl
      | zero sign =>
          exact Or.inr ⟨0, Holds.zero sign rfl, zero_le_one⟩
      | infinity sign =>
          rw [hX] at hLow hHigh
          cases sign with
          | negative => exact absurd rfl hLow
          | positive => exact absurd rfl hHigh
      | finite sign mantissa exponent pos =>
          rw [hX] at hLow hHigh
          cases sign with
          | negative => exact absurd rfl hLow
          | positive =>
              have hParts := hX
              unfold Float32.Model.unpack at hParts
              rw [unpack_eq_ofParts] at hParts
              rcases canonical_ofParts hParts with
                ⟨hBelow, ⟨hLeast, -⟩, hCanonical⟩
              refine Or.inr
                ⟨_, Holds.finite _ _ pos hBelow hLeast
                  hCanonical rfl,
                  value_le_one hBelow ?_⟩
              intro hAbove
              exact hHigh (congrArg some hAbove)

/- A value in the unit interval is not moved. -/
theorem clampUnit_clampUnit
    (x : Float32) :
    clampUnit (clampUnit x) = clampUnit x := by
  unfold clampUnit clamp
  split
  · rfl
  · split
    · rfl
    · rfl

end Binary32

end PagedRaster
