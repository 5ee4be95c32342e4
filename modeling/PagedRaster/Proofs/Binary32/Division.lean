import PagedRaster.Proofs.Binary32.Signed

/-
  This file says what a division of binary32 floats does to
  their values.  The quotient of the mantissas comes with a
  note on what is left over; in place of the note, the
  quotient may carry two more bits, and then it is rounded
  like an exact mantissa.

  Key definitions include:
    * `Binary32.residueBits`

  Key theorems include:
    * `Binary32.roundWithAccuracy_inexact`
    * `Binary32.Rounds.of_same_units`
    * `Binary32.Holds.div`
    * `Binary32.HasValue.div`
-/

namespace PagedRaster

namespace Binary32

open Float.Model (Format UnpackedFloat totalExponent)
open Float.Model.UnpackedFloat

------------------------------------------------------------
-- Noted Residues
------------------------------------------------------------

/- Two bits that stand for what is left over. -/
def residueBits : Ordering → Nat
  | .lt => 1
  | .eq => 2
  | .gt => 3

/- They are not both zero, and there are two of them. -/
theorem residueBits_bounds
    (order : Ordering) :
    0 < residueBits order ∧ residueBits order < 4 := by
  cases order <;> decide

/- Shifts of a mantissa add up. -/
theorem shiftRight_shiftRight
    (extended : ExtendedMantissa)
    (shift shift' : Nat) :
    (extended >>> shift) >>> shift' =
      extended >>> (shift + shift') := by
  induction shift' with
  | zero => rfl
  | succ shift' ih =>
      have hNext (start : ExtendedMantissa) (n : Nat) :
          start >>> (n + 1) =
            (start >>> n).shiftRightOne :=
        rfl
      rw [← Nat.add_assoc, hNext, hNext, ih]

/- Bits of a mantissa become its note when shifted out. -/
theorem ofMantissaAndAccuracy_inexact
    (mantissa : Nat)
    (order : Ordering) :
    ExtendedMantissa.ofMantissaAndAccuracy mantissa
        (.inexact order) =
      ExtendedMantissa.ofMantissaAndAccuracy
        (4 * mantissa + residueBits order) .exact >>> 2 := by
  have hTwo (extended : ExtendedMantissa) :
      extended >>> 2 =
        extended.shiftRightOne.shiftRightOne :=
    rfl
  have hOut (bits : Nat) (hBits : bits < 4) :
      (4 * mantissa + bits) / 2 / 2 = mantissa ∧
        (4 * mantissa + bits) / 2 % 2 = bits / 2 ∧
        (4 * mantissa + bits) % 2 = bits % 2 := by
    omega
  rcases hOut _ (residueBits_bounds order).2 with
    ⟨hMantissa, hRound, hSticky⟩
  rw [hTwo]
  simp only [ExtendedMantissa.ofMantissaAndAccuracy,
    ExtendedMantissa.shiftRightOne, hMantissa, hRound,
    hSticky]
  cases order <;> rfl

/-
  A mantissa that is full, or whose unit is the least one,
  is rounded to units that are no smaller than its own.
-/
theorem le_unitOf
    {mantissa : Nat}
    {exponent : Int}
    (hEnough : 2 ^ 23 ≤ mantissa ∨ exponent ≤ -149) :
    exponent ≤ unitOf mantissa exponent := by
  unfold unitOf
  rcases hEnough with hFull | hLeast
  · have hLog : 23 ≤ mantissa.log2 :=
      (Nat.le_log2 (by omega)).mpr hFull
    omega
  · omega

/- These units do not depend on two further bits. -/
theorem unitOf_four_mul
    {mantissa bits : Nat}
    {exponent : Int}
    (hBits : bits < 4)
    (hEnough : 2 ^ 23 ≤ mantissa ∨ exponent ≤ -149) :
    unitOf (4 * mantissa + bits) (exponent - 2) =
      unitOf mantissa exponent := by
  rcases Nat.lt_or_ge mantissa (2 ^ 23) with hSmall | hFull
  · have hLeast : exponent ≤ -149 :=
      hEnough.resolve_left (by omega)
    have hLog {n k : Nat} (hN : n < 2 ^ (k + 1)) :
        n.log2 ≤ k := by
      by_cases hZero : n = 0
      · simp [hZero]
      · exact Nat.lt_succ_iff.mp ((Nat.log2_lt hZero).mpr hN)
    have hFirst : mantissa.log2 ≤ 22 := hLog hSmall
    have hSecond : (4 * mantissa + bits).log2 ≤ 24 :=
      hLog (by omega)
    unfold unitOf
    omega
  · have hNonzero : mantissa ≠ 0 := by omega
    have hLow := Nat.log2_self_le hNonzero
    have hHigh := Nat.lt_log2_self (n := mantissa)
    have hLog :
        (4 * mantissa + bits).log2 = mantissa.log2 + 2 := by
      rw [Nat.log2_eq_iff (by omega)]
      rw [Nat.pow_succ] at hHigh
      constructor
      · rw [Nat.pow_add]
        omega
      · rw [Nat.pow_succ, Nat.pow_add]
        omega
    unfold unitOf
    omega

/-
  An inexact mantissa is rounded like an exact one that has
  two bits more.
-/
theorem roundWithAccuracy_inexact
    {mantissa : Nat}
    {exponent : Int}
    (hEnough : 2 ^ 23 ≤ mantissa ∨ exponent ≤ -149)
    (order : Ordering) :
    roundWithAccuracy Format.binary32 .positive mantissa
        exponent (.inexact order) =
      roundWithAccuracy Format.binary32 .positive
        (4 * mantissa + residueBits order) (exponent - 2)
        .exact := by
  have hTarget (n : Nat) (e : Int) :
      Format.binary32.targetExponent (totalExponent n e) =
        unitOf n e :=
    rfl
  have hUnit :=
    unitOf_four_mul (residueBits_bounds order).2 hEnough
  have hLe := le_unitOf hEnough
  have hShift :
      (unitOf mantissa exponent - (exponent - 2)).toNat =
        2 + (unitOf mantissa exponent - exponent).toNat := by
    omega
  have hSame :
      shiftToTargetExponent Format.binary32 mantissa exponent
          (.inexact order) =
        shiftToTargetExponent Format.binary32
          (4 * mantissa + residueBits order) (exponent - 2)
          .exact := by
    unfold shiftToTargetExponent shiftToExponent
    dsimp only
    rw [hTarget, hTarget, hUnit, hShift,
      ofMantissaAndAccuracy_inexact, shiftRight_shiftRight]
    refine Prod.ext rfl ?_
    dsimp only
    omega
  unfold roundWithAccuracy
  rw [hSame]

------------------------------------------------------------
-- Rounded Quotients
------------------------------------------------------------

/- Nothing representable lies inside one of enough units. -/
theorem Representable.le_or_ge
    {bound : ℚ}
    (hBound : Representable bound)
    {count : Nat}
    {exponent : Int}
    (hEnough : 2 ^ 23 ≤ count ∨ exponent ≤ -149) :
    bound ≤ count * 2 ^ exponent ∨
      ((count + 1 : Nat) : ℚ) * 2 ^ exponent ≤ bound := by
  rcases hBound.multiple_or_lt exponent with
    ⟨other, rfl⟩ | ⟨hLarge, hSmall⟩
  · rw [units_le_iff, units_le_iff]
    omega
  · have hFull : 2 ^ 23 ≤ count :=
      hEnough.resolve_right (by omega)
    exact Or.inl (hSmall.le.trans
      ((units_le_iff _ _ exponent).mpr hFull))

/- Numbers within one unit are rounded alike. -/
theorem Rounds.of_same_units
    {count : Nat}
    {exponent : Int}
    (hEnough : 2 ^ 23 ≤ count ∨ exponent ≤ -149)
    {p q rounded : ℚ}
    (hP :
      (count : ℚ) * 2 ^ exponent < p ∧
        p < ((count + 1 : Nat) : ℚ) * 2 ^ exponent)
    (hQ :
      (count : ℚ) * 2 ^ exponent < q ∧
        q < ((count + 1 : Nat) : ℚ) * 2 ^ exponent)
    (hRounds : Rounds p rounded) :
    Rounds q rounded where
  le bound hBound hLe := by
    apply hRounds.le bound hBound
    rcases hBound.le_or_ge hEnough with hLow | hHigh
    · linarith
    · linarith
  ge bound hBound hLe := by
    apply hRounds.ge bound hBound
    rcases hBound.le_or_ge hEnough with hLow | hHigh
    · linarith
    · linarith

/- Two further bits stay within one unit. -/
theorem residue_within_unit
    (count : Nat)
    (exponent : Int)
    {bits : Nat}
    (hBits : 0 < bits ∧ bits < 4) :
    (count : ℚ) * 2 ^ exponent <
        (4 * count + bits : Nat) * 2 ^ (exponent - 2) ∧
      ((4 * count + bits : Nat) : ℚ) * 2 ^ (exponent - 2) <
        (count + 1 : Nat) * 2 ^ exponent := by
  have hPlace : (0 : ℚ) < 2 ^ (exponent - 2) :=
    zpow_pos two_pos _
  have hScale (n : Nat) :
      (n : ℚ) * 2 ^ exponent =
        (n * 2 ^ 2 : Nat) * 2 ^ (exponent - 2) := by
    rw [← mul_two_pow_add]
    congr 2
    omega
  rw [hScale, hScale]
  constructor
  · apply mul_lt_mul_of_pos_right _ hPlace
    exact Nat.cast_lt.mpr (by omega)
  · apply mul_lt_mul_of_pos_right _ hPlace
    exact Nat.cast_lt.mpr (by omega)

/- A quotient with a rest stays within one unit. -/
theorem quotient_within_unit
    {mantissa divisor quotient rest : Nat}
    (exponent : Int)
    (hParts : divisor * quotient + rest = mantissa)
    (hRest : 0 < rest)
    (hLess : rest < divisor) :
    (quotient : ℚ) * 2 ^ exponent <
        mantissa * 2 ^ exponent / divisor ∧
      (mantissa : ℚ) * 2 ^ exponent / divisor <
        (quotient + 1 : Nat) * 2 ^ exponent := by
  have hPlace : (0 : ℚ) < 2 ^ exponent :=
    zpow_pos two_pos exponent
  have hDivisor : (0 : ℚ) < divisor :=
    Nat.cast_pos.mpr (hRest.trans hLess)
  have hMantissa :
      (mantissa : ℚ) = divisor * quotient + rest := by
    exact_mod_cast hParts.symm
  have hValue :
      (mantissa : ℚ) * 2 ^ exponent / divisor =
        (quotient + rest / divisor) * 2 ^ exponent := by
    rw [hMantissa]
    field_simp
  rw [hValue]
  push_cast
  constructor
  · apply mul_lt_mul_of_pos_right _ hPlace
    exact lt_add_of_pos_right _
      (div_pos (Nat.cast_pos.mpr hRest) hDivisor)
  · apply mul_lt_mul_of_pos_right _ hPlace
    exact add_lt_add_right
      ((div_lt_one hDivisor).mpr (Nat.cast_lt.mpr hLess)) _

/-
  A quotient of which less than one unit is left over is
  rounded as it is noted.
-/
theorem roundWithAccuracy_rounds
    {mantissa divisor : Nat}
    {exponent : Int}
    (hWhole : 0 < mantissa)
    (hDivisor : 0 < divisor)
    (hEnough :
      2 ^ 23 ≤ mantissa / divisor ∨ exponent ≤ -149) :
    ∃ rounded,
      Rounds ((mantissa : ℚ) * 2 ^ exponent / divisor)
          rounded ∧
        Holds rounded
          (roundWithAccuracy Format.binary32 .positive
            (mantissa / divisor) exponent
            (accuracyOfFraction (mantissa % divisor)
              divisor)) := by
  have hParts := Nat.div_add_mod mantissa divisor
  have hLess := Nat.mod_lt mantissa hDivisor
  generalize mantissa / divisor = quotient at *
  generalize mantissa % divisor = rest at *
  unfold accuracyOfFraction
  split
  · rename_i hZero
    rw [hZero, Nat.add_zero] at hParts
    have hExact :
        (mantissa : ℚ) * 2 ^ exponent / divisor =
          quotient * 2 ^ exponent := by
      have hNonzero : (divisor : ℚ) ≠ 0 :=
        Nat.cast_ne_zero.mpr hDivisor.ne'
      rw [← hParts, Nat.cast_mul]
      field_simp
    rw [hExact]
    refine roundWithAccuracy_exact ?_ (le_unitOf hEnough)
    apply Nat.pos_of_ne_zero
    rintro rfl
    omega
  · rename_i hNonzero
    have hRest : 0 < rest := Nat.pos_of_ne_zero hNonzero
    rw [roundWithAccuracy_inexact hEnough]
    generalize compare (2 * rest) divisor = order
    have hBits := residueBits_bounds order
    have hUnit := unitOf_four_mul hBits.2 hEnough
    have hLe := le_unitOf hEnough
    have hPos : 0 < 4 * quotient + residueBits order := by
      omega
    have hFits :
        exponent - 2 ≤
          unitOf (4 * quotient + residueBits order)
            (exponent - 2) := by
      omega
    rcases roundWithAccuracy_exact hPos hFits with
      ⟨rounded, hRounds, hHolds⟩
    exact ⟨rounded,
      hRounds.of_same_units hEnough
        (residue_within_unit quotient exponent hBits)
        (quotient_within_unit exponent hParts hRest hLess),
      hHolds⟩

/- The quotient has enough units to be rounded. -/
theorem divCore_enough
    {mantissa mantissa' : Nat}
    {exponent exponent' : Int}
    (hPos : 0 < mantissa)
    (hPos' : 0 < mantissa')
    {unit : Int}
    (hUnit :
      unit =
        min (exponent - exponent')
          (Format.binary32.targetExponent
            (totalExponent mantissa exponent -
              totalExponent mantissa' exponent'))) :
    2 ^ 23 ≤
        (mantissa <<<
          (exponent - exponent' - unit).toNat) /
          mantissa' ∨
      unit ≤ -149 := by
  have hTarget (total : Int) :
      Format.binary32.targetExponent total =
        max (total - 24) (-149) :=
    rfl
  unfold totalExponent at hUnit
  rw [hTarget] at hUnit
  by_cases hLeast : unit ≤ -149
  · exact Or.inr hLeast
  · left
    have hShift :
        mantissa'.log2 + 24 ≤
          mantissa.log2 +
            (exponent - exponent' - unit).toNat := by
      omega
    rw [Nat.le_div_iff_mul_le hPos', Nat.shiftLeft_eq]
    calc
      2 ^ 23 * mantissa' ≤
          2 ^ 23 * 2 ^ (mantissa'.log2 + 1) :=
        Nat.mul_le_mul_left _ Nat.lt_log2_self.le
      _ = 2 ^ (mantissa'.log2 + 24) := by
        rw [← Nat.pow_add]
        congr 1
        omega
      _ ≤ 2 ^ (mantissa.log2 +
            (exponent - exponent' - unit).toNat) :=
        Nat.pow_le_pow_right (by decide) hShift
      _ = 2 ^ mantissa.log2 *
            2 ^ (exponent - exponent' - unit).toNat :=
        Nat.pow_add _ _ _
      _ ≤ mantissa *
            2 ^ (exponent - exponent' - unit).toNat :=
        Nat.mul_le_mul_right _ (Nat.log2_self_le hPos.ne')

/- A quotient of two values is rounded. -/
theorem Holds.div
    {first second : UnpackedFloat}
    {p q : ℚ}
    (hFirst : Holds p first)
    (hSecond : Holds q second)
    (hDivisor : q ≠ 0) :
    ∃ rounded,
      Rounds (p / q) rounded ∧
        Holds rounded
          (UnpackedFloat.div Format.binary32 first
            second) := by
  cases hSecond with
  | zero sign' hZero' => exact absurd hZero' hDivisor
  | finite mantissa' exponent' pos' below' least'
      canonical' hValue' =>
      cases hFirst with
      | zero sign hZero =>
          refine ⟨p / q, rounds_self _, ?_⟩
          rw [hZero, zero_div]
          exact Holds.zero _ rfl
      | finite mantissa exponent pos below least canonical
          hValue =>
          generalize hUnit :
            min (exponent - exponent')
              (Format.binary32.targetExponent
                (totalExponent mantissa exponent -
                  totalExponent mantissa' exponent')) =
              unit
          have hLesser : unit ≤ exponent - exponent' :=
            hUnit ▸ min_le_left _ _
          have hEnough :=
            divCore_enough pos pos' hUnit.symm
          -- The dividend is taken in units of the quotient.
          have hExact :
              p / q =
                ((mantissa <<<
                    (exponent - exponent' - unit).toNat :
                    Nat) : ℚ) * 2 ^ unit / mantissa' := by
            have hScale :=
              value_shiftLeft mantissa hLesser
            rw [hScale, hValue, hValue',
              zpow_sub₀ two_ne_zero]
            field_simp
          have hPlaced :
              0 < mantissa <<<
                (exponent - exponent' - unit).toNat := by
            rw [Nat.shiftLeft_eq]
            positivity
          have hRounded :=
            roundWithAccuracy_rounds hPlaced pos' hEnough
          rw [← hExact] at hRounded
          rw [← hUnit] at hRounded
          exact hRounded

/- Signs of dividend and divisor make up the quotient's. -/
theorem signed_div
    (sign sign' : Sign)
    (p q : ℚ) :
    signed sign p / signed sign' q =
      signed (sign / sign') (p / q) := by
  cases sign with
  | negative =>
      cases sign' with
      | negative => exact neg_div_neg_eq p q
      | positive => exact neg_div q p
  | positive =>
      cases sign' with
      | negative => exact div_neg p
      | positive => rfl

/- A quotient of two values of either sign is rounded. -/
theorem Denotes.div
    {first second : UnpackedFloat}
    {p q : ℚ}
    (hFirst : Denotes p first)
    (hSecond : Denotes q second)
    (hDivisor : q ≠ 0) :
    ∃ rounded,
      RoundsTo (p / q) rounded ∧
        Denotes rounded
          (UnpackedFloat.div Format.binary32 first
            second) := by
  cases hSecond with
  | zero sign' hZero' => exact absurd hZero' hDivisor
  | finite sign' mantissa' exponent' pos' below' least'
      canonical' hValue' =>
      cases hFirst with
      | zero sign hZero =>
          refine ⟨p / q, roundsTo_self _, ?_⟩
          rw [hZero, zero_div]
          exact Denotes.zero _ rfl
      | finite sign mantissa exponent pos below least
          canonical hValue =>
          have hHolds :
              Holds (mantissa * 2 ^ exponent)
                (.finite .positive mantissa exponent pos) :=
            Holds.finite mantissa exponent pos below least
              canonical rfl
          have hHolds' :
              Holds (mantissa' * 2 ^ exponent')
                (.finite .positive mantissa' exponent'
                  pos') :=
            Holds.finite mantissa' exponent' pos' below'
              least' canonical' rfl
          rcases hHolds.div hHolds' (by positivity) with
            ⟨rounded, hRounds, hRounded⟩
          rw [hValue, hValue', signed_div]
          exact denotes_of_rounds
            (fun sign =>
              let core :=
                divCore Format.binary32 mantissa exponent
                  mantissa' exponent'
              roundWithAccuracy Format.binary32 sign core.1
                core.2.1 core.2.2)
            (roundWithAccuracy_negative _ _ _)
            (by positivity) hRounds hRounded (sign / sign')

/- The value of a quotient. -/
theorem HasValue.div
    {x y : Float32}
    {p q : ℚ}
    (hX : HasValue x p)
    (hY : HasValue y q)
    (hDivisor : q ≠ 0)
    (hRange : |p / q| ≤ 2 ^ 127) :
    ∃ rounded,
      RoundsTo (p / q) rounded ∧ HasValue (x / y) rounded :=
  hasValue_of_roundsTo (Denotes.div hX hY hDivisor) hRange

end Binary32

end PagedRaster
