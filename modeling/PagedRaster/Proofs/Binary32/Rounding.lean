import Mathlib

/-
  This file relates the rounding of binary32 values to the
  order of rational numbers.  A number is rounded to whole
  units, and the unit is chosen so that the rounded number
  fits into a mantissa.  So no representable number lies
  between a number and what it is rounded to.

  Key definitions include:
    * `Binary32.Representable`
    * `Binary32.Rounds`
    * `Binary32.Holds`

  Key theorems include:
    * `Binary32.rounds_of_units`
    * `Binary32.roundWithAccuracy_exact`
    * `Binary32.round_rounds`
    * `Binary32.unpack_pack_finite`
-/

namespace PagedRaster

namespace Binary32

open Float.Model (Format UnpackedFloat totalExponent)
open Float.Model.UnpackedFloat

------------------------------------------------------------
-- Residual Bits
------------------------------------------------------------

/-
  A mantissa that was shifted down by some places.  Its two
  residual bits tell whether anything was shifted out.
-/
structure ShiftedBy
    (whole shift : Nat)
    (shifted : ExtendedMantissa) : Prop where
  mantissa : shifted.mantissa = whole / 2 ^ shift
  residue :
    (shifted.roundBit || shifted.stickyBit) =
      decide (whole % 2 ^ shift ≠ 0)

/- Shifting an exact mantissa place by place. -/
theorem shiftedBy_shiftRight
    (whole shift : Nat) :
    ShiftedBy whole shift
      (ExtendedMantissa.ofMantissaAndAccuracy whole
        .exact >>> shift) := by
  induction shift with
  | zero =>
      refine ⟨(Nat.div_one whole).symm, ?_⟩
      rw [Nat.pow_zero, Nat.mod_one]
      rfl
  | succ shift ih =>
      have hMantissa := ih.mantissa
      have hResidue := ih.residue
      generalize hShifted :
        ExtendedMantissa.ofMantissaAndAccuracy whole
            .exact >>> shift = shifted at hMantissa hResidue
      have hNext :
          ExtendedMantissa.ofMantissaAndAccuracy whole
              .exact >>> (shift + 1) =
            shifted.shiftRightOne := by
        rw [← hShifted]
        rfl
      have hPos : 0 < 2 ^ shift := Nat.two_pow_pos shift
      rw [hNext]
      refine ⟨?_, ?_⟩
      · rw [ExtendedMantissa.shiftRightOne, hMantissa,
          Nat.div_div_eq_div_mul, Nat.pow_succ]
      · rw [ExtendedMantissa.shiftRightOne, hResidue,
          hMantissa, Nat.mod_pow_succ, Bool.eq_iff_iff]
        simp only [Bool.or_eq_true, bne_iff_ne, ne_eq,
          decide_eq_true_eq, Nat.add_eq_zero_iff,
          Nat.mul_eq_zero, hPos.ne', false_or]
        tauto

/-
  A mantissa is rounded down or up, and it is exact without
  residual bits.
-/
theorem roundedMantissa_cases
    (extended : ExtendedMantissa) :
    extended.roundedMantissa = extended.mantissa ∨
      (extended.roundedMantissa = extended.mantissa + 1 ∧
        (extended.roundBit || extended.stickyBit) =
          true) := by
  rcases extended with ⟨mantissa, roundBit, stickyBit⟩
  cases roundBit with
  | false =>
      cases stickyBit with
      | false => exact Or.inl rfl
      | true => exact Or.inl rfl
  | true =>
      cases stickyBit with
      | false =>
          have hTie :
              ExtendedMantissa.roundedMantissa
                  ⟨mantissa, true, false⟩ =
                mantissa + mantissa % 2 :=
            rfl
          rcases Nat.mod_two_eq_zero_or_one mantissa with
            hEven | hOdd
          · exact Or.inl (by rw [hTie, hEven, Nat.add_zero])
          · exact Or.inr ⟨by rw [hTie, hOdd], rfl⟩
      | true => exact Or.inr ⟨rfl, rfl⟩

/- So is a shifted one, by less than what a place counts. -/
theorem ShiftedBy.bounds
    {whole shift : Nat}
    {shifted : ExtendedMantissa}
    (hShifted : ShiftedBy whole shift shifted) :
    whole / 2 ^ shift ≤ shifted.roundedMantissa ∧
      shifted.roundedMantissa * 2 ^ shift <
        whole + 2 ^ shift := by
  have hMantissa := hShifted.mantissa
  have hResidue := hShifted.residue
  have hPos : 0 < 2 ^ shift := Nat.two_pow_pos shift
  have hWhole := Nat.div_add_mod' whole (2 ^ shift)
  rcases roundedMantissa_cases shifted with
    hDown | ⟨hUp, hInexact⟩
  · rw [hDown, hMantissa]
    exact ⟨Nat.le_refl _, by omega⟩
  · rw [hInexact, eq_comm, decide_eq_true_eq] at hResidue
    rw [hUp, hMantissa, Nat.succ_mul]
    exact ⟨Nat.le_succ _, by omega⟩

------------------------------------------------------------
-- Rational Values
------------------------------------------------------------

/-
  A number that fits into a mantissa, in units that are not
  too small.  The exponent has no upper end here.
-/
def Representable
    (value : ℚ) : Prop :=
  ∃ (mantissa : Nat) (exponent : Int),
    mantissa < 2 ^ 24 ∧ -149 ≤ exponent ∧
      value = mantissa * 2 ^ exponent

/-
  No representable number lies between an exact value and
  what it is rounded to.
-/
structure Rounds
    (exact rounded : ℚ) : Prop where
  le :
    ∀ bound, Representable bound →
      exact ≤ bound → rounded ≤ bound
  ge :
    ∀ bound, Representable bound →
      bound ≤ exact → bound ≤ rounded

/- A number of small units as a number of larger ones. -/
theorem mul_two_pow_add
    (count shift : Nat)
    (exponent : Int) :
    (count : ℚ) * 2 ^ (exponent + shift) =
      (count * 2 ^ shift : Nat) * 2 ^ exponent := by
  rw [zpow_add₀ two_ne_zero, zpow_natCast]
  push_cast
  ring

/- Numbers of one unit are ordered by their counts. -/
theorem units_le_iff
    (count other : Nat)
    (exponent : Int) :
    (count : ℚ) * 2 ^ exponent ≤ other * 2 ^ exponent ↔
      count ≤ other := by
  have hPos : (0 : ℚ) < 2 ^ exponent :=
    zpow_pos two_pos exponent
  rw [mul_le_mul_iff_left₀ hPos, Nat.cast_le]

/-
  A representable number is a multiple of a unit, or it is
  smaller than a whole mantissa of such units.
-/
theorem Representable.multiple_or_lt
    {value : ℚ}
    (hValue : Representable value)
    (unit : Int) :
    (∃ count : Nat, value = count * 2 ^ unit) ∨
      (-149 < unit ∧ value < (2 ^ 23 : Nat) * 2 ^ unit) := by
  rcases hValue with
    ⟨mantissa, exponent, hBelow, hLeast, rfl⟩
  rcases Int.lt_or_le exponent unit with hFine | hCoarse
  · right
    refine ⟨by omega, ?_⟩
    have hPos : (0 : ℚ) < 2 ^ exponent :=
      zpow_pos two_pos exponent
    calc
      (mantissa : ℚ) * 2 ^ exponent <
          (2 ^ 24 : Nat) * 2 ^ exponent :=
        mul_lt_mul_of_pos_right (Nat.cast_lt.mpr hBelow)
          hPos
      _ = (2 ^ 23 : Nat) * 2 ^ (exponent + (1 : Nat)) := by
        rw [mul_two_pow_add, ← Nat.pow_add]
      _ ≤ (2 ^ 23 : Nat) * 2 ^ unit := by
        apply mul_le_mul_of_nonneg_left _ (Nat.cast_nonneg _)
        exact zpow_le_zpow_right₀ one_le_two (by omega)
  · left
    rcases Int.eq_ofNat_of_zero_le
        (Int.sub_nonneg_of_le hCoarse) with
      ⟨shift, hShift⟩
    refine ⟨mantissa * 2 ^ shift, ?_⟩
    rw [← mul_two_pow_add]
    congr 2
    omega

/-
  Rounding to whole units rounds, if the units are as small
  as they get or there are enough of them.
-/
theorem rounds_of_units
    {count shift rounded : Nat}
    {exponent unit : Int}
    (hUnit : unit = exponent + shift)
    (hEnough : unit = -149 ∨ 2 ^ (23 + shift) ≤ count)
    (hDown : count / 2 ^ shift ≤ rounded)
    (hUp : rounded * 2 ^ shift < count + 2 ^ shift) :
    Rounds (count * 2 ^ exponent) (rounded * 2 ^ unit) := by
  have hPlace : 0 < 2 ^ shift := Nat.two_pow_pos shift
  have hScale (other : Nat) :
      (other : ℚ) * 2 ^ unit =
        (other * 2 ^ shift : Nat) * 2 ^ exponent := by
    rw [hUnit, mul_two_pow_add]
  -- Enough units are a whole mantissa of larger ones.
  have hMantissa (hLarge : -149 < unit) :
      2 ^ 23 * 2 ^ shift ≤ count := by
    rw [← Nat.pow_add]
    exact hEnough.resolve_left (ne_of_gt hLarge)
  constructor
  · intro bound hBound hExact
    rcases hBound.multiple_or_lt unit with
      ⟨other, rfl⟩ | ⟨hLarge, hSmall⟩
    · rw [hScale, units_le_iff] at hExact
      rw [units_le_iff]
      have hNext :
          rounded * 2 ^ shift < (other + 1) * 2 ^ shift := by
        rw [Nat.succ_mul]
        omega
      exact Nat.lt_succ_iff.mp
        (Nat.lt_of_mul_lt_mul_right hNext)
    · have hAbove := hExact.trans_lt hSmall
      rw [hScale] at hAbove
      exact absurd
        ((units_le_iff _ _ exponent).mpr (hMantissa hLarge))
        (not_le_of_gt hAbove)
  · intro bound hBound hExact
    rcases hBound.multiple_or_lt unit with
      ⟨other, rfl⟩ | ⟨hLarge, hSmall⟩
    · rw [hScale, units_le_iff] at hExact
      rw [units_le_iff]
      have hFloor : other ≤ count / 2 ^ shift :=
        (Nat.le_div_iff_mul_le hPlace).mpr hExact
      exact hFloor.trans hDown
    · have hFloor : 2 ^ 23 ≤ count / 2 ^ shift :=
        (Nat.le_div_iff_mul_le hPlace).mpr (hMantissa hLarge)
      exact hSmall.le.trans
        ((units_le_iff _ _ unit).mpr (hFloor.trans hDown))

------------------------------------------------------------
-- Rounded Floats
------------------------------------------------------------

/-
  The unit that a number is rounded to: the place below
  which a mantissa does not reach, or the least unit.
-/
def unitOf
    (mantissa : Nat)
    (exponent : Int) : Int :=
  max (mantissa.log2 + 1 + exponent - 24) (-149)

/-
  An unpacked float in canonical form with a value that is
  not negative.
-/
inductive Holds
    (value : ℚ) : UnpackedFloat → Prop
  | zero
      (sign : Sign)
      (value_eq : value = 0) :
      Holds value (.zero sign)
  | finite
      (mantissa : Nat)
      (exponent : Int)
      (pos : 0 < mantissa)
      (below : mantissa < 2 ^ 24)
      (least : -149 ≤ exponent)
      (canonical :
        2 ^ 23 ≤ mantissa ∨ exponent = -149)
      (value_eq : value = mantissa * 2 ^ exponent) :
      Holds value
        (.finite .positive mantissa exponent pos)

/- A shift to the unit of a number, place by place. -/
theorem shiftToTargetExponent_eq
    {mantissa shift : Nat}
    {exponent : Int}
    (hUnit : unitOf mantissa exponent = exponent + shift) :
    ∃ shifted,
      ShiftedBy mantissa shift shifted ∧
        shiftToTargetExponent Format.binary32 mantissa
            exponent .exact =
          (shifted, unitOf mantissa exponent) := by
  have hShift :
      (unitOf mantissa exponent - exponent).toNat = shift := by
    omega
  refine ⟨_, shiftedBy_shiftRight mantissa shift, ?_⟩
  have hTarget :
      Format.binary32.targetExponent
          (totalExponent mantissa exponent) =
        unitOf mantissa exponent :=
    rfl
  unfold shiftToTargetExponent shiftToExponent
  dsimp only
  rw [hTarget, hShift, hUnit]

/-
  A mantissa that fits its unit, but perhaps for a carry,
  settles in canonical form.
-/
structure Settles
    (value : ℚ)
    (settled : ExtendedMantissa × Int) : Prop where
  below : settled.1.mantissa < 2 ^ 24
  least : -149 ≤ settled.2
  canonical :
    2 ^ 23 ≤ settled.1.mantissa ∨ settled.2 = -149
  value_eq :
    value = settled.1.mantissa * 2 ^ settled.2

/- A rounded mantissa settles; a carry takes one more place. -/
theorem settles_of_rounded
    {rounded : Nat}
    {unit : Int}
    (hCarry : rounded ≤ 2 ^ 24)
    (hLeast : -149 ≤ unit)
    (hCanonical : 2 ^ 23 ≤ rounded ∨ unit = -149) :
    Settles (rounded * 2 ^ unit)
      (shiftToTargetExponent Format.binary32 rounded unit
        .exact) := by
  rcases Nat.lt_or_eq_of_le hCarry with hBelow | rfl
  · have hUnit : unitOf rounded unit = unit + (0 : Nat) := by
      have hHigh : rounded.log2 < 24 := by
        by_cases hZero : rounded = 0
        · rw [hZero]
          decide
        · exact (Nat.log2_lt hZero).mpr hBelow
      have hLow : 23 ≤ rounded.log2 ∨ unit = -149 := by
        refine hCanonical.imp_left fun hNormal => ?_
        exact (Nat.le_log2 (by omega)).mpr hNormal
      unfold unitOf
      omega
    rcases shiftToTargetExponent_eq hUnit with
      ⟨shifted, hShifted, hResult⟩
    have hMantissa : shifted.mantissa = rounded := by
      rw [hShifted.mantissa, Nat.pow_zero, Nat.div_one]
    rw [hResult, hUnit, Int.natCast_zero, Int.add_zero]
    constructor
    · rwa [hMantissa]
    · exact hLeast
    · rwa [hMantissa]
    · rw [hMantissa]
  · have hUnit :
        unitOf (2 ^ 24) unit = unit + (1 : Nat) := by
      have hTop : (2 ^ 24).log2 = 24 := Nat.log2_two_pow
      unfold unitOf
      omega
    rcases shiftToTargetExponent_eq hUnit with
      ⟨shifted, hShifted, hResult⟩
    have hMantissa : shifted.mantissa = 2 ^ 23 :=
      hShifted.mantissa
    rw [hResult, hUnit]
    constructor
    · rw [hMantissa]
      decide
    · dsimp only
      omega
    · exact Or.inl hMantissa.ge
    · rw [hMantissa, mul_two_pow_add, ← Nat.pow_add]

/-
  A number in its unit fits into a mantissa with a carry,
  and fills it unless the unit is the least one.
-/
theorem mantissa_bounds
    {mantissa shift : Nat}
    {exponent : Int}
    (hPos : 0 < mantissa)
    (hUnit : unitOf mantissa exponent = exponent + shift) :
    mantissa < 2 ^ 24 * 2 ^ shift ∧
      (unitOf mantissa exponent = -149 ∨
        2 ^ (23 + shift) ≤ mantissa) := by
  have hUnitOf :
      unitOf mantissa exponent =
        max (mantissa.log2 + 1 + exponent - 24) (-149) :=
    rfl
  constructor
  · have hLog : mantissa.log2 < 24 + shift := by omega
    rw [← Nat.pow_add]
    exact (Nat.log2_lt hPos.ne').mp hLog
  · by_cases hLeast : unitOf mantissa exponent = -149
    · exact Or.inl hLeast
    · have hLog : 23 + shift ≤ mantissa.log2 := by omega
      exact Or.inr ((Nat.le_log2 hPos.ne').mp hLog)

/-
  The rounding of a number whose unit is no smaller than the
  one it is given in.
-/
theorem roundWithAccuracy_exact
    {mantissa : Nat}
    {exponent : Int}
    (hPos : 0 < mantissa)
    (hUnit : exponent ≤ unitOf mantissa exponent) :
    ∃ rounded,
      Rounds (mantissa * 2 ^ exponent) rounded ∧
        Holds rounded
          (roundWithAccuracy Format.binary32 .positive
            mantissa exponent .exact) := by
  rcases Int.eq_ofNat_of_zero_le
      (Int.sub_nonneg_of_le hUnit) with
    ⟨shift, hShift⟩
  have hUnitEq :
      unitOf mantissa exponent = exponent + shift := by
    omega
  rcases shiftToTargetExponent_eq hUnitEq with
    ⟨shifted, hShifted, hResult⟩
  rcases hShifted.bounds with ⟨hDown, hUp⟩
  rcases mantissa_bounds hPos hUnitEq with ⟨hFits, hEnough⟩
  have hRounds := rounds_of_units hUnitEq hEnough hDown hUp
  refine ⟨_, hRounds, ?_⟩
  have hPlace : 0 < 2 ^ shift := Nat.two_pow_pos shift
  have hSettles :
      Settles
        (shifted.roundedMantissa *
          2 ^ unitOf mantissa exponent)
        (shiftToTargetExponent Format.binary32
          shifted.roundedMantissa
          (unitOf mantissa exponent) .exact) := by
    apply settles_of_rounded
    · have hNext :
          shifted.roundedMantissa * 2 ^ shift <
            (2 ^ 24 + 1) * 2 ^ shift := by
        rw [Nat.succ_mul]
        omega
      exact Nat.lt_succ_iff.mp
        (Nat.lt_of_mul_lt_mul_right hNext)
    · exact le_max_right _ _
    · refine hEnough.symm.imp_left fun hNormal => ?_
      rw [Nat.pow_add] at hNormal
      have hFloor :=
        (Nat.le_div_iff_mul_le hPlace).mpr hNormal
      exact hFloor.trans hDown
  unfold roundWithAccuracy
  rw [hResult]
  dsimp only
  split
  · rename_i hZero
    refine Holds.zero _ ?_
    rw [hSettles.value_eq, hZero, Nat.cast_zero, zero_mul]
  · exact Holds.finite _ _ _ hSettles.below hSettles.least
      hSettles.canonical hSettles.value_eq

/- The logarithm of a mantissa shifted up. -/
theorem log2_mul_two_pow
    {mantissa : Nat}
    (hPos : 0 < mantissa)
    (shift : Nat) :
    (mantissa * 2 ^ shift).log2 = mantissa.log2 + shift := by
  induction shift with
  | zero => rw [Nat.pow_zero, Nat.mul_one, Nat.add_zero]
  | succ shift ih =>
      have hDouble :
          mantissa * 2 ^ (shift + 1) =
            2 * (mantissa * 2 ^ shift) := by
        ring
      have hNonzero : mantissa * 2 ^ shift ≠ 0 := by
        positivity
      rw [hDouble, Nat.log2_two_mul hNonzero, ih,
        Nat.add_assoc]

/- The rounding of a number that is given in any unit. -/
theorem round_rounds
    {mantissa : Nat}
    (exponent : Int)
    (hPos : 0 < mantissa) :
    ∃ rounded,
      Rounds (mantissa * 2 ^ exponent) rounded ∧
        Holds rounded
          (UnpackedFloat.round Format.binary32 .positive
            mantissa exponent) := by
  -- The number is first written in a unit that is not too
  -- large for it, which does not change it.
  generalize hShift :
    (exponent - unitOf mantissa exponent).toNat = shift
  have hLog :
      (mantissa <<< shift).log2 = mantissa.log2 + shift := by
    rw [Nat.shiftLeft_eq, log2_mul_two_pow hPos]
  have hSame :
      unitOf (mantissa <<< shift) (exponent - shift) =
        unitOf mantissa exponent := by
    unfold unitOf
    omega
  have hUnit :
      exponent - shift ≤
        unitOf (mantissa <<< shift) (exponent - shift) := by
    omega
  have hValue :
      ((mantissa <<< shift : Nat) : ℚ) *
          2 ^ (exponent - shift) =
        mantissa * 2 ^ exponent := by
    rw [Nat.shiftLeft_eq, ← mul_two_pow_add,
      Int.sub_add_cancel]
  have hPlaced : 0 < mantissa <<< shift := by
    rw [Nat.shiftLeft_eq]
    positivity
  have hRound := roundWithAccuracy_exact hPlaced hUnit
  rw [hValue] at hRound
  have hResult :
      UnpackedFloat.round Format.binary32 .positive mantissa
          exponent =
        roundWithAccuracy Format.binary32 .positive
          (mantissa <<< shift) (exponent - shift) .exact := by
    rw [← hShift]
    rfl
  rwa [hResult]

------------------------------------------------------------
-- Packed Floats
------------------------------------------------------------

/-
  The float of a sign, a biased exponent and a fraction,
  whose highest bit is implicit.
-/
def ofParts
    (sign : Sign)
    (biased : BitVec 8)
    (fraction : BitVec 23) : UnpackedFloat :=
  if biased = -1#8 then
    if fraction = 0#23 then .infinity sign
    else .notANumber
  else if biased = 0#8 then
    if hFraction : fraction = 0#23 then .zero sign
    else
      .finite sign fraction.toNat (-149)
        (Nat.pos_of_ne_zero fun hNone =>
          hFraction (BitVec.eq_of_toNat_eq hNone))
  else
    .finite sign (2 ^ 23 + fraction.toNat)
      (biased.toNat - 150) (by omega)

/- Unpacking puts the parts together. -/
theorem unpack_eq_ofParts
    (bits : BitVec Format.binary32.numBits) :
    unpack Format.binary32 bits =
      ofParts (Sign.ofBitVec (unpackSign bits))
        (unpackExponent bits) (unpackMantissa bits) := by
  have hImplicit (fraction : BitVec 23) :
      (1#1 ++ fraction).toNat = 2 ^ 23 + fraction.toNat := by
    rw [BitVec.toNat_append,
      ← Nat.shiftLeft_add_eq_or_of_lt fraction.isLt]
    rfl
  unfold unpack ofParts
  dsimp only
  split
  · rfl
  · split
    · rename_i hZero
      split
      · rfl
      · congr 1
        rw [hZero]
        rfl
    · congr 1
      exact hImplicit _

/- Floats put together from parts are in canonical form. -/
theorem canonical_ofParts
    {sign sign' : Sign}
    {biased : BitVec 8}
    {fraction : BitVec 23}
    {mantissa : Nat}
    {exponent : Int}
    {pos : 0 < mantissa}
    (hParts :
      ofParts sign biased fraction =
        .finite sign' mantissa exponent pos) :
    mantissa < 2 ^ 24 ∧
      (-149 ≤ exponent ∧ exponent ≤ 104) ∧
      (2 ^ 23 ≤ mantissa ∨ exponent = -149) := by
  have hFraction := fraction.isLt
  have hBiasedLt := biased.isLt
  unfold ofParts at hParts
  split at hParts
  · split at hParts
    · cases hParts
    · cases hParts
  · rename_i hMost
    split at hParts
    · split at hParts
      · cases hParts
      · cases hParts
        exact ⟨by omega, by decide, Or.inr rfl⟩
    · rename_i hZero
      have hBiased : biased.toNat ≠ 0 := by
        intro hNone
        exact hZero (BitVec.eq_of_toNat_eq hNone)
      have hNotMost : biased.toNat ≠ 255 := by
        intro hAll
        exact hMost (BitVec.eq_of_toNat_eq hAll)
      cases hParts
      exact ⟨by omega, by omega, Or.inl (by omega)⟩

/- Unpacking packed components. -/
theorem unpack_packComponents
    (sign : Sign)
    (biased : BitVec 8)
    (fraction : BitVec 23) :
    unpack Format.binary32
        (packComponents Format.binary32 sign biased
          fraction) =
      ofParts sign biased fraction := by
  rw [unpack_eq_ofParts, unpackSign_packComponents,
    unpackExponent_packComponents,
    unpackMantissa_packComponents, Sign.ofBitVec_toBitVec]

/- A value below the greatest power has a finite exponent. -/
theorem exponent_le
    {mantissa : Nat}
    {exponent : Int}
    (hCanonical : 2 ^ 23 ≤ mantissa ∨ exponent = -149)
    (hFinite : (mantissa : ℚ) * 2 ^ exponent < 2 ^ 128) :
    exponent ≤ 104 := by
  by_contra hLarge
  have hNormal : 2 ^ 23 ≤ mantissa :=
    hCanonical.resolve_right (by omega)
  have hPower : (2 : ℚ) ^ (105 : Int) ≤ 2 ^ exponent :=
    zpow_le_zpow_right₀ one_le_two (by omega)
  have hMantissa : (2 : ℚ) ^ 23 ≤ mantissa := by
    exact_mod_cast hNormal
  have hLeast :
      (2 : ℚ) ^ 23 * 2 ^ (105 : Int) ≤
        mantissa * 2 ^ exponent :=
    mul_le_mul hMantissa hPower (by positivity)
      (by positivity)
  have hOverflow := hLeast.trans_lt hFinite
  norm_num at hOverflow

/- How floats with a finite exponent are packed. -/
theorem pack_finite
    (sign : Sign)
    {mantissa : Nat}
    {exponent : Int}
    (pos : 0 < mantissa)
    (hMost : exponent ≤ 104) :
    pack Format.binary32
        (.finite sign mantissa exponent pos) =
      packComponents Format.binary32 sign
        (if mantissa.log2 = 23 then
          BitVec.ofNat 8 (exponent + 150).toNat
        else 0)
        (BitVec.ofNat 23 mantissa) := by
  have hBias :
      (exponent + Format.binary32.exponentBias +
          Format.binary32.mantissaBitsWithoutImplicit).toNat =
        (exponent + 150).toNat := by
    have hSum :
        ((Format.binary32.exponentBias : Int) +
          Format.binary32.mantissaBitsWithoutImplicit) =
            150 :=
      rfl
    rw [Int.add_assoc, hSum]
  have hBits : Format.binary32.mantissaBits = 23 + 1 := rfl
  unfold pack
  dsimp only
  rw [hBias, hBits, if_neg (by omega)]
  simp only [Nat.add_right_cancel_iff]
  split
  · rfl
  · rfl

/- A whole mantissa is put together from its fraction. -/
theorem ofParts_of_normal
    (sign : Sign)
    {mantissa : Nat}
    {exponent : Int}
    (pos : 0 < mantissa)
    (hNormal : 2 ^ 23 ≤ mantissa)
    (hBelow : mantissa < 2 ^ 24)
    (hLeast : -149 ≤ exponent)
    (hMost : exponent ≤ 104) :
    ofParts sign (BitVec.ofNat 8 (exponent + 150).toNat)
        (BitVec.ofNat 23 mantissa) =
      .finite sign mantissa exponent pos := by
  have hBiased :
      (BitVec.ofNat 8 (exponent + 150).toNat).toNat =
        (exponent + 150).toNat := by
    rw [BitVec.toNat_ofNat]
    omega
  have hFraction :
      (BitVec.ofNat 23 mantissa).toNat =
        mantissa - 2 ^ 23 := by
    rw [BitVec.toNat_ofNat]
    omega
  have hFirst :
      BitVec.ofNat 8 (exponent + 150).toNat ≠ -1#8 := by
    intro hSame
    have hNat := congrArg BitVec.toNat hSame
    rw [hBiased] at hNat
    change _ = 255 at hNat
    omega
  have hLast :
      BitVec.ofNat 8 (exponent + 150).toNat ≠ 0#8 := by
    intro hSame
    have hNat := congrArg BitVec.toNat hSame
    rw [hBiased] at hNat
    change _ = 0 at hNat
    omega
  rw [ofParts, if_neg hFirst, if_neg hLast]
  congr 1
  · omega
  · omega

/- A smaller mantissa is a fraction of the least unit. -/
theorem ofParts_of_subnormal
    (sign : Sign)
    {mantissa : Nat}
    (pos : 0 < mantissa)
    (hBelow : mantissa < 2 ^ 23) :
    ofParts sign 0#8 (BitVec.ofNat 23 mantissa) =
      .finite sign mantissa (-149) pos := by
  have hFraction :
      (BitVec.ofNat 23 mantissa).toNat = mantissa := by
    rw [BitVec.toNat_ofNat, Nat.mod_eq_of_lt hBelow]
  have hNone : BitVec.ofNat 23 mantissa ≠ 0#23 := by
    intro hSame
    have hNat := congrArg BitVec.toNat hSame
    rw [hFraction] at hNat
    exact pos.ne' hNat
  rw [ofParts, if_neg (by decide), if_pos rfl,
    dif_neg hNone]
  congr 1

/-
  A float in canonical form that does not overflow is packed
  without loss.
-/
theorem unpack_pack_finite
    (sign : Sign)
    {mantissa : Nat}
    {exponent : Int}
    (pos : 0 < mantissa)
    (hBelow : mantissa < 2 ^ 24)
    (hLeast : -149 ≤ exponent)
    (hCanonical : 2 ^ 23 ≤ mantissa ∨ exponent = -149)
    (hFinite : (mantissa : ℚ) * 2 ^ exponent < 2 ^ 128) :
    unpack Format.binary32
        (pack Format.binary32
          (.finite sign mantissa exponent pos)) =
      .finite sign mantissa exponent pos := by
  have hMost := exponent_le hCanonical hFinite
  rw [pack_finite sign pos hMost, unpack_packComponents]
  by_cases hNormal : 2 ^ 23 ≤ mantissa
  · have hLog : mantissa.log2 = 23 :=
      (Nat.log2_eq_iff pos.ne').mpr ⟨hNormal, hBelow⟩
    rw [if_pos hLog]
    exact ofParts_of_normal sign pos hNormal hBelow hLeast
      hMost
  · have hLog : mantissa.log2 ≠ 23 := by
      intro hSame
      have hTop := Nat.log2_self_le pos.ne'
      rw [hSame] at hTop
      exact hNormal hTop
    have hSmallest : exponent = -149 :=
      hCanonical.resolve_left hNormal
    subst hSmallest
    rw [if_neg hLog]
    exact ofParts_of_subnormal sign pos
      (Nat.lt_of_not_le hNormal)

/- So is one that has a value. -/
theorem Holds.unpack_pack
    {value : ℚ}
    {unpacked : UnpackedFloat}
    (hHolds : Holds value unpacked)
    (hFinite : value < 2 ^ 128) :
    unpack Format.binary32
        (pack Format.binary32 unpacked) =
      unpacked := by
  cases hHolds with
  | zero sign value_eq =>
      exact unpack_packedZero
  | finite mantissa exponent pos below least canonical
      value_eq =>
      rw [value_eq] at hFinite
      exact unpack_pack_finite .positive pos below least
        canonical hFinite

end Binary32

end PagedRaster
