import PagedRaster.Proofs.Binary32.Symmetry
import PagedRaster.Proofs.Memory.Layout

/-
  This file says to which signed word every float is cut,
  the infinite ones and those that are no numbers included:
  the fraction is dropped, and what lies outside of the word
  range stops at its nearer end.

  Key definitions include:
    * `Binary32.towardZero`
    * `Binary32.saturated`
    * `Binary32.Truncates`

  Key theorems include:
    * `Binary32.HasValue.toInt_toInt32_of_neg`
    * `Binary32.truncates_toInt32`
-/

namespace PagedRaster

namespace Binary32

open Float.Model (Format UnpackedFloat)
open Float.Model.UnpackedFloat

------------------------------------------------------------
-- Truncation
------------------------------------------------------------

/- A number without its fraction. -/
def towardZero
    (p : ℚ) : Int :=
  if 0 ≤ p then ⌊p⌋ else ⌈p⌉

/- The signed word that is nearest to an integer. -/
def saturated
    (n : Int) : Int :=
  max (-2 ^ 31) (min n (2 ^ 31 - 1))

/- The integer to which a float is cut. -/
inductive Truncates : Float32 → Int → Prop
  | notANumber
      {x : Float32}
      (hX : x.isNaN = true) :
      Truncates x 0
  | infinity :
      Truncates Binary32.infinity (2 ^ 31 - 1)
  | negativeInfinity :
      Truncates (-Binary32.infinity) (-2 ^ 31)
  | value
      {x : Float32}
      {p : ℚ}
      (hX : HasValue x p) :
      Truncates x (saturated (towardZero p))

------------------------------------------------------------
-- Finite Floats
------------------------------------------------------------

/- The negative of a small word. -/
theorem toInt_zero_sub_toInt32
    {size : UInt32}
    (hSmall : size.toNat < 2147483648) :
    (0 - size.toInt32).toInt = -size.toNat := by
  have hZero : (0 : Int32).toInt = 0 := rfl
  rw [Int32.toInt_sub, toInt_toInt32_of_lt hSmall, hZero,
    Int.zero_sub]
  exact Int.bmod_eq_of_le (by omega) (by omega)

namespace HasValue

variable {x : Float32}
variable {p : ℚ}

/- A negative value stops at the lower end. -/
theorem toInt_toInt32_of_neg
    (hX : HasValue x p)
    (hNeg : p < 0) :
    (toInt32 x).toInt = max (-2 ^ 31) ⌈p⌉ := by
  have hNegative : x < 0.0 :=
    (hX.lt_iff hasValue_zero).mpr hNeg
  have hPos : 0 ≤ -p := by linarith
  have hWord := hX.neg.toNat_toUInt32_eq_min hPos
  have hCeil : ⌈p⌉ = -⌊-p⌋₊ := by
    rw [Int.natCast_floor_eq_floor hPos, Int.floor_neg,
      Int.neg_neg]
  have hSize : UInt32.size - 1 = 4294967295 := rfl
  unfold toInt32
  rw [if_pos hNegative]
  dsimp only
  split
  · rename_i hSmall
    rw [UInt32.lt_iff_toNat_lt] at hSmall
    change (-x).toUInt32.toNat < 2147483648 at hSmall
    rw [toInt_zero_sub_toInt32 hSmall]
    omega
  · rename_i hLarge
    rw [UInt32.lt_iff_toNat_lt] at hLarge
    change ¬(-x).toUInt32.toNat < 2147483648 at hLarge
    have hLeast : Int32.minValue.toInt = -2147483648 := rfl
    omega

/- A finite float is cut to the word nearest its value. -/
theorem toInt_toInt32_eq
    (hX : HasValue x p) :
    (toInt32 x).toInt = saturated (towardZero p) := by
  unfold saturated towardZero
  split
  · rename_i hPos
    have hFloor : ⌊p⌋ = ⌊p⌋₊ :=
      (Int.natCast_floor_eq_floor hPos).symm
    rw [hX.toInt_toInt32_of_nonneg hPos]
    omega
  · rename_i hNeg
    have hCeil : ⌈p⌉ ≤ 0 :=
      Int.ceil_le.mpr (by push_cast; linarith)
    rw [hX.toInt_toInt32_of_neg (not_le.mp hNeg)]
    omega

end HasValue

------------------------------------------------------------
-- All Floats
------------------------------------------------------------

/- No number is cut to zero. -/
theorem toInt32_of_isNaN
    {x : Float32}
    (hX : x.isNaN = true) :
    toInt32 x = 0 := by
  have hUnpacked : x.toModel.unpack = .notANumber := by
    change x.toModel.unpack.isNaN = true at hX
    generalize x.toModel.unpack = unpacked at hX ⊢
    cases unpacked with
    | notANumber => rfl
    | infinity sign => cases hX
    | zero sign => cases hX
    | finite sign mantissa exponent pos => cases hX
  have hSame : x = .ofModel (.pack .notANumber) := by
    rw [← hUnpacked, pack_unpack]
  rw [hSame]
  decide

/-
  Every float is cut to the nearest signed word towards
  zero.
-/
theorem truncates_toInt32
    (x : Float32) :
    Truncates x (toInt32 x).toInt := by
  by_cases hFinite : x.isFinite = true
  · rcases hasValue_of_isFinite hFinite with ⟨p, hX⟩
    rw [hX.toInt_toInt32_eq]
    exact Truncates.value hX
  · have hSame := pack_unpack x
    change ¬x.toModel.unpack.isFinite = true at hFinite
    cases hUnpacked : x.toModel.unpack with
    | notANumber =>
        have hX : x.isNaN = true := by
          change x.toModel.unpack.isNaN = true
          rw [hUnpacked]
          rfl
        rw [toInt32_of_isNaN hX]
        exact Truncates.notANumber hX
    | infinity sign =>
        rw [← hSame, hUnpacked]
        cases sign with
        | positive => exact Truncates.infinity
        | negative => exact Truncates.negativeInfinity
    | zero sign =>
        rw [hUnpacked] at hFinite
        exact absurd rfl hFinite
    | finite sign mantissa exponent pos =>
        rw [hUnpacked] at hFinite
        exact absurd rfl hFinite

end Binary32

end PagedRaster
