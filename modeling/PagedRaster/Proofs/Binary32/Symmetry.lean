import PagedRaster.Proofs.Binary32.Signed

/-
  This file proves the laws of binary32 that hold for all
  floats, rounded or not, finite or not: factors commute,
  a float is the negative of its negative, and a difference
  with its operands exchanged is negative, unless it is
  zero.

  Key theorems include:
    * `Binary32.mul_comm`
    * `Binary32.neg_neg`
    * `Binary32.hasValue_of_isFinite`
    * `Binary32.sub_swap`
-/

namespace PagedRaster

namespace Binary32

open Float.Model (Format UnpackedFloat)
open Float.Model.UnpackedFloat

------------------------------------------------------------
-- Products
------------------------------------------------------------

/- Signs of factors commute. -/
theorem sign_mul_comm
    (sign sign' : Sign) :
    sign * sign' = sign' * sign := by
  cases sign <;> cases sign' <;> rfl

/- Factors commute. -/
theorem mul_comm
    (x y : Float32) :
    x * y = y * x := by
  have hUnpacked (first second : UnpackedFloat) :
      UnpackedFloat.mul Format.binary32 first second =
        UnpackedFloat.mul Format.binary32 second first := by
    cases first with
    | notANumber => cases second <;> rfl
    | infinity sign =>
        cases second <;>
          simp only [UnpackedFloat.mul, sign_mul_comm sign]
    | zero sign =>
        cases second <;>
          simp only [UnpackedFloat.mul, sign_mul_comm sign]
    | finite sign mantissa exponent pos =>
        cases second <;>
          simp only [UnpackedFloat.mul, sign_mul_comm sign,
            Nat.mul_comm mantissa, Int.add_comm exponent]
  exact congrArg (fun result => Float32.ofModel (.pack result))
    (hUnpacked x.toModel.unpack y.toModel.unpack)

------------------------------------------------------------
-- Negatives
------------------------------------------------------------

/- A finite float has a value. -/
theorem hasValue_of_isFinite
    {x : Float32}
    (hFinite : x.isFinite = true) :
    ∃ value, HasValue x value := by
  change x.toModel.unpack.isFinite = true at hFinite
  generalize hUnpacked : x.toModel.unpack = unpacked
    at hFinite
  unfold HasValue
  rw [hUnpacked]
  cases unpacked with
  | notANumber => cases hFinite
  | infinity sign => cases hFinite
  | zero sign => exact ⟨0, Denotes.zero sign rfl⟩
  | finite sign mantissa exponent pos =>
      unfold Float32.Model.unpack at hUnpacked
      rw [unpack_eq_ofParts] at hUnpacked
      rcases canonical_ofParts hUnpacked with
        ⟨hBelow, ⟨hLeast, -⟩, hCanonical⟩
      exact ⟨_, Denotes.finite sign mantissa exponent pos
        hBelow hLeast hCanonical rfl⟩

/- The negative of a float, unpacked. -/
theorem unpack_neg
    (x : Float32) :
    (-x).toModel.unpack = x.toModel.unpack.neg := by
  by_cases hFinite : x.isFinite = true
  · rcases hasValue_of_isFinite hFinite with ⟨value, hX⟩
    exact (Denotes.neg hX).unpack_pack
      (by rw [abs_neg]; exact hX.abs_lt)
  · change ¬x.toModel.unpack.isFinite = true at hFinite
    change
      UnpackedFloat.unpack Format.binary32
          (UnpackedFloat.pack Format.binary32
            x.toModel.unpack.neg) =
        x.toModel.unpack.neg
    generalize x.toModel.unpack = unpacked at hFinite ⊢
    cases unpacked with
    | notANumber => rfl
    | infinity sign => cases sign <;> rfl
    | zero sign => exact absurd rfl hFinite
    | finite sign mantissa exponent pos =>
        exact absurd rfl hFinite

/- Packing a float that was unpacked gives it back. -/
theorem pack_unpack
    (x : Float32) :
    Float32.ofModel (.pack x.toModel.unpack) = x := by
  rcases x with ⟨bits, hValid⟩
  have hBits :
      UnpackedFloat.pack Format.binary32
          (UnpackedFloat.unpack Format.binary32
            bits.toBitVec) =
        bits.toBitVec :=
    pack_unpack_of_valid hValid
  simp only [Float32.Model.pack, Float32.Model.unpack, hBits]

/- Changing the sign twice changes nothing. -/
theorem unpacked_neg_neg
    (unpacked : UnpackedFloat) :
    unpacked.neg.neg = unpacked := by
  cases unpacked with
  | notANumber => rfl
  | infinity sign => cases sign <;> rfl
  | zero sign => cases sign <;> rfl
  | finite sign => cases sign <;> rfl

/- The negative of the negative is the float itself. -/
theorem neg_neg
    (x : Float32) :
    - -x = x := by
  have hNegative :
      - -x =
        Float32.ofModel
          (.pack (-x).toModel.unpack.neg) :=
    rfl
  rw [hNegative, unpack_neg, unpacked_neg_neg, pack_unpack]

/- A negative is finite if the float is. -/
theorem isFinite_neg
    (x : Float32) :
    (-x).isFinite = x.isFinite := by
  change
    (-x).toModel.unpack.isFinite = x.toModel.unpack.isFinite
  rw [unpack_neg]
  cases x.toModel.unpack <;> rfl

/-
  Both signs of a finite float are packed with the same
  exponent and the same fraction.
-/
theorem exists_pack_finite
    (mantissa : Nat)
    (exponent : Int)
    (pos : 0 < mantissa) :
    ∃ biased fraction,
      ∀ sign,
        UnpackedFloat.pack Format.binary32
            (.finite sign mantissa exponent pos) =
          packComponents Format.binary32 sign biased
            fraction := by
  unfold UnpackedFloat.pack
  dsimp only
  split
  · exact ⟨_, _, fun _ => rfl⟩
  · split
    · exact ⟨_, _, fun _ => rfl⟩
    · exact ⟨_, _, fun _ => rfl⟩

/- The negative of what is packed, overflow included. -/
theorem neg_pack
    (unpacked : UnpackedFloat) :
    -Float32.ofModel (.pack unpacked) =
      Float32.ofModel (.pack unpacked.neg) := by
  cases unpacked with
  | notANumber => rfl
  | infinity sign => cases sign <;> rfl
  | zero sign => cases sign <;> rfl
  | finite sign mantissa exponent pos =>
      rcases exists_pack_finite mantissa exponent pos with
        ⟨biased, fraction, hPack⟩
      have hUnpack (sign : Sign) :
          (Float32.ofModel
              (.pack
                (.finite sign mantissa exponent
                  pos))).toModel.unpack =
            ofParts sign biased fraction :=
        (congrArg (UnpackedFloat.unpack Format.binary32)
          (hPack sign)).trans
          (unpack_packComponents sign biased fraction)
      have hNegative :
          (ofParts sign biased fraction).neg =
            ofParts (-sign) biased fraction := by
        unfold ofParts
        repeat' split
        all_goals rfl
      calc
        -Float32.ofModel
              (.pack (.finite sign mantissa exponent pos)) =
            .ofModel
              (.pack (ofParts sign biased fraction).neg) := by
          rw [← hUnpack]
          rfl
        _ =
            .ofModel
              (.pack (.finite (-sign) mantissa exponent
                pos)) := by
          rw [hNegative, ← hUnpack, pack_unpack]

------------------------------------------------------------
-- Differences
------------------------------------------------------------

/- Numbers of either sign are rounded alike. -/
theorem normalize_neg
    {count : Int}
    (hCount : count ≠ 0)
    (unit : Int) :
    UnpackedFloat.normalize Format.binary32 (-count) unit
        .positive =
      (UnpackedFloat.normalize Format.binary32 count unit
        .positive).neg := by
  have hRound (size : Nat) :
      UnpackedFloat.round Format.binary32 .negative size
          unit =
        (UnpackedFloat.round Format.binary32 .positive size
          unit).neg :=
    roundWithAccuracy_negative _ _ _
  unfold UnpackedFloat.normalize
  rcases lt_or_gt_of_ne hCount with hNeg | hPos
  · rw [compare_lt_iff_lt.mpr hNeg,
      compare_gt_iff_gt.mpr (by omega : -count > 0)]
    dsimp only
    rw [hRound, unpacked_neg_neg]
  · rw [compare_gt_iff_gt.mpr hPos,
      compare_lt_iff_lt.mpr (by omega : -count < 0)]
    dsimp only
    rw [hRound, Int.neg_neg]

/-
  A difference with its operands exchanged is the negative
  one, or both are zero.
-/
theorem unpacked_sub_swap
    (first second : UnpackedFloat) :
    UnpackedFloat.sub Format.binary32 second first =
        (UnpackedFloat.sub Format.binary32 first
          second).neg ∨
      (∃ sign,
        UnpackedFloat.sub Format.binary32 first second =
          .zero sign) ∧
        ∃ sign,
          UnpackedFloat.sub Format.binary32 second first =
            .zero sign := by
  cases first with
  | notANumber => exact Or.inl (by cases second <;> rfl)
  | infinity sign =>
      refine Or.inl ?_
      cases second with
      | infinity sign' =>
          cases sign <;> cases sign' <;> rfl
      | notANumber => rfl
      | zero => rfl
      | finite => rfl
  | zero sign =>
      cases second with
      | notANumber => exact Or.inl rfl
      | infinity sign' =>
          exact Or.inl (by cases sign' <;> rfl)
      | zero sign' =>
          refine Or.inr ?_
          cases sign <;> cases sign' <;>
            exact ⟨⟨_, rfl⟩, _, rfl⟩
      | finite sign' =>
          exact Or.inl (by cases sign' <;> rfl)
  | finite sign mantissa exponent pos =>
      cases second with
      | notANumber => exact Or.inl rfl
      | infinity sign' =>
          exact Or.inl (by cases sign' <;> rfl)
      | zero sign' => exact Or.inl rfl
      | finite sign' mantissa' exponent' pos' =>
          unfold UnpackedFloat.sub
          dsimp only [decreaseExponent]
          rw [Int.min_comm exponent' exponent]
          generalize min exponent exponent' = lesser
          generalize sign.apply _ = count
          generalize sign'.apply _ = count'
          by_cases hSame : count = count'
          · rw [hSame, Int.sub_self]
            exact Or.inr ⟨⟨_, rfl⟩, _, rfl⟩
          · refine Or.inl ?_
            rw [← Int.neg_sub count count']
            exact normalize_neg (by omega) lesser

/-
  A difference with its operands exchanged is the negative
  one, or both are zero.
-/
theorem sub_swap
    (x y : Float32) :
    y - x = -(x - y) ∨
      ((x - y == 0.0) = true ∧ (y - x == 0.0) = true) := by
  have hSub (x y : Float32) :
      x - y =
        .ofModel
          (.pack
            (UnpackedFloat.sub Format.binary32
              x.toModel.unpack y.toModel.unpack)) :=
    rfl
  have hZero (sign : Sign) :
      (Float32.ofModel (.pack (.zero sign)) == 0.0) =
        true := by
    cases sign <;> decide
  rw [hSub x y, hSub y x]
  rcases unpacked_sub_swap x.toModel.unpack
      y.toModel.unpack with
    hNegative | ⟨⟨sign, hFirst⟩, sign', hSecond⟩
  · rw [hNegative, neg_pack]
    exact Or.inl rfl
  · rw [hFirst, hSecond]
    exact Or.inr ⟨hZero sign, hZero sign'⟩

end Binary32

end PagedRaster
