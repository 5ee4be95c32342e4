import PagedRaster.Proofs.Format.RoundTrip
import PagedRaster.Proofs.Fragment.WriteMask
import PagedRaster.Proofs.Triangle.Weights

/-
  This file says which alpha the test sees on a triangle
  whose vertices have one alpha byte.  The weighted sum is
  rounded at every step and cut to a whole number in the
  end, so the test sees the byte or one less.  A draw whose
  reference is the byte may therefore leave out pixels,
  while one whose reference is below it draws them all.

  Key definitions include:
    * `Triangle.FlatAlpha`
    * `Triangle.seenAlpha`
    * `DrawState.withAlphaTest`
    * `DrawState.drawnUnder`, `DrawState.drawnWhere`

  Key theorems include:
    * `Fragment.exists_weighted`
    * `Triangle.seenAlpha_of_balanced`
    * `Triangle.seenAlpha_of_zero`
    * `DrawState.drawnUnder_eq`
    * `DrawState.drawnUnder_congr`
    * `DrawState.drawnUnder_of_flatAlpha`
-/

namespace PagedRaster

open Binary32 (HasValue Representable RoundsTo Within)

------------------------------------------------------------
-- Weighted Sums
------------------------------------------------------------

/- A channel is nearly its part of the greatest byte. -/
theorem Color.exists_ofByte
    (field : UInt32) :
    ∃ value,
      HasValue (ofByte field) value ∧ 0 ≤ value ∧
        value ≤ 1 ∧
        |value - (field &&& 0xFF).toNat / 255| ≤
          1 / 2 ^ 23 := by
  have hByte : (field &&& 0xFF).toNat ≤ 255 := by
    rw [UInt32.toNat_and]
    exact Nat.and_le_right
  have hMost : HasValue 255.0 (255 : Nat) :=
    Binary32.hasValue_maxByte
  exact Binary32.exists_fraction hMost (by decide)
    (by decide) hByte

namespace Fragment

/- One step of a weighted sum, rounded twice. -/
theorem exists_weightedStep
    {sum weight x : Float32}
    {s w v : ℚ}
    (hSum : HasValue sum s ∧ 0 ≤ s)
    (hWeight : HasValue weight w ∧ 0 ≤ w)
    (hX : HasValue x v ∧ 0 ≤ v)
    (hSmall : s + w * v ≤ 3 / 2) :
    ∃ next,
      (HasValue (sum + weight * x) next ∧ 0 ≤ next) ∧
        |next - (s + w * v)| ≤ 1 / 2 ^ 22 := by
  have hPart : 0 ≤ w * v := mul_nonneg hWeight.2 hX.2
  have hNonneg := hSum.2
  rcases hWeight.1.mul hX.1
      (by rw [abs_of_nonneg hPart]; linarith) with
    ⟨part, hRounds, hProduct⟩
  have hPartPos := hRounds.nonneg hPart
  have hNear :=
    hRounds.near (by decide : -149 ≤ (-23 : Int)) hPart
      (by norm_num; linarith)
  rw [abs_le] at hNear
  norm_num at hNear
  have hTotal : 0 ≤ s + part := add_nonneg hNonneg hPartPos
  rcases hSum.1.add hProduct
      (by rw [abs_of_nonneg hTotal]; linarith) with
    ⟨next, hRounds', hNext⟩
  have hNear' :=
    hRounds'.near (by decide : -149 ≤ (-23 : Int)) hTotal
      (by norm_num; linarith)
  rw [abs_le] at hNear'
  norm_num at hNear'
  refine ⟨next, ⟨hNext, hRounds'.nonneg hTotal⟩, ?_⟩
  rw [abs_le]
  constructor <;> norm_num <;> linarith

/- The mean of one value is nearly this value. -/
theorem exists_weighted
    {hit : Hit}
    (hBalanced : hit.Balanced)
    {x : Float32}
    {v : ℚ}
    (hX : HasValue x v ∧ 0 ≤ v)
    (hUnit : v ≤ 1) :
    ∃ mean,
      (HasValue (weighted hit x x x) mean ∧ 0 ≤ mean) ∧
        |mean - v| ≤ v / 256 + 3 / 2 ^ 22 := by
  rcases hBalanced with ⟨p, q, r, hA, hB, hC, hSum⟩
  have hZero := Binary32.hasValue_zero
  have hP : p * v ≤ p := mul_le_of_le_one_right hA.2 hUnit
  have hQ : q * v ≤ q := mul_le_of_le_one_right hB.2 hUnit
  have hR : r * v ≤ r := mul_le_of_le_one_right hC.2 hUnit
  have hPNonneg := hA.2
  have hQNonneg := hB.2
  have hRNonneg := hC.2
  have hWhole :
      |(p * v + q * v + r * v) - v| ≤ v / 256 := by
    have hFactor :
        (p * v + q * v + r * v) - v =
          (p + q + r - 1) * v := by
      ring
    rw [hFactor, abs_mul, abs_of_nonneg hX.2]
    have hScaled := mul_le_mul_of_nonneg_right hSum hX.2
    linarith
  rw [abs_le] at hSum hWhole
  rcases exists_weightedStep ⟨hZero, le_refl 0⟩ hA hX
      (by linarith) with ⟨s, hS, hNear⟩
  rw [abs_le] at hNear
  norm_num at hNear
  rcases exists_weightedStep hS hB hX (by linarith) with
    ⟨s', hS', hNear'⟩
  rw [abs_le] at hNear'
  norm_num at hNear'
  rcases exists_weightedStep hS' hC hX (by linarith) with
    ⟨mean, hMean, hNear''⟩
  rw [abs_le] at hNear''
  norm_num at hNear''
  refine ⟨mean, hMean, ?_⟩
  rw [abs_le]
  constructor <;> norm_num <;> linarith

end Fragment

/- The whole part of a number near an integer. -/
theorem floor_cases
    {value : ℚ}
    {n : Nat}
    (hNonneg : 0 ≤ value)
    (hLow : (n : ℚ) - 1 ≤ value)
    (hHigh : value < n + 1) :
    ⌊value⌋₊ = n ∨ ⌊value⌋₊ + 1 = n := by
  have hLt : ⌊value⌋₊ < n + 1 := by
    rw [Nat.floor_lt hNonneg]
    push_cast
    exact hHigh
  have hGe : n < ⌊value⌋₊ + 2 := by
    have hNext := Nat.lt_floor_add_one value
    have hCast : (n : ℚ) < (⌊value⌋₊ + 2 : Nat) := by
      push_cast
      linarith
    exact_mod_cast hCast
  omega

/- The byte that is seen of a value close to a byte. -/
theorem toNat_quantizeAlpha_cases
    {x : Float32}
    {value : ℚ}
    (hX : HasValue x value ∧ 0 ≤ value)
    {n : Nat}
    (hByte : n ≤ 255)
    (hLow : (n : ℚ) - 1 ≤ value * 255)
    (hHigh : value * 255 ≤ n + 511 / 512) :
    (quantizeAlpha x).toNat = n ∨
      (quantizeAlpha x).toNat + 1 = n := by
  have hByte' : (n : ℚ) ≤ 255 := by exact_mod_cast hByte
  have hCut := hX.1.clampUnit hX.2
  have hScaled : 0 ≤ min value 1 * 255 :=
    mul_nonneg (le_min hX.2 zero_le_one) (by norm_num)
  have hMost : min value 1 * 255 ≤ 255 := by
    have hLe := min_le_right value 1
    linarith
  have hBelow : min value 1 * 255 ≤ n + 511 / 512 := by
    have hLe := min_le_left value 1
    linarith
  have hAbove : (n : ℚ) - 1 ≤ min value 1 * 255 := by
    rw [min_mul_of_nonneg _ _ (by norm_num)]
    exact le_min hLow (by linarith)
  rcases hCut.mul Binary32.hasValue_maxByte
      (by rw [abs_of_nonneg hScaled]; linarith) with
    ⟨product, hRounds, hProduct⟩
  have hNonneg := hRounds.nonneg hScaled
  -- Both bounds are representable, so rounding keeps them.
  have hFloor : (n : ℚ) - 1 ≤ product := by
    apply hRounds.ge _ _ hAbove
    have hWhole :=
      Binary32.representable_abs_intCast
        (abs_lt.mpr ⟨by omega, by omega⟩ :
          |(n : Int) - 1| < 2 ^ 24)
    push_cast at hWhole
    exact hWhole
  have hCeil : product ≤ n + 511 / 512 := by
    apply hRounds.le _ _ hBelow
    have hUnits :=
      Binary32.representable_abs_units
        (abs_lt.mpr ⟨by omega, by omega⟩ :
          |512 * (n : Int) + 511| < 2 ^ 24)
        (by decide : (-149 : Int) ≤ -9)
    have hSame :
        ((512 * (n : Int) + 511 : Int) : ℚ) *
            2 ^ (-9 : Int) =
          n + 511 / 512 := by
      push_cast
      norm_num
      ring
    rwa [hSame] at hUnits
  have hSeen :
      (quantizeAlpha x).toNat = ⌊product⌋₊ :=
    hProduct.toNat_toUInt32 hNonneg (by linarith)
  rw [hSeen]
  exact floor_cases hNonneg hFloor (by linarith)

/- Of no alpha, none is seen, whatever the weights are. -/
theorem quantizeAlpha_weighted_zero
    (hit : Hit)
    {x : Float32}
    (hX : HasValue x 0) :
    quantizeAlpha (Fragment.weighted hit x x x) = 0 := by
  have hPart (weight : Float32) : Within (weight * x) 0 :=
    hX.within_mul_zero weight
  have hStart : Within 0.0 0 :=
    Or.inr ⟨0, Binary32.hasValue_zero.holds (le_refl 0),
      le_refl 0⟩
  have hByte : Within 255.0 255 :=
    Or.inr ⟨255,
      Binary32.hasValue_maxByte.holds (by norm_num),
      le_refl 255⟩
  have hNone := Binary32.representable_zero
  have hStep {sum part : Float32}
      (hSum : Within sum 0)
      (hPart : Within part 0) :
      Within (sum + part) 0 :=
    hSum.add hPart (add_zero 0).le hNone (by norm_num)
  have hMean : Within (Fragment.weighted hit x x x) 0 :=
    hStep (hStep (hStep hStart (hPart _)) (hPart _))
      (hPart _)
  have hScaled :=
    hMean.clampUnit.mul hByte (zero_mul 255).le hNone
      (by norm_num)
  have hWord : (quantizeAlpha _).toNat ≤ 0 :=
    hScaled.toNat_toUInt32_le (by norm_num)
  exact UInt32.toNat_inj.mp (Nat.le_zero.mp hWord)

------------------------------------------------------------
-- Flat Alpha
------------------------------------------------------------

namespace Triangle

/- All vertices of a triangle have one alpha byte. -/
def FlatAlpha
    (t : Triangle)
    (alpha : UInt32) : Prop :=
  ∀ v ∈ t.vertices, v.color >>> 24 = alpha

/- The alpha that the test sees at a covered pixel. -/
def seenAlpha
    (t : Triangle)
    (hit : Hit) : UInt32 :=
  quantizeAlpha (Fragment.interpolate t hit).color.a

section FlatAlpha

variable {t : Triangle}
variable {alpha : UInt32}

/- The alpha of such a triangle is a mean of one channel. -/
theorem FlatAlpha.seenAlpha_eq
    (hFlat : t.FlatAlpha alpha)
    (hit : Hit) :
    t.seenAlpha hit =
      quantizeAlpha
        (Fragment.weighted hit (Color.ofByte alpha)
          (Color.ofByte alpha) (Color.ofByte alpha)) := by
  have hChannels :
      ∀ v ∈ t.vertices, v.rgba.a = Color.ofByte alpha :=
    fun v hv => congrArg Color.ofByte (hFlat v hv)
  rcases forall_mem_vertices.mp hChannels with
    ⟨hA, hB, hC⟩
  unfold seenAlpha Fragment.interpolate
  dsimp only
  rw [hA, hB, hC]

/- An alpha byte is a byte. -/
theorem FlatAlpha.toNat_le
    (hFlat : t.FlatAlpha alpha) :
    alpha.toNat ≤ 255 := by
  have hFirst := (forall_mem_vertices.mp hFlat).1
  have hWord := t.a.color.toNat_lt
  have hShifted :
      (t.a.color >>> 24).toNat = t.a.color.toNat >>> 24 :=
    rfl
  rw [← hFirst, hShifted, Nat.shiftRight_eq_div_pow]
  omega

/- So it is not cut. -/
theorem FlatAlpha.toNat_and
    (hFlat : t.FlatAlpha alpha) :
    (alpha &&& 0xFF).toNat = alpha.toNat := by
  have hByte := hFlat.toNat_le
  have hMask : (0xFF : UInt32).toNat = 2 ^ 8 - 1 := rfl
  rw [UInt32.toNat_and, hMask,
    Nat.and_two_pow_sub_one_eq_mod]
  exact Nat.mod_eq_of_lt (by omega)

/- At a balanced pixel, the byte is seen or one less. -/
theorem seenAlpha_of_balanced
    (hFlat : t.FlatAlpha alpha)
    {hit : Hit}
    (hBalanced : hit.Balanced) :
    t.seenAlpha hit = alpha ∨
      (t.seenAlpha hit).toNat + 1 = alpha.toNat := by
  have hByte := hFlat.toNat_le
  have hByte' : (alpha.toNat : ℚ) ≤ 255 := by
    exact_mod_cast hByte
  rcases Color.exists_ofByte alpha with
    ⟨v, hV, hPos, hUnit, hNear⟩
  rw [hFlat.toNat_and] at hNear
  rcases Fragment.exists_weighted hBalanced ⟨hV, hPos⟩
      hUnit with ⟨mean, hMean, hNearMean⟩
  rw [abs_le] at hNear hNearMean
  norm_num at hNear hNearMean
  have hSeen :=
    toNat_quantizeAlpha_cases hMean hByte (by linarith)
      (by linarith)
  rw [hFlat.seenAlpha_eq]
  exact hSeen.imp_left UInt32.toNat_inj.mp

/- So no greater byte is seen, and none that is far less. -/
theorem seenAlpha_bounds
    (hFlat : t.FlatAlpha alpha)
    {hit : Hit}
    (hBalanced : hit.Balanced) :
    t.seenAlpha hit ≤ alpha ∧
      alpha.toNat ≤ (t.seenAlpha hit).toNat + 1 := by
  rw [UInt32.le_iff_toNat_le]
  rcases seenAlpha_of_balanced hFlat hBalanced with
    hSame | hLess
  · rw [hSame]
    omega
  · omega

/- Where the vertices have no alpha, none is seen. -/
theorem seenAlpha_of_zero
    (hFlat : t.FlatAlpha 0)
    (hit : Hit) :
    t.seenAlpha hit = 0 := by
  have hZero : HasValue (Color.ofByte 0) 0 :=
    Binary32.Denotes.zero .positive rfl
  rw [hFlat.seenAlpha_eq]
  exact quantizeAlpha_weighted_zero hit hZero

end FlatAlpha

end Triangle

------------------------------------------------------------
-- Draws
------------------------------------------------------------

namespace DrawState

/- A draw that is like another one but for its alpha test. -/
def withAlphaTest
    (state : DrawState)
    (test : AlphaTest) : DrawState :=
  { state with
    descriptor := { state.descriptor with
      alphaTest := test } }

/- The memory after a draw with this alpha test. -/
def drawnUnder
    (state : DrawState)
    (scissor : Scissor)
    (memory : Memory)
    (t : Triangle)
    (test : AlphaTest) : Memory :=
  (state.withAlphaTest test).drawTriangle scissor memory t

/-
  The memory after a draw without alpha test of some of the
  pixels that a triangle covers.
-/
def drawnWhere
    (state : DrawState)
    (scissor : Scissor)
    (memory : Memory)
    (t : Triangle)
    (selected : Hit → Bool) : Memory :=
  ((t.hits scissor).filter selected).foldl
    (fun memory hit =>
      ((state.withAlphaTest .always).shade memory
        (Fragment.interpolate t hit)).2)
    memory

section Draws

variable {state : DrawState}
variable (hPlain : state.descriptor.textured = false)
variable (scissor : Scissor)
variable (memory : Memory)
variable (t : Triangle)

include hPlain

/- The alpha test keeps a fragment or drops it. -/
theorem shade_withAlphaTest
    (test : AlphaTest)
    (fragment : Fragment) :
    ((state.withAlphaTest test).shade memory fragment).2 =
      if test.passes (quantizeAlpha fragment.color.a)
          state.params.alphaReference then
        ((state.withAlphaTest .always).shade memory
          fragment).2
      else
        memory := by
  have hSource (test : AlphaTest) :
      (state.withAlphaTest test).sourceColor memory
          fragment =
        fragment.color := by
    unfold sourceColor
    exact if_neg (by rw [withAlphaTest, hPlain]; decide)
  have hTest (test : AlphaTest) :
      (state.withAlphaTest test).alphaPasses
          fragment.color =
        test.passes (quantizeAlpha fragment.color.a)
          state.params.alphaReference :=
    rfl
  unfold shade
  dsimp only
  rw [hSource, hSource, hTest, hTest]
  split
  · rfl
  · rfl

/- So a draw keeps the pixels whose alpha passes. -/
theorem drawnUnder_eq
    (test : AlphaTest) :
    state.drawnUnder scissor memory t test =
      state.drawnWhere scissor memory t fun hit =>
        test.passes (t.seenAlpha hit)
          state.params.alphaReference := by
  unfold drawnUnder drawTriangle drawnWhere
  rw [List.foldl_filter]
  congr 1
  funext memory hit
  exact shade_withAlphaTest hPlain memory test _

/- Tests that agree on what is seen draw the same. -/
theorem drawnUnder_congr
    {test other : AlphaTest}
    (hSame :
      ∀ hit ∈ t.hits scissor,
        test.passes (t.seenAlpha hit)
            state.params.alphaReference =
          other.passes (t.seenAlpha hit)
            state.params.alphaReference) :
    state.drawnUnder scissor memory t test =
      state.drawnUnder scissor memory t other := by
  rw [drawnUnder_eq hPlain, drawnUnder_eq hPlain]
  unfold drawnWhere
  rw [List.filter_congr hSame]

/- Without alpha, no test against none drops a pixel. -/
theorem drawnUnder_of_no_alpha
    (hFlat : t.FlatAlpha 0)
    (hReference : state.params.alphaReference = 0)
    (test : AlphaTest) :
    state.drawnUnder scissor memory t test =
      state.drawnUnder scissor memory t .always := by
  apply drawnUnder_congr hPlain
  intro hit _
  rw [Triangle.seenAlpha_of_zero hFlat, hReference]
  cases test <;> rfl

/- A test that nothing passes leaves the memory. -/
theorem drawnUnder_of_fails
    {test : AlphaTest}
    (hFails :
      ∀ hit ∈ t.hits scissor,
        test.passes (t.seenAlpha hit)
            state.params.alphaReference =
          false) :
    state.drawnUnder scissor memory t test = memory := by
  rw [drawnUnder_eq hPlain]
  unfold drawnWhere
  have hNone :
      ((t.hits scissor).filter fun hit =>
        test.passes (t.seenAlpha hit)
          state.params.alphaReference) = [] := by
    rw [List.filter_eq_nil_iff]
    intro hit hMem
    rw [hFails hit hMem]
    exact Bool.false_ne_true
  rw [hNone]
  rfl

end Draws

section Balanced

variable {state : DrawState}
variable (hPlain : state.descriptor.textured = false)
variable {t : Triangle}
variable {alpha : UInt32}
variable (hFlat : t.FlatAlpha alpha)
variable {scissor : Scissor}
variable
  (hBalanced : ∀ hit ∈ t.hits scissor, hit.Balanced)
variable (memory : Memory)

include hPlain hFlat hBalanced

/- Against the byte itself, both tests are the same. -/
theorem drawnUnder_of_reference_eq
    (hReference : state.params.alphaReference = alpha) :
    state.drawnUnder scissor memory t .greaterEqual =
      state.drawnUnder scissor memory t .equal := by
  apply drawnUnder_congr hPlain
  intro hit hMem
  have hLe :=
    (Triangle.seenAlpha_bounds hFlat
      (hBalanced hit hMem)).1
  rw [hReference]
  simp only [AlphaTest.passes, beq_eq_decide]
  exact decide_eq_decide.mpr
    ⟨fun hGe => UInt32.le_antisymm hLe hGe,
      fun hSame => hSame ▸ UInt32.le_refl _⟩

/- Against less than the byte, every pixel passes. -/
theorem drawnUnder_of_reference_lt
    (hBelow : state.params.alphaReference < alpha) :
    state.drawnUnder scissor memory t .greaterEqual =
      state.drawnUnder scissor memory t .always := by
  apply drawnUnder_congr hPlain
  intro hit hMem
  have hGe :=
    (Triangle.seenAlpha_bounds hFlat
      (hBalanced hit hMem)).2
  rw [UInt32.lt_iff_toNat_lt] at hBelow
  simp only [AlphaTest.passes, decide_eq_true_eq,
    UInt32.le_iff_toNat_le]
  omega

/- Against more than the byte, no pixel passes. -/
theorem drawnUnder_of_lt_reference
    (hAbove : alpha < state.params.alphaReference) :
    state.drawnUnder scissor memory t .greaterEqual =
      memory := by
  apply drawnUnder_of_fails hPlain
  intro hit hMem
  have hLe :=
    (Triangle.seenAlpha_bounds hFlat
      (hBalanced hit hMem)).1
  simp only [AlphaTest.passes, decide_eq_false_iff_not]
  exact UInt32.not_le.mpr
    (UInt32.lt_of_le_of_lt hLe hAbove)

end Balanced

/-
  On a triangle of one alpha byte, the test sees the byte or
  one less at every pixel whose weights add up to nearly
  one; these are all pixels if the corners lie at halves of
  integers of the draw area.  A draw with an alpha test is a
  draw without one of the pixels whose alpha passes.  So a
  reference that is the byte itself keeps the pixels at
  which the byte is seen, a smaller one keeps them all, and
  a greater one keeps none.  No alpha is seen as it is.
-/
theorem drawnUnder_of_flatAlpha
    {state : DrawState}
    (hPlain : state.descriptor.textured = false)
    {t : Triangle}
    {alpha : UInt32}
    (hFlat : t.FlatAlpha alpha)
    (scissor : Scissor)
    (memory : Memory) :
    let reference := state.params.alphaReference
    let drawn := state.drawnUnder scissor memory t
    let drawnWhere := state.drawnWhere scissor memory t
    (∀ hit ∈ t.hits scissor, hit.Balanced →
        t.seenAlpha hit = alpha ∨
          (t.seenAlpha hit).toNat + 1 = alpha.toNat) ∧
      (t.OnHalves →
        ∀ hit ∈ t.hits scissor, hit.Balanced) ∧
      (∀ test,
        drawn test =
          drawnWhere fun hit =>
            test.passes (t.seenAlpha hit) reference) ∧
      ((∀ hit ∈ t.hits scissor, hit.Balanced) →
        (reference = alpha →
          drawn .greaterEqual = drawn .equal ∧
            drawn .equal =
              drawnWhere fun hit =>
                t.seenAlpha hit == alpha) ∧
          (reference < alpha →
            drawn .greaterEqual = drawn .always) ∧
          (alpha < reference →
            drawn .greaterEqual = memory)) ∧
      (alpha = 0 →
        (∀ hit ∈ t.hits scissor, t.seenAlpha hit = 0) ∧
          (reference = 0 →
            drawn .greaterEqual = drawn .always ∧
              drawn .equal = drawn .always)) := by
  intro reference drawn drawnWhere
  have hDrawn (test : AlphaTest) :
      drawn test =
        drawnWhere fun hit =>
          test.passes (t.seenAlpha hit) reference :=
    drawnUnder_eq hPlain scissor memory t test
  refine ⟨fun hit _ hBalanced =>
      Triangle.seenAlpha_of_balanced hFlat hBalanced,
    fun hHalves _ => Triangle.balanced_of_mem_hits hHalves,
    hDrawn, fun hBalanced => ⟨fun hReference => ⟨?_, ?_⟩,
      ?_, ?_⟩, ?_⟩
  · exact drawnUnder_of_reference_eq hPlain hFlat hBalanced
      memory hReference
  · rw [hDrawn, hReference]
    rfl
  · exact drawnUnder_of_reference_lt hPlain hFlat hBalanced
      memory
  · exact drawnUnder_of_lt_reference hPlain hFlat hBalanced
      memory
  · rintro rfl
    have hNone (hit : Hit) : t.seenAlpha hit = 0 :=
      Triangle.seenAlpha_of_zero hFlat hit
    exact ⟨fun hit _ => hNone hit, fun hReference =>
      ⟨drawnUnder_of_no_alpha hPlain scissor memory t hFlat
          hReference _,
        drawnUnder_of_no_alpha hPlain scissor memory t hFlat
          hReference _⟩⟩

------------------------------------------------------------
-- Lost Pixels
------------------------------------------------------------

/- A draw without a texture and with an alpha reference. -/
def referenceDraw
    (reference : UInt32) : DrawState where
  descriptor := {}
  params :=
    { frameWidth := 64
      alphaReference := reference }
  bank := SwizzleBank.rowMajor
  palette := Palette.blank

/- A vertex made white, with full alpha. -/
def white
    (v : Vertex) : Vertex :=
  { v with color := 0xFFFFFFFF }

/- A small white triangle. -/
def whiteWedge : Triangle where
  a := white (Vertex.onGrid 0 0)
  b := white (Vertex.onGrid 2 3)
  c := white (Vertex.onGrid 4 3)

/- A long one, so thin that its edges are rounded. -/
def whiteNeedle : Triangle where
  a := white { Vertex.zero with x := 0.625, y := 0.0625 }
  b := white { Vertex.zero with x := 753.75, y := 668.0625 }
  c := white { Vertex.zero with x := 344.5625, y := 305.125 }

/- A scissor of one pixel. -/
def onlyPixel
    (x y : UInt32) : Scissor :=
  ⟨x, y, 1, 1⟩

/- White vertices make up a triangle of full alpha. -/
theorem flatAlpha_white
    (u v w : Vertex) :
    Triangle.FlatAlpha ⟨white u, white v, white w⟩ 255 := by
  have hWhite (v : Vertex) :
      (white v).color >>> 24 = 255 := by
    change (0xFFFFFFFF : UInt32) >>> 24 = 255
    decide
  exact Triangle.forall_mem_vertices.mpr
    ⟨hWhite u, hWhite v, hWhite w⟩

/- One white pixel of the wedge is covered. -/
theorem whiteWedge_pixel :
    ∃ hit,
      whiteWedge.hits (onlyPixel 0 0) = [hit] ∧
        whiteWedge.seenAlpha hit = 254 ∧
        (Fragment.interpolate whiteWedge
            hit).color.toPixel32 =
          0xFFFFFFFF := by
  have hFacts :
      (whiteWedge.hits (onlyPixel 0 0)).map
          (fun hit =>
            (whiteWedge.seenAlpha hit,
              (Fragment.interpolate whiteWedge
                hit).color.toPixel32)) =
        [(254, 0xFFFFFFFF)] := by
    decide +kernel
  rcases List.map_eq_singleton_iff.mp hFacts with
    ⟨hit, hHits, hFact⟩
  exact ⟨hit, hHits, congrArg Prod.fst hFact,
    congrArg Prod.snd hFact⟩

/- Without an alpha test, it is stored. -/
theorem drawnUnder_whiteWedge_always :
    (referenceDraw 255).drawnUnder (onlyPixel 0 0)
        Memory.empty whiteWedge .always ≠
      Memory.empty := by
  rcases whiteWedge_pixel with ⟨hit, hHits, -, hWhite⟩
  let state := (referenceDraw 255).withAlphaTest .always
  let fragment := Fragment.interpolate whiteWedge hit
  have hDrawn :
      (referenceDraw 255).drawnUnder (onlyPixel 0 0)
          Memory.empty whiteWedge .always =
        (state.shade Memory.empty fragment).2 := by
    unfold drawnUnder drawTriangle
    rw [hHits]
    rfl
  have hCommits :
      state.commits Memory.empty fragment = true :=
    rfl
  have hColor :
      (state.shade Memory.empty fragment).1 =
        fragment.color :=
    rfl
  have hFrame :
      state.InFrame fragment.x fragment.y
        (Width.w32.start
          (state.frameAddress fragment.x fragment.y)) :=
    ⟨le_refl _, Nat.lt_add_of_pos_right (by decide)⟩
  have hStored := bit_shade_of_inFrame hCommits rfl hFrame
  have hPlace :
      state.pixelPlace fragment
          (Width.w32.start
            (state.frameAddress fragment.x fragment.y)) =
        0 :=
    Nat.sub_self _
  have hWord :
      state.descriptor.frame.encode fragment.color =
        0xFFFFFFFF :=
    hWhite
  have hMask : wordBit state.params.writeMask 0 = true := by
    decide
  rw [hPlace, hColor, hWord, if_pos hMask, ← hDrawn]
    at hStored
  intro hSame
  rw [hSame, Memory.bit_empty] at hStored
  exact absurd hStored (by decide)

/-
  A draw of full alpha, tested against full alpha, loses a
  pixel: the test sees one less.  On the needle it sees far
  less.
-/
theorem drawnUnder_whiteWedge_loses :
    whiteWedge.FlatAlpha 255 ∧
      (whiteWedge.hits (onlyPixel 0 0)).map
          whiteWedge.seenAlpha =
        [254] ∧
      (referenceDraw 255).drawnUnder (onlyPixel 0 0)
          Memory.empty whiteWedge .greaterEqual ≠
        (referenceDraw 255).drawnUnder (onlyPixel 0 0)
          Memory.empty whiteWedge .always ∧
      (referenceDraw 255).drawnUnder (onlyPixel 0 0)
          Memory.empty whiteWedge .equal ≠
        (referenceDraw 255).drawnUnder (onlyPixel 0 0)
          Memory.empty whiteWedge .always ∧
      whiteNeedle.FlatAlpha 255 ∧
      (whiteNeedle.hits (onlyPixel 641 568)).map
          whiteNeedle.seenAlpha =
        [175] := by
  rcases whiteWedge_pixel with ⟨hit, hHits, hSeen, -⟩
  have hNeedle :
      (whiteNeedle.hits (onlyPixel 641 568)).map
          whiteNeedle.seenAlpha =
        [175] := by
    decide +kernel
  have hLost
      (test : AlphaTest)
      (hTest : test.passes 254 255 = false) :
      (referenceDraw 255).drawnUnder (onlyPixel 0 0)
          Memory.empty whiteWedge test ≠
        (referenceDraw 255).drawnUnder (onlyPixel 0 0)
          Memory.empty whiteWedge .always := by
    have hPlain :
        (referenceDraw 255).descriptor.textured = false :=
      rfl
    have hFails :
        ∀ hit ∈ whiteWedge.hits (onlyPixel 0 0),
          test.passes (whiteWedge.seenAlpha hit) 255 =
            false := by
      rw [hHits, List.forall_mem_singleton, hSeen]
      exact hTest
    rw [drawnUnder_of_fails hPlain _ _ _ hFails]
    exact drawnUnder_whiteWedge_always.symm
  refine ⟨flatAlpha_white _ _ _, ?_, hLost _ rfl,
    hLost _ rfl, flatAlpha_white _ _ _, hNeedle⟩
  rw [hHits, List.map_singleton, hSeen]

/- The wedge has its corners at integers. -/
theorem onHalves_whiteWedge : whiteWedge.OnHalves := by
  have hCorner
      {x y : UInt32}
      (hX : x.toNat ≤ 1024)
      (hY : y.toNat ≤ 1024) :
      ∃ e, (white (Vertex.onGrid x y)).point.AtHalves e :=
    ⟨_, (Vertex.at_onGrid (by omega) (by omega)).atHalves
      ⟨x.toNat, y.toNat, hX, hY, rfl⟩⟩
  exact Triangle.forall_mem_vertices.mpr
    ⟨hCorner (by decide) (by decide),
      hCorner (by decide) (by decide),
      hCorner (by decide) (by decide)⟩

/- A reference of one less keeps the pixel. -/
theorem drawnUnder_of_flatAlpha_whiteWedge :
    (referenceDraw 254).descriptor.textured = false ∧
      whiteWedge.FlatAlpha 255 ∧
      whiteWedge.OnHalves ∧
      (referenceDraw 254).params.alphaReference < 255 ∧
      (referenceDraw 254).drawnUnder {} Memory.empty
          whiteWedge .greaterEqual =
        (referenceDraw 254).drawnUnder {} Memory.empty
          whiteWedge .always ∧
      (referenceDraw 255).drawnUnder {} Memory.empty
          whiteWedge .greaterEqual =
        (referenceDraw 255).drawnUnder {} Memory.empty
          whiteWedge .equal := by
  have hPlain (reference : UInt32) :
      (referenceDraw reference).descriptor.textured =
        false :=
    rfl
  have hFlat : whiteWedge.FlatAlpha 255 :=
    flatAlpha_white _ _ _
  have hBelow :
      (referenceDraw 254).params.alphaReference < 255 := by
    decide
  rcases drawnUnder_of_flatAlpha (hPlain 254) hFlat {}
      Memory.empty with ⟨-, hBalanced, -, hDraws, -⟩
  rcases drawnUnder_of_flatAlpha (hPlain 255) hFlat {}
      Memory.empty with ⟨-, -, -, hDraws', -⟩
  have hAll := hBalanced onHalves_whiteWedge
  exact ⟨rfl, hFlat, onHalves_whiteWedge, hBelow,
    (hDraws hAll).2.1 hBelow, ((hDraws' hAll).1 rfl).1⟩

end DrawState

end PagedRaster
