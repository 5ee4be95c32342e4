import PagedRaster.Fragment.Texture
import PagedRaster.Proofs.Binary32.Truncation

/-
  This file proves that a texel is fetched from where the
  wrap modes say.  On each axis the texture coordinate of a
  fragment, whatever float it is, is cut to a signed word,
  and the wrap mode of that axis brings the word into the
  bounds of that axis.

  Key definitions include:
    * `IsNearest`
    * `WrapMode.Places`
    * `WrapMode.Samples`

  Key theorems include:
    * `WrapMode.places_apply`
    * `WrapMode.apply_apply`
    * `DrawState.texelPlace_stays_inside`
-/

namespace PagedRaster

------------------------------------------------------------
-- Nearest Points
------------------------------------------------------------

/- A point of an interval, nearer than all of its others. -/
structure IsNearest
    (low high point nearest : Int) : Prop where
  low_le : low ≤ nearest
  le_high : nearest ≤ high
  nearer :
    ∀ other, low ≤ other → other ≤ high →
      other ≠ nearest →
        |point - nearest| < |point - other|

/- A point that is moved to the ends is the nearest one. -/
theorem isNearest_min_max
    {low high : Int}
    (hBounds : low ≤ high)
    (point : Int) :
    IsNearest low high point
      (min (max point low) high) where
  low_le := by omega
  le_high := by omega
  nearer other hLow hHigh hOther := by
    rw [Int.abs_eq_natAbs, Int.abs_eq_natAbs]
    omega

------------------------------------------------------------
-- Signed Words
------------------------------------------------------------

/- The smaller word has the smaller value. -/
theorem toInt_min
    (x y : Int32) :
    (min x y).toInt = min x.toInt y.toInt := by
  have hMin : min x y = if x ≤ y then x else y := rfl
  rw [hMin]
  split
  · rename_i hLe
    rw [Int32.le_iff_toInt_le] at hLe
    exact (Int.min_eq_left hLe).symm
  · rename_i hGt
    rw [Int32.le_iff_toInt_le] at hGt
    exact (Int.min_eq_right (by omega)).symm

/- The larger word has the larger value. -/
theorem toInt_max
    (x y : Int32) :
    (max x y).toInt = max x.toInt y.toInt := by
  have hMax : max x y = if x ≤ y then y else x := rfl
  rw [hMax]
  split
  · rename_i hLe
    rw [Int32.le_iff_toInt_le] at hLe
    exact (Int.max_eq_right hLe).symm
  · rename_i hGt
    rw [Int32.le_iff_toInt_le] at hGt
    exact (Int.max_eq_left (by omega)).symm

/- The word before a positive one is not wrapped. -/
theorem toInt_sub_one
    {size : Int32}
    (hSize : 1 ≤ size.toInt) :
    (size - 1).toInt = size.toInt - 1 := by
  have hOne : (1 : Int32).toInt = 1 := rfl
  have hMost := size.toInt_lt
  rw [Int32.toInt_sub, hOne]
  exact Int.bmod_eq_of_le (by omega) (by omega)

/- A bit of a signed word. -/
def signedBit
    (word : Int32)
    (k : Nat) : Bool :=
  wordBit word.toUInt32 k

/- The bits of a conjunction of signed words. -/
@[simp]
theorem signedBit_and
    (word other : Int32)
    (k : Nat) :
    signedBit (word &&& other) k =
      (signedBit word k && signedBit other k) :=
  wordBit_and word.toUInt32 other.toUInt32 k

/- The bits of a disjunction of signed words. -/
@[simp]
theorem signedBit_or
    (word other : Int32)
    (k : Nat) :
    signedBit (word ||| other) k =
      (signedBit word k || signedBit other k) :=
  wordBit_or word.toUInt32 other.toUInt32 k

/- Signed words with equal bits are equal. -/
theorem eq_of_signedBit_eq
    {word other : Int32}
    (hBits : ∀ k, signedBit word k = signedBit other k) :
    word = other :=
  congrArg UInt32.toInt32 (eq_of_wordBit_eq hBits)

/- The low bits of a signed word, as a value. -/
theorem toInt_and_sub_one
    (coord : Int32)
    {size : Int32}
    {n : Nat}
    (hn : n ≤ 30)
    (hSize : size.toInt = 2 ^ n) :
    (coord &&& (size - 1)).toInt =
      coord.toInt % size.toInt := by
  have hPos : 0 < 2 ^ n := Nat.two_pow_pos n
  have hMost : 2 ^ n ≤ 2 ^ 30 :=
    Nat.pow_le_pow_right (by decide) hn
  have hNat : ((2 ^ n : Nat) : Int) = 2 ^ n :=
    Nat.cast_pow 2 n
  have hMask : (size - 1).toUInt32.toNat = 2 ^ n - 1 := by
    have hWord := toNat_toUInt32 (size - 1)
    rw [toInt_sub_one (by omega), hSize] at hWord
    omega
  have hAnd :=
    toNat_toUInt32_and coord (by omega : n ≤ 32) hMask
  -- The mask has no sign bit, so what it keeps is the same
  -- number signed and unsigned.
  have hSmall :
      (coord.toUInt32 &&& (size - 1).toUInt32).toNat <
        2147483648 := by
    have hLe := Nat.and_le_right
      (n := coord.toUInt32.toNat)
      (m := (size - 1).toUInt32.toNat)
    rw [UInt32.toNat_and]
    omega
  have hSame :
      coord &&& (size - 1) =
        (coord.toUInt32 &&& (size - 1).toUInt32).toInt32 :=
    rfl
  rw [hSame, toInt_toInt32_of_lt hSmall, hAnd, hSize, hNat]

------------------------------------------------------------
-- Wrap Modes
------------------------------------------------------------

namespace WrapMode

/-
  What a wrap mode says of the word that takes the place of
  a coordinate.
-/
def Places
    (mode : WrapMode)
    (coord size low high placed : Int32) : Prop :=
  match mode with
  | .wrap =>
      ∀ n ≤ 30, size.toInt = 2 ^ n →
        0 ≤ placed.toInt ∧ placed.toInt < size.toInt ∧
          placed.toInt ≡ coord.toInt [ZMOD size.toInt]
  | .clamp =>
      1 ≤ size.toInt →
        IsNearest 0 (size.toInt - 1) coord.toInt
          placed.toInt
  | .regionClamp =>
      (low.toInt ≤ high.toInt →
        IsNearest low.toInt high.toInt coord.toInt
          placed.toInt) ∧
        (high.toInt < low.toInt → placed = high)
  | .regionRepeat =>
      ∀ k,
        (signedBit high k = true →
          signedBit placed k = true) ∧
        (signedBit placed k = true →
          signedBit low k = true ∨
            signedBit high k = true) ∧
        (signedBit low k = true →
          signedBit high k = false →
            signedBit placed k = signedBit coord k)

/- A wrap mode places words as it says. -/
theorem places_apply
    (mode : WrapMode)
    (coord size low high : Int32) :
    mode.Places coord size low high
      (mode.apply coord size low high) := by
  cases mode with
  | wrap =>
      intro n hn hSize
      have hPos : (0 : Int) < 2 ^ n := by positivity
      have hPlaced := toInt_and_sub_one coord hn hSize
      rw [apply, hPlaced]
      refine ⟨Int.emod_nonneg _ (by omega),
        Int.emod_lt_of_pos _ (by omega),
        Int.mod_modEq _ _⟩
  | clamp =>
      intro hSize
      have hZero : (0 : Int32).toInt = 0 := rfl
      rw [apply, toInt_min, toInt_max, toInt_sub_one hSize,
        hZero]
      exact isNearest_min_max (by omega) coord.toInt
  | regionClamp =>
      constructor
      · intro hBounds
        rw [apply, toInt_min, toInt_max]
        exact isNearest_min_max hBounds coord.toInt
      · intro hInverted
        apply Int32.toInt_inj.mp
        rw [apply, toInt_min, toInt_max]
        omega
  | regionRepeat =>
      intro k
      rw [apply, signedBit_or, signedBit_and]
      refine ⟨?_, ?_, ?_⟩
      · intro hHigh
        rw [hHigh, Bool.or_true]
      · intro hPlaced
        rw [Bool.or_eq_true, Bool.and_eq_true] at hPlaced
        exact hPlaced.imp_left And.right
      · intro hLow hHigh
        rw [hLow, hHigh, Bool.and_true, Bool.or_false]

/- Moving a word into bounds twice changes nothing more. -/
theorem min_max_min_max
    (coord low high : Int32) :
    min (max (min (max coord low) high) low) high =
      min (max coord low) high := by
  apply Int32.toInt_inj.mp
  simp only [toInt_min, toInt_max]
  omega

/- A word that has its place keeps it. -/
theorem apply_apply
    (mode : WrapMode)
    (coord size low high : Int32) :
    mode.apply (mode.apply coord size low high) size low
        high =
      mode.apply coord size low high := by
  cases mode with
  | wrap =>
      apply eq_of_signedBit_eq
      intro k
      simp only [apply, signedBit_and, Bool.and_assoc,
        Bool.and_self]
  | clamp => exact min_max_min_max coord 0 (size - 1)
  | regionClamp => exact min_max_min_max coord low high
  | regionRepeat =>
      apply eq_of_signedBit_eq
      intro k
      simp only [apply, signedBit_or, signedBit_and]
      cases signedBit low k <;> cases signedBit high k <;>
        simp

/-
  A word is sampled at a float texture coordinate: the float
  is cut to a word, and that is placed.
-/
def Samples
    (mode : WrapMode)
    (position : Float32)
    (size low high sampled : Int32) : Prop :=
  ∃ coord : Int32,
    Binary32.Truncates position coord.toInt ∧
      mode.Places coord size low high sampled

/- A wrap mode samples at every float. -/
theorem samples_apply
    (mode : WrapMode)
    (position : Float32)
    (size low high : Int32) :
    mode.Samples position size low high
      (mode.apply (Binary32.toInt32 position) size low
        high) :=
  ⟨Binary32.toInt32 position,
    Binary32.truncates_toInt32 position,
    mode.places_apply _ size low high⟩

end WrapMode

------------------------------------------------------------
-- Fetched Texels
------------------------------------------------------------

namespace DrawState

/-
  A textured fragment fetches its texel from a place that
  the wrap modes allow, whatever floats its texture
  coordinate is made of: the horizontal place by the width
  and the horizontal bounds, the vertical one by the height
  and the vertical bounds.  To place a word that has its
  place changes nothing, under every mode and all bounds.
-/
theorem texelPlace_stays_inside
    (state : DrawState)
    (fragment : Fragment) :
    let d := state.descriptor
    let p := state.params
    let width := p.textureWidth.toInt32
    let height := p.textureHeight.toInt32
    ∃ u v : Int32,
      (∀ memory,
        state.texturedColor memory fragment =
          d.textureFunction.combine d.textureHasAlpha
            (state.expandAlpha (state.texel memory u v))
            fragment.color) ∧
      state.texelPlace fragment = (u, v) ∧
      d.wrapU.Samples
        (fragment.s / fragment.q * Binary32.ofInt32 width)
        width p.lowU.toInt32 p.highU.toInt32 u ∧
      d.wrapV.Samples
        (fragment.t / fragment.q * Binary32.ofInt32 height)
        height p.lowV.toInt32 p.highV.toInt32 v ∧
      ∀ (mode : WrapMode) (coord size low high : Int32),
        mode.apply (mode.apply coord size low high) size low
            high =
          mode.apply coord size low high := by
  intro d p width height
  exact ⟨_, _, fun _ => rfl, rfl,
    d.wrapU.samples_apply _ width _ _,
    d.wrapV.samples_apply _ height _ _,
    WrapMode.apply_apply⟩

/- A texture of 64 by 32 texels with a region of rows. -/
def bandedTexture : DrawState where
  descriptor :=
    { textured := true
      wrapU := .wrap
      wrapV := .regionClamp }
  params :=
    { textureBufferWidth := 64
      textureWidth := 64
      textureHeight := 32
      lowV := 4
      highV := 27 }
  bank := SwizzleBank.rowMajor
  palette := Palette.blank

/- A fragment whose texture coordinate has no divisor. -/
def withoutDivisor : Fragment where
  x := 0
  y := 0
  depth := 0.0
  color := Color.zero
  s := -1.0
  t := 1.0
  q := 0.0

/- It samples inside of the texture and of the region. -/
theorem texelPlace_stays_inside_withoutDivisor :
    ∃ u v coordU coordV : Int32,
      bandedTexture.texelPlace withoutDivisor = (u, v) ∧
      Binary32.Truncates
        (withoutDivisor.s / withoutDivisor.q *
          Binary32.ofInt32 64) coordU.toInt ∧
      Binary32.Truncates
        (withoutDivisor.t / withoutDivisor.q *
          Binary32.ofInt32 32) coordV.toInt ∧
      (0 ≤ u.toInt ∧ u.toInt < 64 ∧
        u.toInt ≡ coordU.toInt [ZMOD 64]) ∧
      IsNearest 4 27 coordV.toInt v.toInt := by
  rcases texelPlace_stays_inside bandedTexture
      withoutDivisor with
    ⟨u, v, -, hPlace, ⟨coordU, hCutU, hU⟩,
      ⟨coordV, hCutV, hV⟩, -⟩
  exact ⟨u, v, coordU, coordV, hPlace, hCutU, hCutV,
    hU 6 (by decide) rfl, hV.1 (by decide)⟩

end DrawState

end PagedRaster
