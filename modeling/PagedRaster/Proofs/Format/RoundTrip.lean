import PagedRaster.Proofs.Binary32.Division
import PagedRaster.Proofs.Format.PackedColor

/-
  This file proves that packing a colour undoes unpacking a
  pixel.  A field is divided by the end of its scale and
  comes back as the nearest integer, in spite of both
  roundings, because the errors stay far below one half.  A
  packed pixel is the number whose digits are its encoded
  channels, so each channel is found in its own field.

  Key definitions include:
    * `Color.HoldsFields32`
    * `Color.HoldsFields16`

  Key theorems include:
    * `toNat_encodeChannel_of_near`
    * `Binary32.exists_fraction`
    * `exists_encoded_fraction`
    * `toNat_encodeChannel_fraction`
    * `Color.toNat_toPixel32`
    * `Color.toNat_toPixel16`
    * `Color.encoding_undoes_decoding`
-/

namespace PagedRaster

open Binary32 (HasValue Representable RoundsTo)

------------------------------------------------------------
-- Nearest Integers
------------------------------------------------------------

/- A number that is nearer than a half is cut to. -/
theorem floor_of_near_half
    {value : ℚ}
    {n : Nat}
    (hNear : |value - (n + 1 / 2)| < 1 / 2) :
    ⌊value⌋₊ = n := by
  rw [abs_lt] at hNear
  have hFloor : (n : ℚ) ≤ value := by linarith
  rw [Nat.floor_eq_iff
    ((Nat.cast_nonneg n).trans hFloor)]
  exact ⟨hFloor, by linarith⟩

/- A channel near a place of its scale is encoded as it. -/
theorem toNat_encodeChannel_of_near
    {channel most : Float32}
    {value : ℚ}
    {n place : Nat}
    (hMost : HasValue most n)
    (hScale : n ≤ 255)
    (hChannel : HasValue channel value)
    (hNonneg : 0 ≤ value)
    (hUnit : value ≤ 1)
    (hNear : |value * n - place| ≤ 1 / 4) :
    (encodeChannel channel most).toNat = place := by
  have hScale' : (n : ℚ) ≤ 255 := by exact_mod_cast hScale
  have hExact : 0 ≤ value * n :=
    mul_nonneg hNonneg (Nat.cast_nonneg n)
  have hBelow : value * n ≤ 255 :=
    (mul_le_of_le_one_left (Nat.cast_nonneg n) hUnit).trans
      hScale'
  have hClamped :
      HasValue (Binary32.clampUnit channel) value := by
    have hCut := hChannel.clampUnit hNonneg
    rwa [min_eq_left hUnit] at hCut
  -- Each of the two roundings moves the number by less than
  -- an eighth.
  rcases hClamped.mul hMost
      (by rw [abs_of_nonneg hExact]; linarith) with
    ⟨scaled, hScaling, hScaled⟩
  have hFirst :=
    hScaling.near (by decide : -149 ≤ (-16 : Int)) hExact
      (by norm_num; linarith)
  have hScaledNonneg := hScaling.nonneg hExact
  rw [abs_le] at hNear hFirst
  norm_num at hFirst
  have hSum : 0 ≤ scaled + 1 / 2 := by linarith
  rcases hScaled.add Binary32.hasValue_half
      (by rw [abs_of_nonneg hSum]; linarith) with
    ⟨rounded, hRounding, hRounded⟩
  have hSecond :=
    hRounding.near (by decide : -149 ≤ (-16 : Int)) hSum
      (by norm_num; linarith)
  rw [abs_le] at hSecond
  norm_num at hSecond
  have hWord :
      (encodeChannel channel most).toNat = ⌊rounded⌋₊ :=
    hRounded.toNat_toUInt32 (hRounding.nonneg hSum)
      (by linarith)
  rw [hWord]
  apply floor_of_near_half
  rw [abs_lt]
  constructor <;> linarith

------------------------------------------------------------
-- Fractions of a Scale
------------------------------------------------------------

namespace Binary32

/- A word over the end of its scale is nearly the quotient. -/
theorem exists_fraction
    {word : UInt32}
    {most : Float32}
    {n : Nat}
    (hMost : HasValue most n)
    (hScale : n < 2 ^ 24)
    (hPos : 0 < n)
    (hWord : word.toNat ≤ n) :
    ∃ value,
      HasValue (word.toFloat32 / most) value ∧ 0 ≤ value ∧
        value ≤ 1 ∧
        |value - word.toNat / n| ≤ 1 / 2 ^ 23 := by
  have hDivisor : (0 : ℚ) < n := Nat.cast_pos.mpr hPos
  have hLow : (0 : ℚ) ≤ word.toNat / n := by positivity
  have hHigh : (word.toNat : ℚ) / n ≤ 1 := by
    rw [div_le_one hDivisor]
    exact_mod_cast hWord
  have hOne : Representable |1| := hasValue_one.representable
  rcases (hasValue_toFloat32 (hWord.trans_lt hScale)).div
      hMost hDivisor.ne'
      (by rw [abs_of_nonneg hLow]; linarith) with
    ⟨value, hRounds, hValue⟩
  refine ⟨value, hValue, hRounds.nonneg hLow,
    hRounds.le 1 hOne hHigh, ?_⟩
  have hNear :=
    hRounds.near (by decide : -149 ≤ (-23 : Int)) hLow
      (by norm_num; linarith)
  norm_num at hNear ⊢
  exact hNear

/- The greatest number of five bits as a float. -/
theorem hasValue_maxFiveBits : HasValue 31.0 31 := by
  refine Denotes.finite .positive (31 * 2 ^ 19) (-19)
    (by decide) (by decide) (by decide) (by decide) ?_
  change (31 : ℚ) = (31 * 2 ^ 19 : Nat) * 2 ^ (-19 : Int)
  norm_num

end Binary32

/-
  Every float with the value of a fraction of a scale is
  encoded as its numerator.
-/
theorem exists_encoded_fraction
    {word : UInt32}
    {most : Float32}
    {n : Nat}
    (hMost : HasValue most n)
    (hScale : n ≤ 255)
    (hPos : 0 < n)
    (hWord : word.toNat ≤ n) :
    ∃ value,
      HasValue (word.toFloat32 / most) value ∧
        |value| ≤ 1 ∧
        ∀ channel, HasValue channel value →
          (encodeChannel channel most).toNat =
            word.toNat := by
  rcases Binary32.exists_fraction hMost (by omega) hPos
      hWord with
    ⟨value, hValue, hNonneg, hUnit, hNear⟩
  have hDivisor : (0 : ℚ) < n := Nat.cast_pos.mpr hPos
  have hScale' : (n : ℚ) ≤ 255 := by exact_mod_cast hScale
  have hScaled :
      |value * n - word.toNat| =
        |value - word.toNat / n| * n := by
    rw [← abs_of_pos hDivisor, ← abs_mul, sub_mul,
      abs_of_pos hDivisor, div_mul_cancel₀ _ hDivisor.ne']
  refine ⟨value, hValue, ?_, ?_⟩
  · rwa [abs_of_nonneg hNonneg]
  · intro channel hChannel
    apply toNat_encodeChannel_of_near hMost hScale hChannel
      hNonneg hUnit
    rw [hScaled]
    calc
      |value - word.toNat / n| * n ≤ 1 / 2 ^ 23 * 255 :=
        mul_le_mul hNear hScale' hDivisor.le (by norm_num)
      _ ≤ 1 / 4 := by norm_num

/- So the fraction itself is. -/
theorem toNat_encodeChannel_fraction
    {word : UInt32}
    {most : Float32}
    {n : Nat}
    (hMost : HasValue most n)
    (hScale : n ≤ 255)
    (hPos : 0 < n)
    (hWord : word.toNat ≤ n) :
    (encodeChannel (word.toFloat32 / most) most).toNat =
      word.toNat := by
  rcases exists_encoded_fraction hMost hScale hPos hWord with
    ⟨value, hValue, -, hEncoded⟩
  exact hEncoded _ hValue

------------------------------------------------------------
-- Packed Fields
------------------------------------------------------------

/- A digit in front of a small number. -/
theorem add_digit_lt
    {low digit places bits : Nat}
    (hLow : low < 2 ^ places)
    (hDigit : digit < 2 ^ bits) :
    low + digit * 2 ^ places < 2 ^ (places + bits) := by
  calc
    low + digit * 2 ^ places <
        (digit + 1) * 2 ^ places := by
      rw [Nat.succ_mul]
      omega
    _ ≤ 2 ^ bits * 2 ^ places :=
      Nat.mul_le_mul_right _ hDigit
    _ = 2 ^ (places + bits) := by
      rw [← Nat.pow_add, Nat.add_comm]

/- A word is joined in front of a small one. -/
theorem toNat_or_shiftLeft
    {low high shift : UInt32}
    (hShift : shift.toNat < 32)
    (hLow : low.toNat < 2 ^ shift.toNat)
    (hHigh : high.toNat * 2 ^ shift.toNat < 2 ^ 32) :
    (low ||| (high <<< shift)).toNat =
      low.toNat + high.toNat * 2 ^ shift.toNat := by
  have hShifted :
      (high <<< shift).toNat =
        high.toNat <<< shift.toNat := by
    rw [UInt32.toNat_shiftLeft, Nat.mod_eq_of_lt hShift,
      Nat.shiftLeft_eq, Nat.mod_eq_of_lt hHigh]
  rw [UInt32.toNat_or, hShifted, Nat.or_comm,
    ← Nat.shiftLeft_add_eq_or_of_lt hLow, Nat.shiftLeft_eq,
    Nat.add_comm]

/-
  Four words that are joined in fields of one width are the
  digits of a number.
-/
theorem toNat_joined
    {red green blue alpha first second third : UInt32}
    (bits : Nat)
    (hFirst : first.toNat = bits)
    (hSecond : second.toNat = bits + bits)
    (hThird : third.toNat = bits + bits + bits)
    (hRed : red.toNat < 2 ^ bits)
    (hGreen : green.toNat < 2 ^ bits)
    (hBlue : blue.toNat < 2 ^ bits)
    (hPlaces : bits + bits + bits < 32)
    (hAlpha :
      alpha.toNat * 2 ^ (bits + bits + bits) < 2 ^ 32) :
    (red ||| (green <<< first) ||| (blue <<< second) |||
        (alpha <<< third)).toNat =
      red.toNat + green.toNat * 2 ^ bits +
        blue.toNat * 2 ^ (bits + bits) +
        alpha.toNat * 2 ^ (bits + bits + bits) := by
  have hGreenFits := add_digit_lt hRed hGreen
  have hBlueFits := add_digit_lt hGreenFits hBlue
  have hWord : 2 ^ (bits + bits + bits) < 2 ^ 32 :=
    Nat.pow_lt_pow_right (by decide) hPlaces
  have hWord' : 2 ^ (bits + bits) ≤ 2 ^ 32 :=
    Nat.pow_le_pow_right two_pos (by omega)
  have hTwo :
      (red ||| (green <<< first)).toNat =
        red.toNat + green.toNat * 2 ^ bits := by
    rw [← hFirst]
    apply toNat_or_shiftLeft (by omega)
    · rwa [hFirst]
    · rw [hFirst]
      omega
  have hThree :
      (red ||| (green <<< first) |||
          (blue <<< second)).toNat =
        red.toNat + green.toNat * 2 ^ bits +
          blue.toNat * 2 ^ (bits + bits) := by
    rw [← hTwo, ← hSecond]
    apply toNat_or_shiftLeft (by omega)
    · rwa [hSecond, hTwo]
    · rw [hSecond]
      omega
  rw [← hThree, ← hThird]
  apply toNat_or_shiftLeft (by omega)
  · rwa [hThird, hThree]
  · rwa [hThird]

/- A word without its low bits. -/
theorem toNat_shiftRight_of_lt
    {word shift : UInt32}
    (hShift : shift.toNat < 32) :
    (word >>> shift).toNat =
      word.toNat / 2 ^ shift.toNat := by
  rw [UInt32.toNat_shiftRight, Nat.mod_eq_of_lt hShift,
    Nat.shiftRight_eq_div_pow]

/- A field of a word. -/
theorem toNat_field
    {word shift mask : UInt32}
    (bits : Nat)
    (hShift : shift.toNat < 32)
    (hMask : mask.toNat = 2 ^ bits - 1) :
    ((word >>> shift) &&& mask).toNat =
      word.toNat / 2 ^ shift.toNat % 2 ^ bits := by
  rw [Width.toNat_and_mask bits hMask,
    toNat_shiftRight_of_lt hShift]

namespace Color

/- The eight bits of a channel are encoded again. -/
theorem toNat_encodeChannel_ofByte
    (field : UInt32) :
    (encodeChannel (ofByte field) 255.0).toNat =
      field.toNat % 2 ^ 8 := by
  have hMost : HasValue 255.0 (255 : Nat) :=
    Binary32.hasValue_maxByte
  have hField :
      (field &&& 0xFF).toNat = field.toNat % 2 ^ 8 :=
    Width.toNat_and_mask 8 rfl
  rw [ofByte, toNat_encodeChannel_fraction hMost
    (Nat.le_refl 255) (by decide) (by omega), hField]

/- So are the five bits of a channel. -/
theorem toNat_encodeChannel_ofFiveBits
    (field : UInt32) :
    (encodeChannel (ofFiveBits field) 31.0).toNat =
      field.toNat % 2 ^ 5 := by
  have hMost : HasValue 31.0 (31 : Nat) :=
    Binary32.hasValue_maxFiveBits
  have hField :
      (field &&& 0x1F).toNat = field.toNat % 2 ^ 5 :=
    Width.toNat_and_mask 5 rfl
  rw [ofFiveBits, toNat_encodeChannel_fraction hMost
    (by decide) (by decide) (by omega), hField]

/- A 32-bit pixel is a number of four digits. -/
theorem toNat_toPixel32
    (color : Color) :
    color.toPixel32.toNat =
      (encodeChannel color.r 255.0).toNat +
        (encodeChannel color.g 255.0).toNat * 2 ^ 8 +
        (encodeChannel color.b 255.0).toNat * 2 ^ 16 +
        (encodeChannel color.a 255.0).toNat * 2 ^ 24 := by
  have hAlpha := toNat_encodeChannel_byte color.a
  exact toNat_joined 8 rfl rfl rfl
    (toNat_encodeChannel_byte color.r)
    (toNat_encodeChannel_byte color.g)
    (toNat_encodeChannel_byte color.b) (by decide)
    (by omega)

/- The alpha bit of a 16-bit pixel. -/
theorem toNat_alphaBit
    (channel : Float32) :
    (encodeChannel channel 255.0 >>> 7).toNat =
      (encodeChannel channel 255.0).toNat / 2 ^ 7 := by
  rw [UInt32.toNat_shiftRight, Nat.shiftRight_eq_div_pow]
  rfl

/-
  A 16-bit pixel is a number of four digits, the last one of
  a single bit.
-/
theorem toNat_toPixel16
    (color : Color) :
    color.toPixel16.toNat =
      (encodeChannel color.r 31.0).toNat +
        (encodeChannel color.g 31.0).toNat * 2 ^ 5 +
        (encodeChannel color.b 31.0).toNat * 2 ^ 10 +
        (encodeChannel color.a 255.0).toNat / 2 ^ 7 *
          2 ^ 15 := by
  have hAlpha := toNat_encodeChannel_byte color.a
  rw [← toNat_alphaBit]
  apply toNat_joined 5 rfl rfl rfl
    (toNat_encodeChannel_fiveBits color.r)
    (toNat_encodeChannel_fiveBits color.g)
    (toNat_encodeChannel_fiveBits color.b) (by decide)
  rw [toNat_alphaBit]
  omega

------------------------------------------------------------
-- Round Trips
------------------------------------------------------------

/- Packing undoes unpacking 32 bits. -/
theorem toPixel32_ofPixel32
    (pixel : UInt32) :
    (ofPixel32 pixel).toPixel32 = pixel := by
  have hWord := pixel.toNat_lt
  have hGreen :
      (pixel >>> 8).toNat = pixel.toNat / 2 ^ 8 :=
    toNat_shiftRight_of_lt (by decide)
  have hBlue :
      (pixel >>> 16).toNat = pixel.toNat / 2 ^ 16 :=
    toNat_shiftRight_of_lt (by decide)
  have hAlpha :
      (pixel >>> 24).toNat = pixel.toNat / 2 ^ 24 :=
    toNat_shiftRight_of_lt (by decide)
  rw [← UInt32.toNat_inj, toNat_toPixel32]
  simp only [ofPixel32, toNat_encodeChannel_ofByte, hGreen,
    hBlue, hAlpha]
  omega

/- An alpha bit is encoded as no byte or as a full one. -/
theorem toNat_encodeChannel_bit
    {bit : UInt32}
    (hBit : bit.toNat ≤ 1) :
    (encodeChannel bit.toFloat32 255.0).toNat =
      bit.toNat * 255 := by
  have hMost : HasValue 255.0 (255 : Nat) :=
    Binary32.hasValue_maxByte
  have hUnit : (bit.toNat : ℚ) ≤ 1 := by exact_mod_cast hBit
  apply toNat_encodeChannel_of_near hMost (Nat.le_refl 255)
    (Binary32.hasValue_toFloat32 (by omega))
    (Nat.cast_nonneg _) hUnit
  push_cast
  rw [sub_self, abs_zero]
  norm_num

/- Packing undoes unpacking 16 bits. -/
theorem toPixel16_ofPixel16
    (pixel : UInt32) :
    (ofPixel16 pixel).toPixel16 = pixel &&& 0xFFFF := by
  have hLow :
      (pixel &&& 0xFFFF).toNat = pixel.toNat % 2 ^ 16 :=
    Width.toNat_and_mask 16 rfl
  have hGreen :
      (pixel >>> 5).toNat = pixel.toNat / 2 ^ 5 :=
    toNat_shiftRight_of_lt (by decide)
  have hBlue :
      (pixel >>> 10).toNat = pixel.toNat / 2 ^ 10 :=
    toNat_shiftRight_of_lt (by decide)
  have hBit :
      ((pixel >>> 15) &&& 1).toNat =
        pixel.toNat / 2 ^ 15 % 2 ^ 1 :=
    toNat_field 1 (by decide) rfl
  have hAlpha :
      (encodeChannel ((pixel >>> 15) &&& 1).toFloat32
          255.0).toNat / 2 ^ 7 =
        pixel.toNat / 2 ^ 15 % 2 ^ 1 := by
    rw [toNat_encodeChannel_bit (by omega), hBit]
    omega
  -- The fields are cut off one after the other.
  have hTen :
      pixel.toNat / 2 ^ 10 =
        pixel.toNat / 2 ^ 5 / 2 ^ 5 := by
    rw [Nat.div_div_eq_div_mul, ← Nat.pow_add]
  have hFifteen :
      pixel.toNat / 2 ^ 15 =
        pixel.toNat / 2 ^ 10 / 2 ^ 5 := by
    rw [Nat.div_div_eq_div_mul, ← Nat.pow_add]
  have hSixteen :
      pixel.toNat / 2 ^ 16 =
        pixel.toNat / 2 ^ 15 / 2 ^ 1 := by
    rw [Nat.div_div_eq_div_mul, ← Nat.pow_add]
  rw [← UInt32.toNat_inj, toNat_toPixel16, hLow]
  simp only [ofPixel16, toNat_encodeChannel_ofFiveBits,
    hGreen, hBlue, hAlpha]
  omega

/- A 32-bit pixel holds each channel in a byte of its own. -/
structure HoldsFields32
    (color : Color)
    (pixel : UInt32) : Prop where
  red : pixel &&& 0xFF = encodeChannel color.r 255.0
  green :
    (pixel >>> 8) &&& 0xFF = encodeChannel color.g 255.0
  blue :
    (pixel >>> 16) &&& 0xFF = encodeChannel color.b 255.0
  alpha : pixel >>> 24 = encodeChannel color.a 255.0

/-
  A 16-bit pixel holds five bits of each colour channel, and
  the highest bit of the alpha byte.
-/
structure HoldsFields16
    (color : Color)
    (pixel : UInt32) : Prop where
  red : pixel &&& 0x1F = encodeChannel color.r 31.0
  green :
    (pixel >>> 5) &&& 0x1F = encodeChannel color.g 31.0
  blue :
    (pixel >>> 10) &&& 0x1F = encodeChannel color.b 31.0
  alpha : pixel >>> 15 = encodeChannel color.a 255.0 >>> 7

/- A packed pixel holds its colour. -/
theorem holdsFields32_toPixel32
    (color : Color) :
    color.HoldsFields32 color.toPixel32 := by
  have hRed := toNat_encodeChannel_byte color.r
  have hGreen := toNat_encodeChannel_byte color.g
  have hBlue := toNat_encodeChannel_byte color.b
  have hAlpha := toNat_encodeChannel_byte color.a
  have hPixel := toNat_toPixel32 color
  constructor
  · rw [← UInt32.toNat_inj, Width.toNat_and_mask 8 rfl,
      hPixel]
    omega
  · rw [← UInt32.toNat_inj,
      toNat_field 8 (by decide) rfl, hPixel]
    simp only [UInt32.reduceToNat]
    omega
  · rw [← UInt32.toNat_inj,
      toNat_field 8 (by decide) rfl, hPixel]
    simp only [UInt32.reduceToNat]
    omega
  · rw [← UInt32.toNat_inj,
      toNat_shiftRight_of_lt (by decide), hPixel]
    simp only [UInt32.reduceToNat]
    omega

/- So does a packed pixel of 16 bits, which has no others. -/
theorem holdsFields16_toPixel16
    (color : Color) :
    color.HoldsFields16 color.toPixel16 := by
  have hRed := toNat_encodeChannel_fiveBits color.r
  have hGreen := toNat_encodeChannel_fiveBits color.g
  have hBlue := toNat_encodeChannel_fiveBits color.b
  have hPixel := toNat_toPixel16 color
  constructor
  · rw [← UInt32.toNat_inj, Width.toNat_and_mask 5 rfl,
      hPixel]
    omega
  · rw [← UInt32.toNat_inj,
      toNat_field 5 (by decide) rfl, hPixel]
    simp only [UInt32.reduceToNat]
    omega
  · rw [← UInt32.toNat_inj,
      toNat_field 5 (by decide) rfl, hPixel]
    simp only [UInt32.reduceToNat]
    omega
  · rw [← UInt32.toNat_inj,
      toNat_shiftRight_of_lt (by decide), toNat_alphaBit,
      hPixel]
    simp only [UInt32.reduceToNat]
    omega

/- A 16-bit pixel is a half word. -/
theorem toPixel16_lt
    (color : Color) :
    color.toPixel16 < 0x10000 := by
  have hRed := toNat_encodeChannel_fiveBits color.r
  have hGreen := toNat_encodeChannel_fiveBits color.g
  have hBlue := toNat_encodeChannel_fiveBits color.b
  have hAlpha := toNat_encodeChannel_byte color.a
  rw [UInt32.lt_iff_toNat_lt, toNat_toPixel16]
  simp only [UInt32.reduceToNat]
  omega

/- A pixel without its highest byte has no alpha. -/
theorem alpha_ofPixel32_of_lt
    {pixel : UInt32}
    (hSmall : pixel < 0x1000000) :
    (ofPixel32 pixel).a = 0.0 := by
  have hByte : pixel >>> 24 = 0 := by
    rw [UInt32.lt_iff_toNat_lt] at hSmall
    rw [← UInt32.toNat_inj,
      toNat_shiftRight_of_lt (by decide)]
    simp only [UInt32.reduceToNat] at hSmall ⊢
    omega
  change ofByte (pixel >>> 24) = 0.0
  rw [hByte]
  rfl

/-
  Encoding undoes decoding, with every rounding of binary32.
  Each 32-bit pixel comes back as it was; one without its
  highest byte is decoded to alpha zero and comes back too.
  A word that is decoded as 16 bits comes back as its low
  half.  Of any colour, also one that is out of range,
  infinite or no number, each encoded channel fits its own
  field.  So the fields of a packed pixel are the encoded
  channels, and a pixel of 16 bits has no others.
-/
theorem encoding_undoes_decoding :
    (∀ pixel, (ofPixel32 pixel).toPixel32 = pixel) ∧
      (∀ pixel, pixel < 0x1000000 →
        (ofPixel32 pixel).a = 0.0 ∧
          (ofPixel32 pixel).toPixel32 = pixel) ∧
      (∀ pixel,
        (ofPixel16 pixel).toPixel16 = pixel &&& 0xFFFF) ∧
      (∀ channel,
        (encodeChannel channel 255.0).toNat < 2 ^ 8 ∧
          (encodeChannel channel 31.0).toNat < 2 ^ 5 ∧
          (encodeChannel channel 255.0 >>> 7).toNat <
            2 ^ 1) ∧
      ∀ color : Color,
        color.HoldsFields32 color.toPixel32 ∧
          color.HoldsFields16 color.toPixel16 ∧
          color.toPixel16 < 0x10000 := by
  refine ⟨toPixel32_ofPixel32, ?_, toPixel16_ofPixel16, ?_,
    ?_⟩
  · intro pixel hSmall
    exact ⟨alpha_ofPixel32_of_lt hSmall,
      toPixel32_ofPixel32 pixel⟩
  · intro channel
    have hByte := toNat_encodeChannel_byte channel
    refine ⟨hByte, toNat_encodeChannel_fiveBits channel, ?_⟩
    rw [toNat_alphaBit]
    omega
  · intro color
    exact ⟨color.holdsFields32_toPixel32,
      color.holdsFields16_toPixel16, color.toPixel16_lt⟩

/- A pixel of three full bytes has no alpha. -/
theorem encoding_undoes_decoding_fullBytes :
    (0xFFFFFF : UInt32) < 0x1000000 ∧
      (ofPixel32 0xFFFFFF).a = 0.0 ∧
      (ofPixel32 0xFFFFFF).toPixel32 = 0xFFFFFF := by
  have hSmall : (0xFFFFFF : UInt32) < 0x1000000 := by decide
  exact ⟨hSmall, encoding_undoes_decoding.2.1 _ hSmall⟩

end Color

end PagedRaster
