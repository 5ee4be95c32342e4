import PagedRaster.Fragment.Commit
import PagedRaster.Proofs.Binary32.Range
import PagedRaster.Proofs.Memory.Bits

/-
  This file proves that packed channels keep to their
  fields.  Whatever a channel holds, also infinity or no
  number at all, it is encoded in as many bits as its field
  has.  So the alpha bits of a pixel follow from the alpha
  channel alone.

  Key definitions include:
    * `FrameFormat.colorBits`

  Key theorems include:
    * `toNat_encodeChannel_le`
    * `Color.wordBit_toPixel32_of_le`
    * `Color.wordBit_toPixel16_of_le`
    * `FrameFormat.wordBit_encode_congr`
-/

namespace PagedRaster

open Binary32 (Holds Representable Within)

------------------------------------------------------------
-- Channels
------------------------------------------------------------

/- A channel is encoded on its scale. -/
theorem toNat_encodeChannel_le
    {most : Float32}
    {n : Nat}
    (hMost : Holds n most.toModel.unpack)
    (hSmall : n < 2 ^ 23)
    (channel : Float32) :
    (encodeChannel channel most).toNat ≤ n := by
  have hHalf : Within 0.5 (1 / 2) := by
    refine Or.inr ⟨1 / 2, ?_, le_refl _⟩
    refine Holds.finite (2 ^ 23) (-24) (by decide)
      (by decide) (by decide) (by decide) ?_
    norm_num
  have hFinite : (n : ℚ) + 1 / 2 < 2 ^ 128 := by
    have hLt : (n : ℚ) < 2 ^ 23 := by exact_mod_cast hSmall
    linarith
  have hScale : Representable (n : ℚ) :=
    ⟨n, 0, by omega, by decide, by simp⟩
  have hRounding : Representable ((n : ℚ) + 1 / 2) := by
    refine ⟨2 * n + 1, -1, by omega, by decide, ?_⟩
    push_cast
    ring
  have hScaled :
      Within (Binary32.clampUnit channel * most) n :=
    (Binary32.within_clampUnit channel).mul
      (Or.inr ⟨n, hMost, le_refl _⟩) (one_mul _).le hScale
      (by linarith)
  have hRounded :
      Within (Binary32.clampUnit channel * most + 0.5)
        (n + 1 / 2) :=
    hScaled.add hHalf (le_refl _) hRounding hFinite
  exact hRounded.toNat_toUInt32_le (by linarith)

/- An eight-bit channel is less than 256. -/
theorem toNat_encodeChannel_byte
    (channel : Float32) :
    (encodeChannel channel 255.0).toNat < 2 ^ 8 := by
  have hMost :
      Holds (255 : Nat) (255.0 : Float32).toModel.unpack := by
    refine Holds.finite 16711680 (-16) (by decide)
      (by decide) (by decide) (by decide) ?_
    norm_num
  exact Nat.lt_succ_of_le
    (toNat_encodeChannel_le hMost (by decide) channel)

/- A five-bit channel is less than 32. -/
theorem toNat_encodeChannel_fiveBits
    (channel : Float32) :
    (encodeChannel channel 31.0).toNat < 2 ^ 5 := by
  have hMost :
      Holds (31 : Nat) (31.0 : Float32).toModel.unpack := by
    refine Holds.finite 16252928 (-19) (by decide)
      (by decide) (by decide) (by decide) ?_
    norm_num
  exact Nat.lt_succ_of_le
    (toNat_encodeChannel_le hMost (by decide) channel)

------------------------------------------------------------
-- Pixels
------------------------------------------------------------

/- A small word has no high bits. -/
theorem wordBit_of_toNat_lt
    {word : UInt32}
    {n k : Nat}
    (hWord : word.toNat < 2 ^ n)
    (hk : n ≤ k) :
    wordBit word k = false :=
  Nat.testBit_lt_two_pow
    (hWord.trans_le (Nat.pow_le_pow_right two_pos hk))

/- A field that is shifted up has no bits behind it. -/
theorem wordBit_shiftLeft_of_lt
    {word shift : UInt32}
    {n places k : Nat}
    (hWord : word.toNat < 2 ^ n)
    (hk : places + n ≤ k)
    (hPlaces : places < 32)
    (hShift : shift.toNat = places) :
    wordBit (word <<< shift) k = false := by
  rw [wordBit_shiftLeft word (by omega),
    wordBit_of_toNat_lt hWord (by omega), Bool.and_false]

namespace Color

/- The bits of a 32-bit pixel above blue are alpha. -/
theorem wordBit_toPixel32_of_le
    (color : Color)
    {k : Nat}
    (hk : 24 ≤ k) :
    wordBit color.toPixel32 k =
      wordBit (encodeChannel color.a 255.0 <<< 24) k := by
  have hRed :=
    wordBit_of_toNat_lt
      (toNat_encodeChannel_byte color.r) (by omega : 8 ≤ k)
  have hGreen :=
    wordBit_shiftLeft_of_lt
      (toNat_encodeChannel_byte color.g)
      (by omega : 8 + 8 ≤ k) (by decide)
      (rfl : (8 : UInt32).toNat = 8)
  have hBlue :=
    wordBit_shiftLeft_of_lt
      (toNat_encodeChannel_byte color.b)
      (by omega : 16 + 8 ≤ k) (by decide)
      (rfl : (16 : UInt32).toNat = 16)
  rw [toPixel32, wordBit_or, wordBit_or, wordBit_or, hRed,
    hGreen, hBlue]
  rfl

/- The bits of a 16-bit pixel above blue are alpha. -/
theorem wordBit_toPixel16_of_le
    (color : Color)
    {k : Nat}
    (hk : 15 ≤ k) :
    wordBit color.toPixel16 k =
      wordBit
        ((encodeChannel color.a 255.0 >>> 7) <<< 15) k := by
  have hRed :=
    wordBit_of_toNat_lt
      (toNat_encodeChannel_fiveBits color.r)
      (by omega : 5 ≤ k)
  have hGreen :=
    wordBit_shiftLeft_of_lt
      (toNat_encodeChannel_fiveBits color.g)
      (by omega : 5 + 5 ≤ k) (by decide)
      (rfl : (5 : UInt32).toNat = 5)
  have hBlue :=
    wordBit_shiftLeft_of_lt
      (toNat_encodeChannel_fiveBits color.b)
      (by omega : 10 + 5 ≤ k) (by decide)
      (rfl : (10 : UInt32).toNat = 10)
  rw [toPixel16, wordBit_or, wordBit_or, wordBit_or, hRed,
    hGreen, hBlue]
  rfl

end Color

namespace FrameFormat

/- The bits of red, green and blue, lowest in a pixel. -/
def colorBits : FrameFormat → Nat
  | .ct32 | .ct24 => 24
  | .ct16 | .ct16s => 15

/- The other bits of a pixel follow from the clamped alpha. -/
theorem wordBit_encode_congr
    (format : FrameFormat)
    {color other : Color}
    (hAlpha :
      Binary32.clampUnit color.a =
        Binary32.clampUnit other.a)
    {k : Nat}
    (hk : format.colorBits ≤ k) :
    wordBit (format.encode color) k =
      wordBit (format.encode other) k := by
  have hEncoded :
      encodeChannel color.a 255.0 =
        encodeChannel other.a 255.0 := by
    rw [encodeChannel, hAlpha, encodeChannel]
  cases format with
  | ct32 | ct24 =>
      simp only [encode,
        Color.wordBit_toPixel32_of_le _ hk, hEncoded]
  | ct16 | ct16s =>
      simp only [encode,
        Color.wordBit_toPixel16_of_le _ hk, hEncoded]

end FrameFormat

end PagedRaster
