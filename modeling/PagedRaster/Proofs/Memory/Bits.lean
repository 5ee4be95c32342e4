import Mathlib.Algebra.Ring.Nat
import PagedRaster.Memory.Basic

/-
  This file describes video memory as one row of bits, the
  lowest bit of the first word first.  A cell is an interval
  of this row: reading a cell reads its bits, and writing a
  cell replaces its bits and no other ones.

  Key definitions include:
    * `wordBit`
    * `Memory.bit`
    * `Width.start`, `Width.Covers`
    * `Apart`

  Key theorems include:
    * `Memory.ext_bit`
    * `Memory.wordBit_read`
    * `Memory.bit_write`
    * `Memory.read_congr`
    * `Memory.read_write_self`
    * `Memory.read_write_of_apart`
-/

namespace PagedRaster

------------------------------------------------------------
-- Bits of Words
------------------------------------------------------------

/- A bit of a word, counted from the lowest one. -/
def wordBit
    (word : UInt32)
    (k : Nat) : Bool :=
  word.toBitVec.getLsbD k

/- Words with equal bits are equal. -/
theorem eq_of_wordBit_eq
    {word other : UInt32}
    (hBits : ∀ k, wordBit word k = wordBit other k) :
    word = other := by
  apply UInt32.toBitVec_inj.mp
  apply BitVec.eq_of_getLsbD_eq
  intro k _
  exact hBits k

/- A word has no bits from its thirty-third on. -/
theorem wordBit_of_le
    (word : UInt32)
    {k : Nat}
    (hk : 32 ≤ k) :
    wordBit word k = false :=
  BitVec.getLsbD_of_ge _ _ hk

/- The bits of a conjunction. -/
@[simp]
theorem wordBit_and
    (word other : UInt32)
    (k : Nat) :
    wordBit (word &&& other) k =
      (wordBit word k && wordBit other k) := by
  simp [wordBit]

/- The bits of a disjunction. -/
@[simp]
theorem wordBit_or
    (word other : UInt32)
    (k : Nat) :
    wordBit (word ||| other) k =
      (wordBit word k || wordBit other k) := by
  simp [wordBit]

/- The bits of a complement. -/
@[simp]
theorem wordBit_not
    (word : UInt32)
    (k : Nat) :
    wordBit (~~~word) k =
      (decide (k < 32) && !wordBit word k) := by
  simp [wordBit]

/- The bits of a word shifted down inside its width. -/
theorem wordBit_shiftRight
    (word : UInt32)
    {shift : UInt32}
    (hShift : shift.toNat < 32)
    (k : Nat) :
    wordBit (word >>> shift) k =
      wordBit word (shift.toNat + k) := by
  have hMod : shift.toNat % 32 = shift.toNat :=
    Nat.mod_eq_of_lt hShift
  simp [wordBit, BitVec.ushiftRight_eq',
    BitVec.toNat_umod, hMod]

/- The bits of a word shifted up inside its width. -/
theorem wordBit_shiftLeft
    (word : UInt32)
    {shift : UInt32}
    (hShift : shift.toNat < 32)
    (k : Nat) :
    wordBit (word <<< shift) k =
      (decide (k < 32) && !decide (k < shift.toNat) &&
        wordBit word (k - shift.toNat)) := by
  have hMod : shift.toNat % 32 = shift.toNat :=
    Nat.mod_eq_of_lt hShift
  simp [wordBit, BitVec.shiftLeft_eq', BitVec.toNat_umod,
    hMod]

------------------------------------------------------------
-- Cells as Intervals
------------------------------------------------------------

namespace Width

/- The place of the first bit of a cell. -/
def start
    (width : Width)
    (address : UInt32) : Nat :=
  32 * (width.locate address).word.val +
    (width.locate address).shift.toNat

/- A bit lies in a cell. -/
def Covers
    (width : Width)
    (address : UInt32)
    (i : Nat) : Prop :=
  width.start address ≤ i ∧
    i < width.start address + width.bits

instance
    (width : Width)
    (address : UInt32)
    (i : Nat) :
    Decidable (width.Covers address i) := by
  unfold Covers
  infer_instance

/- The mask of a width has as many bits as the width. -/
@[simp]
theorem wordBit_mask
    (width : Width)
    (k : Nat) :
    wordBit width.mask k = decide (k < width.bits) := by
  have hMask :
      width.mask.toBitVec =
        BitVec.ofNat 32 (2 ^ width.bits - 1) := by
    cases width <;> rfl
  have hBits : width.bits ≤ 32 := by
    cases width <;> decide
  rw [wordBit, hMask, BitVec.getLsbD_ofNat,
    Nat.testBit_two_pow_sub_one]
  by_cases hk : k < width.bits
  · simp [hk, Nat.lt_of_lt_of_le hk hBits]
  · simp [hk]

/- The low bits of an address are a remainder. -/
theorem toNat_and_mask
    {address mask : UInt32}
    (n : Nat)
    (hMask : mask.toNat = 2 ^ n - 1) :
    (address &&& mask).toNat = address.toNat % 2 ^ n := by
  rw [UInt32.toNat_and, hMask,
    Nat.and_two_pow_sub_one_eq_mod]

/- The second bit of an address selects a half word. -/
theorem toNat_and_two
    (address : UInt32) :
    (address &&& 2).toNat = 2 * (address.toNat / 2 % 2) := by
  have hHalf :
      (address.toNat &&& 2) / 2 = address.toNat / 2 % 2 := by
    rw [Nat.and_div_two]
    exact Nat.and_one_is_mod _
  have hEven : (address.toNat &&& 2) % 2 = 0 := by
    have hMod :=
      @Nat.and_mod_two_pow address.toNat 2 1
    simpa using hMod
  have hWord : (address &&& 2).toNat = address.toNat &&& 2 :=
    UInt32.toNat_and _ _
  omega

/- The word of a byte address. -/
theorem val_byteWord
    (address : UInt32) :
    (byteWord address).val =
      address.toNat % 4194304 / 4 := by
  change ((address &&& 0x3FFFFF) >>> 2).toNat = _
  rw [UInt32.toNat_shiftRight,
    toNat_and_mask 22 rfl, Nat.shiftRight_eq_div_pow]
  rfl

/- The word of a nibble address. -/
theorem val_nibbleWord
    (address : UInt32) :
    (nibbleWord address).val =
      address.toNat % 8388608 / 8 := by
  change ((address &&& 0x7FFFFF) >>> 3).toNat = _
  rw [UInt32.toNat_shiftRight,
    toNat_and_mask 23 rfl, Nat.shiftRight_eq_div_pow]
  rfl

/- The shift of a cell is the place in its word. -/
theorem toNat_shift
    (width : Width)
    (address : UInt32) :
    (width.locate address).shift.toNat =
      match width with
      | .w32 | .w24 => 0
      | .w16 => 16 * (address.toNat / 2 % 2)
      | .w8 => 8 * (address.toNat % 4)
      | .w4 => 4 * (address.toNat % 8) := by
  cases width with
  | w32 => rfl
  | w24 => rfl
  | w16 =>
      have hHalf := toNat_and_two address
      simp only [locate, UInt32.toNat_mul, hHalf,
        UInt32.reduceToNat]
      omega
  | w8 =>
      have hByte :
          (address &&& 3).toNat = address.toNat % 4 :=
        toNat_and_mask 2 rfl
      simp only [locate, UInt32.toNat_mul, hByte,
        UInt32.reduceToNat]
      omega
  | w4 =>
      have hNibble :
          (address &&& 7).toNat = address.toNat % 8 :=
        toNat_and_mask 3 rfl
      simp only [locate, UInt32.toNat_mul, hNibble,
        UInt32.reduceToNat]
      omega

/- A cell does not leave its word. -/
theorem shift_add_bits_le
    (width : Width)
    (address : UInt32) :
    (width.locate address).shift.toNat + width.bits ≤
      32 := by
  rw [toNat_shift]
  cases width <;> simp only [bits] <;> omega

/- Every access touches a bit. -/
theorem bits_pos
    (width : Width) :
    0 < width.bits := by
  cases width <;> decide

/- A field of a word replaced by the low bits of another. -/
theorem wordBit_merge
    (width : Width)
    {shift : UInt32}
    (hEnd : shift.toNat + width.bits ≤ 32)
    (old value : UInt32)
    (k : Nat) :
    wordBit
        ((old &&& ~~~(width.mask <<< shift)) |||
          ((value <<< shift) &&& (width.mask <<< shift)))
        k =
      if shift.toNat ≤ k ∧ k < shift.toNat + width.bits then
        wordBit value (k - shift.toNat)
      else
        wordBit old k := by
  have hPos := width.bits_pos
  have hShift : shift.toNat < 32 := by omega
  simp only [wordBit_or, wordBit_and, wordBit_not,
    wordBit_shiftLeft _ hShift, wordBit_mask]
  by_cases hWord : k < 32
  · by_cases hFrom : shift.toNat ≤ k
    · by_cases hTo : k < shift.toNat + width.bits
      · have hIn : k - shift.toNat < width.bits := by omega
        simp [hWord, hFrom, hTo, hIn, Nat.not_lt.mpr hFrom]
      · have hOut : ¬k - shift.toNat < width.bits := by
          omega
        simp [hWord, hTo, hOut]
    · simp [hWord, hFrom, Nat.not_le.mp hFrom]
  · have hTo : ¬k < shift.toNat + width.bits := by omega
    rw [wordBit_of_le old (Nat.not_lt.mp hWord)]
    simp [hWord, hTo]

/-
  Where cells start.  Addresses count bytes and wrap at the
  end of memory, those of four-bit cells count nibbles.
-/
theorem start_eq
    (width : Width)
    (address : UInt32) :
    width.start address =
      match width with
      | .w32 | .w24 => 32 * (address.toNat % 4194304 / 4)
      | .w16 => 16 * (address.toNat % 4194304 / 2)
      | .w8 => 8 * (address.toNat % 4194304)
      | .w4 => 4 * (address.toNat % 8388608) := by
  rw [start, toNat_shift]
  cases width with
  | w32 => simp only [locate, val_byteWord, Nat.add_zero]
  | w24 => simp only [locate, val_byteWord, Nat.add_zero]
  | w16 =>
      simp only [locate, val_byteWord]
      omega
  | w8 =>
      simp only [locate, val_byteWord]
      omega
  | w4 =>
      simp only [locate, val_nibbleWord]
      omega

/- A cell has no bit before its start. -/
theorem le_of_covers
    {width : Width}
    {address : UInt32}
    {first i : Nat}
    (hStart : width.start address = first)
    (hCovered : width.Covers address i) :
    first ≤ i := by
  rw [← hStart]
  exact hCovered.1

/- A covered bit by its place in the word of the cell. -/
theorem covers_iff
    (width : Width)
    (address : UInt32)
    (i : Nat) :
    width.Covers address i ↔
      i / 32 = (width.locate address).word.val ∧
        (width.locate address).shift.toNat ≤ i % 32 ∧
        i % 32 <
          (width.locate address).shift.toNat +
            width.bits := by
  have hEnd := width.shift_add_bits_le address
  unfold Covers start
  omega

end Width

------------------------------------------------------------
-- Bits of Memory
------------------------------------------------------------

namespace Memory

/- A bit of memory; there are none after its end. -/
def bit
    (memory : Memory)
    (i : Nat) : Bool :=
  wordBit (memory.words[i / 32]?.getD 0) (i % 32)

/- A bit of a word of memory. -/
theorem bit_of_word
    (memory : Memory)
    (word : Fin wordCount)
    {k : Nat}
    (hk : k < 32) :
    memory.bit (32 * word.val + k) =
      wordBit memory.words[word] k := by
  have hWord : (32 * word.val + k) / 32 = word.val := by
    omega
  have hPlace : (32 * word.val + k) % 32 = k := by
    omega
  rw [bit, hWord, hPlace]
  simp

/- Empty memory has no bits set. -/
theorem bit_empty
    (i : Nat) :
    empty.bit i = false := by
  unfold bit empty
  rw [Vector.getElem?_replicate]
  split
  · simp [wordBit]
  · simp [wordBit]

/- Memories with equal bits are equal. -/
theorem ext_bit
    {memory other : Memory}
    (hBits : ∀ i, memory.bit i = other.bit i) :
    memory = other := by
  rcases memory with ⟨words⟩
  rcases other with ⟨words'⟩
  congr 1
  apply Vector.ext
  intro index hIndex
  apply eq_of_wordBit_eq
  intro k
  by_cases hk : k < 32
  · have hBit := hBits (32 * index + k)
    rw [bit_of_word ⟨words⟩ ⟨index, hIndex⟩ hk,
      bit_of_word ⟨words'⟩ ⟨index, hIndex⟩ hk] at hBit
    exact hBit
  · rw [wordBit_of_le _ (Nat.not_lt.mp hk),
      wordBit_of_le _ (Nat.not_lt.mp hk)]

/- Reading a cell reads its bits. -/
theorem wordBit_read
    (memory : Memory)
    (width : Width)
    (address : UInt32)
    (k : Nat) :
    wordBit (memory.read width address) k =
      (decide (k < width.bits) &&
        memory.bit (width.start address + k)) := by
  have hEnd := width.shift_add_bits_le address
  have hPos := width.bits_pos
  by_cases hk : k < width.bits
  · have hBit :=
      bit_of_word memory (width.locate address).word
        (k := (width.locate address).shift.toNat + k)
        (by omega)
    rw [← Nat.add_assoc] at hBit
    simp only [read, wordBit_and, Width.wordBit_mask, hk,
      decide_true, Bool.and_true, Bool.true_and,
      Width.start]
    rw [wordBit_shiftRight _ (by omega), hBit]
  · simp only [read, wordBit_and, Width.wordBit_mask, hk,
      decide_false, Bool.and_false, Bool.false_and]

/- Replacing a word replaces its bits. -/
theorem bit_setWord
    (memory : Memory)
    (word : Fin wordCount)
    (value : UInt32)
    (i : Nat) :
    (memory.setWord word value).bit i =
      if i / 32 = word.val then
        wordBit value (i % 32)
      else
        memory.bit i := by
  by_cases hWord : i / 32 = word.val
  · simp [bit, setWord, hWord]
  · have hOther : word.val ≠ i / 32 :=
      fun hSame => hWord hSame.symm
    simp [bit, setWord, hWord, hOther]

/- Writing a cell replaces its bits and no other ones. -/
theorem bit_write
    (memory : Memory)
    (width : Width)
    (address value : UInt32)
    (i : Nat) :
    (memory.write width address value).bit i =
      if width.Covers address i then
        wordBit value (i - width.start address)
      else
        memory.bit i := by
  have hEnd := width.shift_add_bits_le address
  have hMerged :=
    bit_setWord memory (width.locate address).word
      ((memory.words[(width.locate address).word] &&&
          ~~~(width.mask <<<
            (width.locate address).shift)) |||
        ((value <<< (width.locate address).shift) &&&
          (width.mask <<< (width.locate address).shift)))
      i
  rw [Width.wordBit_merge width hEnd] at hMerged
  refine hMerged.trans ?_
  simp only [Width.covers_iff]
  by_cases hWord :
      i / 32 = (width.locate address).word.val
  · have hSelf :
        i % 32 - (width.locate address).shift.toNat =
          i - width.start address := by
      unfold Width.start
      omega
    have hOld :
        wordBit memory.words[(width.locate address).word]
            (i % 32) =
          memory.bit i := by
      simp [bit, hWord]
    simp only [hWord, if_true, true_and, hSelf, hOld]
  · simp only [hWord, if_false, false_and]

/- What a cell reads depends on its bits alone. -/
theorem read_congr
    {memory other : Memory}
    {width : Width}
    {address : UInt32}
    (hBits :
      ∀ i, width.Covers address i →
        memory.bit i = other.bit i) :
    memory.read width address =
      other.read width address := by
  apply eq_of_wordBit_eq
  intro k
  rw [wordBit_read, wordBit_read]
  by_cases hk : k < width.bits
  · rw [hBits _ ⟨by omega, by omega⟩]
  · simp [hk]

/- A written cell reads back the low bits of the value. -/
theorem read_write_self
    (memory : Memory)
    (width : Width)
    (address value : UInt32) :
    (memory.write width address value).read width address =
      value &&& width.mask := by
  apply eq_of_wordBit_eq
  intro k
  rw [wordBit_read, wordBit_and, Width.wordBit_mask,
    Bool.and_comm]
  by_cases hk : k < width.bits
  · have hCovered :
        width.Covers address (width.start address + k) :=
      ⟨by omega, by omega⟩
    rw [bit_write, if_pos hCovered, Nat.add_sub_cancel_left]
  · simp [hk]

end Memory

------------------------------------------------------------
-- Cells Apart
------------------------------------------------------------

/- Two cells have no bit in common. -/
def Apart
    (width : Width)
    (address : UInt32)
    (width' : Width)
    (address' : UInt32) : Prop :=
  ∀ i, width.Covers address i → ¬width'.Covers address' i

/- Being apart goes both ways. -/
theorem Apart.symm
    {width width' : Width}
    {address address' : UInt32}
    (hApart : Apart width address width' address') :
    Apart width' address' width address :=
  fun i hSecond hFirst => hApart i hFirst hSecond

/- A write leaves what cells apart from it read. -/
theorem Memory.read_write_of_apart
    {width width' : Width}
    {address address' : UInt32}
    (hApart : Apart width address width' address')
    (memory : Memory)
    (value : UInt32) :
    (memory.write width' address' value).read width
        address =
      memory.read width address := by
  apply read_congr
  intro i hCovered
  rw [bit_write, if_neg (hApart i hCovered)]

end PagedRaster
