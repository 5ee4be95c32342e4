import Mathlib.Data.BitVec
import PagedRaster.Proofs.Memory.Bits

/-
  This file proves that video memory is one little-endian
  array of bits.  Every access of every width reads the
  number that some adjacent bits of the array form, or
  replaces these bits by the low bits of a value; what two
  accesses have to do with each other follows from their
  places in the array.

  Key definitions include:
    * `BitArray`
    * `BitArray.number`, `BitArray.replace`
    * `Width.place`
    * `Memory.bits`
    * `Memory.RefinesArray`

  Key theorems include:
    * `Memory.bits_bijective`
    * `Memory.toNat_read`
    * `Memory.bits_write`
    * `Memory.testBit_read_write`
    * `Memory.write_write_comm`
    * `Memory.accesses_refine_bitArray`
-/

namespace PagedRaster

------------------------------------------------------------
-- Arrays of Bits
------------------------------------------------------------

/- Bits of video memory. -/
def bitCount : Nat :=
  33554432

/- A row of as many bits as video memory has. -/
abbrev BitArray :=
  Fin bitCount → Bool

namespace BitArray

/-
  The number that adjacent bits form, the lowest one first.
  All of them must lie in the array.
-/
def number
    (array : BitArray)
    (start length : Nat)
    (hEnd : start + length ≤ bitCount) : Nat :=
  Nat.ofBits fun k : Fin length =>
    array ⟨start + k,
      Nat.lt_of_lt_of_le (Nat.add_lt_add_left k.isLt start)
        hEnd⟩

/- Adjacent bits replaced by the low bits of a number. -/
def replace
    (array : BitArray)
    (start length value : Nat) : BitArray :=
  fun i =>
    if start ≤ i.val ∧ i.val < start + length then
      value.testBit (i.val - start)
    else
      array i

/- The bits of a number are those that form it. -/
theorem testBit_number
    (array : BitArray)
    {start length : Nat}
    (hEnd : start + length ≤ bitCount)
    {k : Nat}
    (hk : k < length) :
    (array.number start length hEnd).testBit k =
      array ⟨start + k, by omega⟩ :=
  Nat.testBit_ofBits_lt _ k hk

/- Replacements of different bits commute. -/
theorem replace_comm
    (array : BitArray)
    {start length start' length' : Nat}
    (value value' : Nat)
    (hApart :
      start + length ≤ start' ∨
        start' + length' ≤ start) :
    (array.replace start length value).replace start'
        length' value' =
      (array.replace start' length' value').replace start
        length value := by
  funext i
  unfold replace
  by_cases hFirst :
      start ≤ i.val ∧ i.val < start + length
  · have hSecond :
        ¬(start' ≤ i.val ∧
          i.val < start' + length') := by
      omega
    rw [if_neg hSecond, if_pos hFirst, if_pos hFirst]
  · rw [if_neg hFirst, if_neg hFirst]

end BitArray

------------------------------------------------------------
-- Places of Accesses
------------------------------------------------------------

namespace Width

/-
  The place of the first bit of an access.  Addresses wrap
  at the end of memory and are rounded down to a multiple of
  the access: whole words for 24 and 32 bits.  Those of four
  bits count nibbles.
-/
def place
    (width : Width)
    (address : UInt32) : Nat :=
  match width with
  | .w32 | .w24 => 32 * (address.toNat % 4194304 / 4)
  | .w16 => 16 * (address.toNat % 4194304 / 2)
  | .w8 => 8 * (address.toNat % 4194304)
  | .w4 => 4 * (address.toNat % 8388608)

/- A cell starts at the place of its access. -/
theorem start_eq_place
    (width : Width)
    (address : UInt32) :
    width.start address = width.place address := by
  rw [start_eq]
  rfl

/- Every access lies in memory. -/
theorem place_add_bits_le
    (width : Width)
    (address : UInt32) :
    width.place address + width.bits ≤ bitCount := by
  unfold bitCount
  cases width <;> simp only [place, bits] <;> omega

/- The word of an access holds all its bits. -/
theorem word_eq_place_div
    (width : Width)
    (address : UInt32)
    {k : Nat}
    (hk : k < width.bits) :
    (width.locate address).word.val =
      (width.place address + k) / 32 := by
  have hEnd := width.shift_add_bits_le address
  rw [← start_eq_place, start]
  omega

/- The word of a nibble is that of its byte. -/
theorem nibbleWord_eq_byteWord
    (address : UInt32) :
    nibbleWord address =
      byteWord ((address &&& 0x7FFFFF) >>> 1) := by
  apply Fin.ext
  rw [val_nibbleWord, val_byteWord,
    UInt32.toNat_shiftRight, toNat_and_mask 23 rfl,
    Nat.shiftRight_eq_div_pow]
  simp only [UInt32.reduceToNat, Nat.reducePow,
    Nat.reduceMod, Nat.pow_one]
  omega

end Width

------------------------------------------------------------
-- Memory as an Array of Bits
------------------------------------------------------------

/- The bits of a word are those of its number. -/
theorem wordBit_eq_testBit
    (word : UInt32)
    (k : Nat) :
    wordBit word k = word.toNat.testBit k :=
  (BitVec.testBit_toNat word.toBitVec).symm

namespace Memory

/-
  The bits of memory: the lowest bit of the first word is
  the first one.
-/
def bits
    (memory : Memory) : BitArray :=
  fun i => memory.bit i.val

/- The memory with given bits. -/
def ofBits
    (array : BitArray) : Memory where
  words :=
    Vector.ofFn fun word : Fin wordCount =>
      UInt32.ofNat
        (array.number (32 * word.val) 32 (by
          have hWord := word.isLt
          unfold wordCount at hWord
          unfold bitCount
          omega))

/- Memory with the bits of an array has these bits. -/
theorem bits_ofBits
    (array : BitArray) :
    (ofBits array).bits = array := by
  funext i
  have hLast := i.isLt
  unfold bitCount at hLast
  have hWord : i.val / 32 < wordCount := by
    unfold wordCount
    omega
  have hBit : i.val % 32 < 32 := Nat.mod_lt _ (by decide)
  have hRead :
      (ofBits array).words[i.val / 32]? =
        some (UInt32.ofNat
          (array.number (32 * (i.val / 32)) 32 (by
            unfold bitCount
            omega))) := by
    rw [Vector.getElem?_eq_getElem hWord]
    exact congrArg some (Vector.getElem_ofFn hWord)
  have hPlace :
      32 * (i.val / 32) + i.val % 32 = i.val := by
    omega
  rw [bits, bit, hRead, Option.getD_some,
    wordBit_eq_testBit, UInt32.toNat_ofNat',
    Nat.testBit_mod_two_pow,
    BitArray.testBit_number _ _ hBit]
  simp only [hBit, decide_true, Bool.true_and, hPlace]

/- There are no bits after the end of memory. -/
theorem bit_of_le
    (memory : Memory)
    {i : Nat}
    (hi : bitCount ≤ i) :
    memory.bit i = false := by
  have hWord : wordCount ≤ i / 32 := by
    unfold bitCount at hi
    unfold wordCount
    omega
  rw [bit, Vector.getElem?_eq_none hWord]
  exact BitVec.getLsbD_zero

/- Every array of bits is that of one memory. -/
theorem bits_bijective :
    Function.Bijective bits := by
  constructor
  · intro memory other hBits
    apply ext_bit
    intro i
    by_cases hi : i < bitCount
    · exact congrFun hBits ⟨i, hi⟩
    · rw [bit_of_le memory (Nat.le_of_not_lt hi),
        bit_of_le other (Nat.le_of_not_lt hi)]
  · intro array
    exact ⟨ofBits array, bits_ofBits array⟩

/- An access reads the number that its bits form. -/
theorem toNat_read
    (memory : Memory)
    (width : Width)
    (address : UInt32) :
    (memory.read width address).toNat =
      memory.bits.number (width.place address) width.bits
        (width.place_add_bits_le address) := by
  apply Nat.eq_of_testBit_eq
  intro k
  rw [← wordBit_eq_testBit, wordBit_read,
    Width.start_eq_place]
  by_cases hk : k < width.bits
  · rw [BitArray.testBit_number _ _ hk]
    simp only [hk, decide_true, Bool.true_and, bits]
  · rw [BitArray.number,
      Nat.testBit_ofBits_ge _ k (Nat.le_of_not_lt hk)]
    simp only [hk, decide_false, Bool.false_and]

/- A write replaces the bits of its access. -/
theorem bits_write
    (memory : Memory)
    (width : Width)
    (address value : UInt32) :
    (memory.write width address value).bits =
      memory.bits.replace (width.place address) width.bits
        value.toNat := by
  funext i
  simp only [bits, BitArray.replace, bit_write,
    Width.Covers, Width.start_eq_place, wordBit_eq_testBit]

/-
  A read after a write sees the written bits where the two
  accesses meet, and the old ones elsewhere.
-/
theorem testBit_read_write
    (memory : Memory)
    (width : Width)
    (address value : UInt32)
    (width' : Width)
    (address' : UInt32)
    {k : Nat}
    (hk : k < width'.bits) :
    ((memory.write width address value).read width'
        address').toNat.testBit k =
      if width.place address ≤
            width'.place address' + k ∧
          width'.place address' + k <
            width.place address + width.bits then
        value.toNat.testBit
          (width'.place address' + k - width.place address)
      else
        (memory.read width' address').toNat.testBit k := by
  rw [toNat_read, toNat_read,
    BitArray.testBit_number _ _ hk,
    BitArray.testBit_number _ _ hk, bits_write]
  rfl

/- Writes to different bits commute. -/
theorem write_write_comm
    (memory : Memory)
    {width width' : Width}
    {address address' : UInt32}
    (hApart :
      width.place address + width.bits ≤
          width'.place address' ∨
        width'.place address' + width'.bits ≤
          width.place address)
    (value value' : UInt32) :
    (memory.write width address value).write width'
        address' value' =
      (memory.write width' address' value').write width
        address value := by
  -- Equal bits make equal memories, so the words that the
  -- two accesses may share play no part.
  apply bits_bijective.injective
  simp only [bits_write]
  exact BitArray.replace_comm memory.bits value.toNat
    value'.toNat hApart

/-
  The accesses at an address are those of an array of bits.
  The access lies in memory, in one of its words.  It reads
  the number that its bits form, and writes the low bits of
  a value there and nowhere else.  A read after the write
  sees the written bits where the two meet, and writes to
  different bits commute.
-/
structure RefinesArray
    (memory : Memory)
    (width : Width)
    (address value : UInt32) : Prop where
  inside :
    width.place address + width.bits ≤ bitCount
  oneWord :
    ∀ k < width.bits,
      (width.locate address).word.val =
        (width.place address + k) / 32
  read :
    (memory.read width address).toNat =
      memory.bits.number (width.place address) width.bits
        inside
  write :
    (memory.write width address value).bits =
      memory.bits.replace (width.place address) width.bits
        value.toNat
  readBack :
    ∀ (width' : Width) (address' : UInt32),
      ∀ k < width'.bits,
        ((memory.write width address value).read width'
            address').toNat.testBit k =
          if width.place address ≤
                width'.place address' + k ∧
              width'.place address' + k <
                width.place address + width.bits then
            value.toNat.testBit
              (width'.place address' + k -
                width.place address)
          else
            (memory.read width' address').toNat.testBit k
  comm :
    ∀ (width' : Width) (address' value' : UInt32),
      width.place address + width.bits ≤
            width'.place address' ∨
          width'.place address' + width'.bits ≤
            width.place address →
        (memory.write width address value).write width'
            address' value' =
          (memory.write width' address' value').write width
            address value

/-
  Memory refines one little-endian array of bits: every
  array is that of one memory, and all accesses are those of
  the array.  The word of a nibble is also found through the
  byte that holds it.
-/
theorem accesses_refine_bitArray :
    Function.Bijective bits ∧
      (∀ address,
        Width.nibbleWord address =
          Width.byteWord ((address &&& 0x7FFFFF) >>> 1)) ∧
      ∀ (memory : Memory)
        (width : Width)
        (address value : UInt32),
        RefinesArray memory width address value := by
  refine
    ⟨bits_bijective, Width.nibbleWord_eq_byteWord, ?_⟩
  intro memory width address value
  constructor
  case inside => exact width.place_add_bits_le address
  case oneWord =>
    intro k hk
    exact width.word_eq_place_div address hk
  case read => exact memory.toNat_read width address
  case write => exact memory.bits_write width address value
  case readBack =>
    intro width' address' k hk
    exact memory.testBit_read_write width address value
      width' address' hk
  case comm =>
    intro width' address' value' hApart
    exact memory.write_write_comm hApart value value'

/-
  A nibble and a byte of the first word, both addressed past
  the end of memory, may be written in either order.
-/
theorem accesses_refine_bitArray_wrapped :
    Width.w4.place 0x800001 + Width.w4.bits ≤
        Width.w8.place 0xFFC00001 ∧
      (Memory.empty.write .w4 0x800001 0xAB).write .w8
          0xFFC00001 0x1CD =
        (Memory.empty.write .w8 0xFFC00001 0x1CD).write .w4
          0x800001 0xAB := by
  have hApart :
      Width.w4.place 0x800001 + Width.w4.bits ≤
        Width.w8.place 0xFFC00001 := by
    decide
  have hAccess :=
    accesses_refine_bitArray.2.2 Memory.empty .w4 0x800001
      0xAB
  exact
    ⟨hApart,
      hAccess.comm .w8 0xFFC00001 0x1CD (Or.inl hApart)⟩

end Memory

end PagedRaster
