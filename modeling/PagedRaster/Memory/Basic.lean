import PagedRaster.Format.Role

/-
  This file defines video memory: 4 MiB of little-endian
  32-bit words, read and written in cells of 4 to 32 bits.
  Addresses wrap at the end of memory.  They count bytes,
  and nibbles for cells of four bits.

  Key definitions include:
    * `Width`
    * `Width.locate`
    * `Memory`
    * `Memory.read`
    * `Memory.write`
    * `Memory.fill`, `Memory.slice?`
    * `FrameFormat.width`, `DepthFormat.width`
-/

namespace PagedRaster

------------------------------------------------------------
-- Cells
------------------------------------------------------------

/- Bytes of video memory. -/
def ramSize : Nat :=
  4194304

/- Words of video memory. -/
def wordCount : Nat :=
  1048576

/- The widths in which memory is accessed. -/
inductive Width where
  | w4
  | w8
  | w16
  | w24
  | w32
  deriving DecidableEq, Repr, Inhabited

/- The bits of one word that an access touches. -/
structure Cell where
  word : Fin wordCount
  shift : UInt32

namespace Width

/- Every width. -/
def all : List Width :=
  [.w4, .w8, .w16, .w24, .w32]

/- Bits of an access. -/
def bits : Width → Nat
  | .w4 => 4
  | .w8 => 8
  | .w16 => 16
  | .w24 => 24
  | .w32 => 32

/- The low bits of a word, as many as the access has. -/
def mask : Width → UInt32
  | .w4 => 0xF
  | .w8 => 0xFF
  | .w16 => 0xFFFF
  | .w24 => 0xFFFFFF
  | .w32 => 0xFFFFFFFF

/- A byte address selects a word of memory. -/
theorem byteWord_lt
    (address : UInt32) :
    ((address &&& 0x3FFFFF) >>> 2).toNat <
      wordCount := by
  have hMask :
      (address &&& 0x3FFFFF).toNat ≤ 0x3FFFFF := by
    rw [UInt32.toNat_and]
    exact Nat.and_le_right
  rw [UInt32.toNat_shiftRight]
  simp only [UInt32.toNat_ofNat, Nat.reducePow,
    Nat.reduceMod, Nat.shiftRight_eq_div_pow, wordCount]
  omega

/- A nibble address selects a word of memory. -/
theorem nibbleWord_lt
    (address : UInt32) :
    ((address &&& 0x7FFFFF) >>> 3).toNat <
      wordCount := by
  have hMask :
      (address &&& 0x7FFFFF).toNat ≤ 0x7FFFFF := by
    rw [UInt32.toNat_and]
    exact Nat.and_le_right
  rw [UInt32.toNat_shiftRight]
  simp only [UInt32.toNat_ofNat, Nat.reducePow,
    Nat.reduceMod, Nat.shiftRight_eq_div_pow, wordCount]
  omega

/- The word that holds a byte address. -/
@[inline]
def byteWord
    (address : UInt32) : Fin wordCount :=
  ⟨((address &&& 0x3FFFFF) >>> 2).toNat,
    byteWord_lt address⟩

/- The word that holds a nibble address. -/
@[inline]
def nibbleWord
    (address : UInt32) : Fin wordCount :=
  ⟨((address &&& 0x7FFFFF) >>> 3).toNat,
    nibbleWord_lt address⟩

/-
  The cell at an address.  Accesses of 24 and 32 bits start
  at the word that holds the address, narrower ones at the
  multiple of their own width below it.
-/
@[inline]
def locate
    (width : Width)
    (address : UInt32) : Cell :=
  match width with
  | .w32 | .w24 => ⟨byteWord address, 0⟩
  | .w16 => ⟨byteWord address, (address &&& 2) * 8⟩
  | .w8 => ⟨byteWord address, (address &&& 3) * 8⟩
  | .w4 => ⟨nibbleWord address, (address &&& 7) * 4⟩

end Width

------------------------------------------------------------
-- Memory
------------------------------------------------------------

/- The contents of video memory. -/
structure Memory where
  words : Vector UInt32 wordCount

namespace Memory

/- Memory whose words are all zero. -/
def empty : Memory :=
  ⟨Vector.replicate wordCount 0⟩

instance : Inhabited Memory :=
  ⟨empty⟩

/- The value of the cell at an address. -/
@[inline]
def read
    (memory : Memory)
    (width : Width)
    (address : UInt32) : UInt32 :=
  let cell := width.locate address
  (memory.words[cell.word] >>> cell.shift) &&& width.mask

/-
  Replace the cell at an address by the low bits of a
  value; the other bits of the word are kept.
-/
@[inline]
def write
    (memory : Memory)
    (width : Width)
    (address value : UInt32) : Memory :=
  let cell := width.locate address
  let mask := width.mask <<< cell.shift
  let old := memory.words[cell.word]
  ⟨memory.words.set cell.word
    ((old &&& ~~~mask) |||
      ((value <<< cell.shift) &&& mask))⟩

/- Replace one whole word. -/
def setWord
    (memory : Memory)
    (index : Fin wordCount)
    (value : UInt32) : Memory :=
  ⟨memory.words.set index value⟩

/- Replace words from an index on, as long as they fit. -/
def setWords
    (memory : Memory)
    (start : Nat) : List UInt32 → Memory
  | [] => memory
  | value :: rest =>
      if h : start < wordCount then
        (memory.setWord ⟨start, h⟩ value).setWords
          (start + 1) rest
      else
        memory

/-
  Replace words from an index on; all of them must lie in
  memory.
-/
def fill
    (memory : Memory)
    (start : Nat)
    (values : List UInt32) : Option Memory :=
  if start + values.length ≤ wordCount then
    some (memory.setWords start values)
  else
    none

/- A range of words; all of them must lie in memory. -/
def slice?
    (memory : Memory)
    (start stop : Nat) : Option (Array UInt32) :=
  if start ≤ stop ∧ stop ≤ wordCount then
    some (memory.words.toArray.extract start stop)
  else
    none

/- The written form of a memory. -/
def text : String :=
  "GsMemory \x7b size: " ++ toString ramSize ++ " \x7d"

end Memory

------------------------------------------------------------
-- Widths of Formats
------------------------------------------------------------

/- The access width of a frame buffer pixel. -/
def FrameFormat.width : FrameFormat → Width
  | .ct32 => .w32
  | .ct24 => .w24
  | .ct16 | .ct16s => .w16

/- The access width of a stored depth. -/
def DepthFormat.width : DepthFormat → Width
  | .z32 => .w32
  | .z24 => .w24
  | .z16 | .z16s => .w16

end PagedRaster
