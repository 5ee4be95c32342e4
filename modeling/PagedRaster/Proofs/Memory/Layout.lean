import Mathlib.Algebra.Ring.Int.Defs
import Mathlib.Algebra.Ring.Nat
import PagedRaster.Memory.Address
import PagedRaster.Proofs.Memory.Bits

/-
  This file proves that the pixels of a buffer lie apart.
  The wrapped arithmetic of pixel addresses agrees with the
  integers modulo the size of memory, and a table that packs
  its page numbers the pixels of all pages without
  repetition.

  Key definitions include:
    * `Swizzle.Packs`
    * `Storage.width`
    * `InBuffer`
    * `pixelNumber`

  Key theorems include:
    * `toNat_pixelAddress`
    * `Swizzle.packs_rowMajor`
    * `start_pixelAddress`
    * `pixelNumber_injective`
    * `apart_pixelAddress`
    * `SwizzleBank.apart_pixels`
-/

namespace PagedRaster

------------------------------------------------------------
-- Signed Words
------------------------------------------------------------

/- An arithmetic shift is a division that rounds down. -/
theorem toInt_shiftRight_ofNat
    (x : Int32)
    {n : Nat}
    (hn : n < 32) :
    (x >>> Int32.ofNat n).toInt = x.toInt / 2 ^ n := by
  have hAmounts :
      ∀ m < 32,
        (Int32.ofNat m).toBitVec.smod 32 =
          BitVec.ofNat 32 m := by
    decide
  rw [← Int32.toInt_toBitVec, Int32.toBitVec_shiftRight,
    hAmounts n hn, BitVec.sshiftRight',
    BitVec.toInt_sshiftRight, Int.shiftRight_eq_div_pow,
    BitVec.toNat_ofNat, Nat.mod_eq_of_lt (by omega)]
  simp

/- A signed word read as an unsigned one. -/
theorem toNat_toUInt32
    (x : Int32) :
    (x.toUInt32.toNat : Int) = x.toInt % 4294967296 := by
  have hSigned :
      x.toInt = Int.bmod x.toUInt32.toNat (2 ^ 32) :=
    BitVec.toInt_eq_toNat_bmod x.toBitVec
  have hWord := x.toUInt32.toNat_lt
  have hMod :
      Int.bmod x.toUInt32.toNat (2 ^ 32) %
          ((2 ^ 32 : Nat) : Int) =
        x.toUInt32.toNat % ((2 ^ 32 : Nat) : Int) :=
    Int.bmod_emod
  omega

/- The low bits of a signed word are a remainder. -/
theorem toNat_toUInt32_and
    (x : Int32)
    {mask : UInt32}
    {n : Nat}
    (hn : n ≤ 32)
    (hMask : mask.toNat = 2 ^ n - 1) :
    ((x.toUInt32 &&& mask).toNat : Int) =
      x.toInt % ((2 ^ n : Nat) : Int) := by
  have hDivides :
      ((2 ^ n : Nat) : Int) ∣ ((2 ^ 32 : Nat) : Int) :=
    Int.natCast_dvd_natCast.mpr (Nat.pow_dvd_pow 2 hn)
  rw [Width.toNat_and_mask n hMask, Int.natCast_emod,
    toNat_toUInt32]
  exact Int.emod_emod_of_dvd x.toInt hDivides

/- A small unsigned word keeps its value when signed. -/
theorem toInt_toInt32_of_lt
    {word : UInt32}
    (hSmall : word.toNat < 2147483648) :
    word.toInt32.toInt = word.toNat := by
  have hSigned :
      word.toInt32.toInt = Int.bmod word.toNat (2 ^ 32) :=
    BitVec.toInt_eq_toNat_bmod word.toBitVec
  rw [hSigned]
  exact Int.bmod_eq_of_le (by omega) (by omega)

/- A wrapped sum of products, modulo the word size. -/
theorem toInt_add_mul_emod
    (x y z : Int32) :
    (x + y * z).toInt % 4294967296 =
      (x.toInt + y.toInt * z.toInt) % 4294967296 := by
  have hSum :
      (x + y * z).toInt % ((2 ^ 32 : Nat) : Int) =
        (x.toInt + (y * z).toInt) %
          ((2 ^ 32 : Nat) : Int) := by
    rw [Int32.toInt_add]
    exact Int.bmod_emod
  have hProduct :
      (y * z).toInt % ((2 ^ 32 : Nat) : Int) =
        (y.toInt * z.toInt) % ((2 ^ 32 : Nat) : Int) := by
    rw [Int32.toInt_mul]
    exact Int.bmod_emod
  omega

------------------------------------------------------------
-- Addresses over the Integers
------------------------------------------------------------

/- A page is as wide as its logarithm says. -/
theorem Storage.pageWidth_eq_two_pow
    (s : Storage) :
    s.pageWidth = 2 ^ s.widthLog := by
  cases s <;> rfl

/- A page is as high as its logarithm says. -/
theorem Storage.pageHeight_eq_two_pow
    (s : Storage) :
    s.pageHeight = 2 ^ s.heightLog := by
  cases s <;> rfl

/- The pages in a row of a buffer. -/
def pagesPerRow
    (storage : Storage)
    (bufferWidth : UInt32) : Nat :=
  bufferWidth.toNat / storage.pageWidth

/- The page of a position, counted over the integers. -/
def pageNumber
    (storage : Storage)
    (bufferWidth : UInt32)
    (x y : Int32) : Int :=
  x.toInt / storage.pageWidth +
    y.toInt / storage.pageHeight *
      pagesPerRow storage bufferWidth

/- The page word of an address, modulo the word size. -/
theorem toNat_pageWord
    (storage : Storage)
    (bufferWidth : UInt32)
    (x y : Int32) :
    ((x >>> Int32.ofNat storage.widthLog +
        y >>> Int32.ofNat storage.heightLog *
          (bufferWidth /
            UInt32.ofNat
              storage.pageWidth).toInt32).toUInt32.toNat :
        Int) =
      pageNumber storage bufferWidth x y % 4294967296 := by
  have hWidth : storage.widthLog < 32 := by
    cases storage <;> decide
  have hHeight : storage.heightLog < 32 := by
    cases storage <;> decide
  have hPages :
      (bufferWidth /
          UInt32.ofNat storage.pageWidth).toNat =
        bufferWidth.toNat / storage.pageWidth := by
    rw [UInt32.toNat_div]
    cases storage <;> rfl
  have hSmall :
      (bufferWidth /
          UInt32.ofNat storage.pageWidth).toNat <
        2147483648 := by
    have hWord := bufferWidth.toNat_lt
    rw [hPages]
    cases storage <;> simp only [Storage.pageWidth] <;>
      omega
  rw [toNat_toUInt32, toInt_add_mul_emod,
    toInt_shiftRight_ofNat x hWidth,
    toInt_shiftRight_ofNat y hHeight,
    toInt_toInt32_of_lt hSmall, hPages, pageNumber,
    pagesPerRow]
  simp only [Storage.pageWidth_eq_two_pow,
    Storage.pageHeight_eq_two_pow, Int.natCast_pow]
  rfl

/-
  The address of a pixel is the exact integer formula,
  modulo the size of memory in address units.
-/
theorem toNat_pixelAddress
    (table : Swizzle)
    (base bufferWidth : UInt32)
    (x y : Int32) :
    ((pixelAddress table base bufferWidth x y).toNat :
        Int) =
      (base.toNat * table.storage.unitsPerByte +
          pageNumber table.storage bufferWidth x y *
            (pageSize * table.storage.unitsPerByte : Nat) +
          (table.lookup x.toUInt32 y.toUInt32).toNat) %
        (ramSize * table.storage.unitsPerByte : Nat) := by
  have hPage :=
    toNat_pageWord table.storage bufferWidth x y
  have hUnits :
      (UInt32.ofNat table.storage.unitsPerByte).toNat =
        table.storage.unitsPerByte := by
    cases table.storage <;> rfl
  have hPageBytes :
      (UInt32.ofNat pageSize).toNat = 8192 :=
    rfl
  have hMask :
      (UInt32.ofNat ramSize *
          UInt32.ofNat table.storage.unitsPerByte -
        1).toNat =
        2 ^ (21 + table.storage.unitsPerByte) - 1 := by
    cases table.storage <;> rfl
  have hCases :
      table.storage.unitsPerByte = 1 ∨
        table.storage.unitsPerByte = 2 := by
    cases table.storage <;> decide
  simp only [pixelAddress]
  rw [UInt32.toNat_and, hMask,
    Nat.and_two_pow_sub_one_eq_mod]
  simp only [UInt32.toNat_add, UInt32.toNat_mul, hUnits,
    hPageBytes]
  generalize
    pageNumber table.storage bufferWidth x y = page at *
  generalize
    (x >>> Int32.ofNat table.storage.widthLog +
        y >>> Int32.ofNat table.storage.heightLog *
          (bufferWidth /
            UInt32.ofNat
              table.storage.pageWidth).toInt32
      ).toUInt32.toNat = word at *
  rcases hCases with hUnit | hUnit
  · simp only [hUnit, ramSize, pageSize, Nat.reducePow,
      Nat.reduceAdd, Nat.reduceMul, Nat.reduceMod]
    omega
  · simp only [hUnit, ramSize, pageSize, Nat.reducePow,
      Nat.reduceAdd, Nat.reduceMul, Nat.reduceMod]
    omega

------------------------------------------------------------
-- Tables that Pack
------------------------------------------------------------

/-
  The offsets of a table are different pixels of its page,
  each at a multiple of the pixel size.
-/
structure Swizzle.Packs
    (table : Swizzle) : Prop where
  injective :
    ∀ place place' : Fin table.storage.pagePixels,
      table.offsets[place] = table.offsets[place'] →
        place = place'
  aligned :
    ∀ place : Fin table.storage.pagePixels,
      table.offsets[place].toNat %
        table.storage.pixelUnits = 0
  bounded :
    ∀ place : Fin table.storage.pagePixels,
      table.offsets[place].toNat <
        pageSize * table.storage.unitsPerByte

namespace Swizzle

/- The place of a position in its page. -/
def place
    (storage : Storage)
    (x y : UInt32) : Fin storage.pagePixels :=
  ⟨(row storage y).toNat * storage.pageWidth +
      (column storage x).toNat,
    place_lt (column_lt storage x) (row_lt storage y)⟩

/- A look-up reads the entry of the place. -/
theorem lookup_eq
    (table : Swizzle)
    (x y : UInt32) :
    table.lookup x y =
      table.offsets[place table.storage x y] :=
  rfl

/- The offsets of a row-major table count pixels. -/
theorem toNat_rowMajor
    (storage : Storage)
    (i : Fin (rowMajor storage).storage.pagePixels) :
    ((rowMajor storage).offsets[i]).toNat =
      i.val * storage.pixelUnits := by
  have hMost : storage.pagePixels ≤ 16384 := by
    cases storage <;> decide
  have hPlace : i.val < 16384 :=
    Nat.lt_of_lt_of_le i.isLt hMost
  clear hMost
  have hOffset :
      (rowMajor storage).offsets[i] =
        (UInt32.ofNat (i.val / storage.pageWidth) *
            UInt32.ofNat storage.pageWidth +
          UInt32.ofNat (i.val % storage.pageWidth)) *
            UInt32.ofNat storage.pixelUnits :=
    Vector.getElem_ofFn i.isLt
  refine (congrArg UInt32.toNat hOffset).trans ?_
  simp only [UInt32.toNat_mul, UInt32.toNat_add,
    UInt32.toNat_ofNat']
  cases storage <;>
    simp only [Storage.pageWidth, Storage.pixelUnits] <;>
    omega

/- Row-major tables pack their pages. -/
theorem packs_rowMajor
    (storage : Storage) :
    (rowMajor storage).Packs where
  injective place place' hSame := by
    have hPos : 0 < storage.pixelUnits := by
      cases storage <;> decide
    have hOffsets := congrArg UInt32.toNat hSame
    rw [toNat_rowMajor, toNat_rowMajor] at hOffsets
    exact Fin.ext (Nat.eq_of_mul_eq_mul_right hPos hOffsets)
  aligned place := by
    rw [toNat_rowMajor]
    exact Nat.mul_mod_left _ _
  bounded place := by
    have hPos : 0 < storage.pixelUnits := by
      cases storage <;> decide
    rw [toNat_rowMajor]
    calc
      place.val * storage.pixelUnits <
          storage.pagePixels * storage.pixelUnits :=
        Nat.mul_lt_mul_of_pos_right place.isLt hPos
      _ = pageSize * storage.unitsPerByte :=
        storage.pagePixels_mul_pixelUnits

/- The column of a pixel is a remainder. -/
theorem toNat_column
    (storage : Storage)
    (x : Int32) :
    ((column storage x.toUInt32).toNat : Int) =
      x.toInt % storage.pageWidth := by
  have hLog : storage.widthLog ≤ 32 := by
    cases storage <;> decide
  have hMask :
      (UInt32.ofNat (storage.pageWidth - 1)).toNat =
        2 ^ storage.widthLog - 1 := by
    cases storage <;> rfl
  rw [storage.pageWidth_eq_two_pow]
  exact toNat_toUInt32_and x hLog hMask

/- The row of a pixel is a remainder. -/
theorem toNat_row
    (storage : Storage)
    (y : Int32) :
    ((row storage y.toUInt32).toNat : Int) =
      y.toInt % storage.pageHeight := by
  have hLog : storage.heightLog ≤ 32 := by
    cases storage <;> decide
  have hMask :
      (UInt32.ofNat (storage.pageHeight - 1)).toNat =
        2 ^ storage.heightLog - 1 := by
    cases storage <;> rfl
  rw [storage.pageHeight_eq_two_pow]
  exact toNat_toUInt32_and y hLog hMask

/- The pixel of the page that a look-up finds. -/
def slot
    (table : Swizzle)
    (x y : Int32) : Nat :=
  (table.lookup x.toUInt32 y.toUInt32).toNat /
    table.storage.pixelUnits

/- A row-major table finds pixels row by row. -/
theorem slot_rowMajor
    (storage : Storage)
    (x y : Int32) :
    (rowMajor storage).slot x y =
      (row storage y.toUInt32).toNat * storage.pageWidth +
        (column storage x.toUInt32).toNat := by
  have hPos : 0 < storage.pixelUnits := by
    cases storage <;> decide
  rw [slot, lookup_eq, toNat_rowMajor]
  exact Nat.mul_div_cancel _ hPos

namespace Packs

variable {table : Swizzle}

/- A look-up finds the start of a pixel. -/
theorem toNat_lookup
    (hPacks : table.Packs)
    (x y : Int32) :
    (table.lookup x.toUInt32 y.toUInt32).toNat =
      table.storage.pixelUnits * table.slot x y := by
  have hAligned :=
    hPacks.aligned
      (place table.storage x.toUInt32 y.toUInt32)
  rw [slot, lookup_eq]
  exact (Nat.mul_div_cancel'
    (Nat.dvd_of_mod_eq_zero hAligned)).symm

/- A look-up stays in the page. -/
theorem slot_lt
    (hPacks : table.Packs)
    (x y : Int32) :
    table.slot x y < table.storage.pagePixels := by
  have hBounded :=
    hPacks.bounded
      (place table.storage x.toUInt32 y.toUInt32)
  rw [← lookup_eq, hPacks.toNat_lookup,
    ← table.storage.pagePixels_mul_pixelUnits,
    Nat.mul_comm] at hBounded
  exact Nat.lt_of_mul_lt_mul_right hBounded

/- A pixel of a page has one column and one row. -/
theorem slot_injective
    (hPacks : table.Packs)
    {x y x' y' : Int32}
    (hSlot : table.slot x y = table.slot x' y') :
    x.toInt % table.storage.pageWidth =
        x'.toInt % table.storage.pageWidth ∧
      y.toInt % table.storage.pageHeight =
        y'.toInt % table.storage.pageHeight := by
  have hLookup :
      table.lookup x.toUInt32 y.toUInt32 =
        table.lookup x'.toUInt32 y'.toUInt32 := by
    apply UInt32.toNat_inj.mp
    rw [hPacks.toNat_lookup, hPacks.toNat_lookup, hSlot]
  have hPlace :
      place table.storage x.toUInt32 y.toUInt32 =
        place table.storage x'.toUInt32 y'.toUInt32 :=
    hPacks.injective _ _ hLookup
  rw [Fin.ext_iff] at hPlace
  have hColumn := column_lt table.storage x.toUInt32
  have hColumn' := column_lt table.storage x'.toUInt32
  have hMod := congrArg (· % table.storage.pageWidth) hPlace
  have hDiv := congrArg (· / table.storage.pageWidth) hPlace
  simp only [place, Nat.mul_comm _ table.storage.pageWidth,
    Nat.mul_add_mod, Nat.mul_add_div
      (Nat.zero_lt_of_lt hColumn),
    Nat.mod_eq_of_lt, Nat.div_eq_of_lt, hColumn, hColumn',
    Nat.add_zero] at hMod hDiv
  rw [← toNat_column, ← toNat_column, ← toNat_row,
    ← toNat_row, hMod, hDiv]
  exact ⟨rfl, rfl⟩

end Packs

end Swizzle

------------------------------------------------------------
-- Positions of a Buffer
------------------------------------------------------------

/-
  A position inside a buffer: right of its left border, in
  one of the pages of its rows, and in no page row that
  would make the buffer longer than memory.
-/
structure InBuffer
    (storage : Storage)
    (bufferWidth : UInt32)
    (x y : Int32) : Prop where
  left : 0 ≤ x.toInt
  right :
    x.toInt <
      storage.pageWidth * pagesPerRow storage bufferWidth
  top : 0 ≤ y.toInt
  pages :
    pagesPerRow storage bufferWidth *
      (y.toInt / storage.pageHeight + 1) ≤ 512

instance
    (storage : Storage)
    (bufferWidth : UInt32)
    (x y : Int32) :
    Decidable (InBuffer storage bufferWidth x y) :=
  decidable_of_iff
    (0 ≤ x.toInt ∧
      x.toInt <
        storage.pageWidth *
          pagesPerRow storage bufferWidth ∧
      0 ≤ y.toInt ∧
      pagesPerRow storage bufferWidth *
        (y.toInt / storage.pageHeight + 1) ≤ 512)
    ⟨fun ⟨hLeft, hRight, hTop, hPages⟩ =>
        ⟨hLeft, hRight, hTop, hPages⟩,
      fun ⟨hLeft, hRight, hTop, hPages⟩ =>
        ⟨hLeft, hRight, hTop, hPages⟩⟩

namespace InBuffer

variable {storage : Storage}
variable {bufferWidth : UInt32}
variable {x y x' y' : Int32}

/- A position of a buffer lies in a page of its row. -/
theorem pageColumn_bounds
    (hIn : InBuffer storage bufferWidth x y) :
    0 ≤ x.toInt / storage.pageWidth ∧
      x.toInt / storage.pageWidth <
        pagesPerRow storage bufferWidth := by
  have hPos : (0 : Int) < storage.pageWidth := by
    cases storage <;> decide
  have hRight := hIn.right
  rw [Int.mul_comm] at hRight
  exact ⟨Int.ediv_nonneg hIn.left (Int.le_of_lt hPos),
    Int.ediv_lt_of_lt_mul hPos hRight⟩

/- A position of a buffer lies in a page of memory. -/
theorem pageNumber_bounds
    (hIn : InBuffer storage bufferWidth x y) :
    0 ≤ pageNumber storage bufferWidth x y ∧
      pageNumber storage bufferWidth x y < 512 := by
  have hColumn := hIn.pageColumn_bounds
  have hRow :
      0 ≤ y.toInt / storage.pageHeight *
        pagesPerRow storage bufferWidth :=
    Int.mul_nonneg
      (Int.ediv_nonneg hIn.top (Int.natCast_nonneg _))
      (Int.natCast_nonneg _)
  have hPages := hIn.pages
  rw [Int.mul_comm, Int.add_mul, Int.one_mul] at hPages
  unfold pageNumber
  omega

/- A page has one place in the grid of its buffer. -/
theorem pageNumber_injective
    (hIn : InBuffer storage bufferWidth x y)
    (hIn' : InBuffer storage bufferWidth x' y')
    (hPage :
      pageNumber storage bufferWidth x y =
        pageNumber storage bufferWidth x' y') :
    x.toInt / storage.pageWidth =
        x'.toInt / storage.pageWidth ∧
      y.toInt / storage.pageHeight =
        y'.toInt / storage.pageHeight := by
  rcases hIn.pageColumn_bounds with ⟨hNonneg, hLt⟩
  rcases hIn'.pageColumn_bounds with ⟨hNonneg', hLt'⟩
  have hPos :
      (pagesPerRow storage bufferWidth : Int) ≠ 0 := by
    omega
  have hColumn :
      x.toInt / storage.pageWidth =
        x'.toInt / storage.pageWidth := by
    have hMod :=
      congrArg (· % (pagesPerRow storage bufferWidth : Int))
        hPage
    simpa only [pageNumber, Int.add_mul_emod_self_right,
      Int.emod_eq_of_lt hNonneg hLt,
      Int.emod_eq_of_lt hNonneg' hLt'] using hMod
  refine ⟨hColumn, ?_⟩
  unfold pageNumber at hPage
  rw [hColumn] at hPage
  exact Int.eq_of_mul_eq_mul_right hPos
    (Int.add_left_cancel hPage)

end InBuffer

------------------------------------------------------------
-- Numbered Pixels
------------------------------------------------------------

/- The width of one pixel of a layout. -/
def Storage.width : Storage → Width
  | .ct32 | .z32 => .w32
  | .ct16 => .w16
  | .t8 => .w8
  | .t4 => .w4

/- The width of a layout holds one of its pixels. -/
theorem Storage.bits_width
    (storage : Storage) :
    storage.width.bits = storage.bitsPerPixel := by
  cases storage <;> rfl

/-
  The number of a pixel when memory is cut into pixels of
  its layout.  Buffers start at the pixel that holds their
  base address, and wrap at the end of memory.
-/
def pixelNumber
    (table : Swizzle)
    (base bufferWidth : UInt32)
    (x y : Int32) : Int :=
  ((base.toNat * table.storage.unitsPerByte /
        table.storage.pixelUnits : Nat) +
      pageNumber table.storage bufferWidth x y *
        table.storage.pagePixels +
      table.slot x y) %
    (512 * table.storage.pagePixels : Nat)

/- The cell of a pixel is that of its number. -/
theorem start_pixelAddress
    {table : Swizzle}
    (hPacks : table.Packs)
    (base bufferWidth : UInt32)
    (x y : Int32) :
    (table.storage.width.start
        (pixelAddress table base bufferWidth x y) : Int) =
      table.storage.bitsPerPixel *
        pixelNumber table base bufferWidth x y := by
  have hAddress :=
    toNat_pixelAddress table base bufferWidth x y
  rw [hPacks.toNat_lookup] at hAddress
  rw [Width.start_eq]
  unfold pixelNumber
  generalize
    (pixelAddress table base bufferWidth x y).toNat =
      address at *
  generalize
    pageNumber table.storage bufferWidth x y = page at *
  generalize table.slot x y = slot at *
  cases hStorage : table.storage <;>
    simp only [hStorage, Storage.width,
      Storage.unitsPerByte, Storage.pixelUnits,
      Storage.bitsPerPixel, Storage.pagePixels,
      Storage.pageWidth, Storage.pageHeight, pageSize,
      ramSize, Nat.reduceMul] at hAddress ⊢ <;>
    omega

/- Row-major tables number the pixels of a page by rows. -/
theorem start_rowMajor
    (storage : Storage)
    (base bufferWidth : UInt32)
    (x y : Int32) :
    (storage.width.start
        (pixelAddress (Swizzle.rowMajor storage) base
          bufferWidth x y) : Int) =
      storage.bitsPerPixel *
        (((base.toNat * storage.unitsPerByte /
              storage.pixelUnits : Nat) +
            pageNumber storage bufferWidth x y *
              storage.pagePixels +
            (y.toInt % storage.pageHeight *
                storage.pageWidth +
              x.toInt % storage.pageWidth)) %
          (512 * storage.pagePixels : Nat)) := by
  have hSlot :
      ((Swizzle.rowMajor storage).slot x y : Int) =
        y.toInt % storage.pageHeight * storage.pageWidth +
          x.toInt % storage.pageWidth := by
    rw [Swizzle.slot_rowMajor, Int.natCast_add,
      Int.natCast_mul, Swizzle.toNat_row,
      Swizzle.toNat_column]
  rw [← hSlot]
  exact start_pixelAddress
    (Swizzle.packs_rowMajor storage) base bufferWidth x y

/- Pixels of a buffer have different numbers. -/
theorem pixelNumber_injective
    {table : Swizzle}
    (hPacks : table.Packs)
    (base : UInt32)
    {bufferWidth : UInt32}
    {x y x' y' : Int32}
    (hIn : InBuffer table.storage bufferWidth x y)
    (hIn' : InBuffer table.storage bufferWidth x' y')
    (hNumber :
      pixelNumber table base bufferWidth x y =
        pixelNumber table base bufferWidth x' y') :
    x = x' ∧ y = y' := by
  have hPage := hIn.pageNumber_bounds
  have hPage' := hIn'.pageNumber_bounds
  have hSlot := hPacks.slot_lt x y
  have hSlot' := hPacks.slot_lt x' y'
  have hBoth :
      pageNumber table.storage bufferWidth x y =
          pageNumber table.storage bufferWidth x' y' ∧
        table.slot x y = table.slot x' y' := by
    unfold pixelNumber at hNumber
    generalize table.slot x y = slot at *
    generalize table.slot x' y' = slot' at *
    generalize
      pageNumber table.storage bufferWidth x y = page at *
    generalize
      pageNumber table.storage bufferWidth x' y' =
        page' at *
    clear hIn hIn' hPacks
    cases hStorage : table.storage <;>
      simp only [hStorage, Storage.pagePixels,
        Storage.pageWidth, Storage.pageHeight,
        Nat.reduceMul] at * <;>
      omega
  rcases hIn.pageNumber_injective hIn' hBoth.1 with
    ⟨hPageColumn, hPageRow⟩
  rcases hPacks.slot_injective hBoth.2 with
    ⟨hColumn, hRow⟩
  constructor
  · apply Int32.toInt_inj.mp
    rw [← Int.mul_ediv_add_emod x.toInt
        table.storage.pageWidth,
      ← Int.mul_ediv_add_emod x'.toInt
        table.storage.pageWidth,
      hPageColumn, hColumn]
  · apply Int32.toInt_inj.mp
    rw [← Int.mul_ediv_add_emod y.toInt
        table.storage.pageHeight,
      ← Int.mul_ediv_add_emod y'.toInt
        table.storage.pageHeight,
      hPageRow, hRow]

------------------------------------------------------------
-- Pixels Apart
------------------------------------------------------------

/- The cell of a 24-bit pixel lies in that of its word. -/
theorem Width.covers_word
    {address : UInt32}
    {i : Nat}
    (hCovered : Width.w24.Covers address i) :
    Width.w32.Covers address i := by
  unfold Covers at *
  rw [start_eq] at *
  simp only [bits] at *
  omega

/- A frame buffer pixel lies in a pixel of its layout. -/
theorem FrameFormat.covers_pixel
    {format : FrameFormat}
    {address : UInt32}
    {i : Nat}
    (hCovered : format.width.Covers address i) :
    format.pixelFormat.storage.width.Covers address i := by
  cases format with
  | ct24 => exact Width.covers_word hCovered
  | ct32 => exact hCovered
  | ct16 => exact hCovered
  | ct16s => exact hCovered

/- A stored depth lies in a pixel of its layout. -/
theorem DepthFormat.covers_pixel
    {format : DepthFormat}
    {address : UInt32}
    {i : Nat}
    (hCovered : format.width.Covers address i) :
    format.pixelFormat.storage.width.Covers address i := by
  cases format with
  | z24 => exact Width.covers_word hCovered
  | z32 => exact hCovered
  | z16 => exact hCovered
  | z16s => exact hCovered

/- Two pixels of a buffer have no bit in common. -/
theorem apart_pixelAddress
    {table : Swizzle}
    (hPacks : table.Packs)
    (base : UInt32)
    {bufferWidth : UInt32}
    {x y x' y' : Int32}
    (hIn : InBuffer table.storage bufferWidth x y)
    (hIn' : InBuffer table.storage bufferWidth x' y')
    (hOther : (x, y) ≠ (x', y')) :
    Apart table.storage.width
      (pixelAddress table base bufferWidth x y)
      table.storage.width
      (pixelAddress table base bufferWidth x' y') := by
  intro i hCovered hCovered'
  apply hOther
  rw [Prod.mk.injEq]
  apply pixelNumber_injective hPacks base hIn hIn'
  have hStart := start_pixelAddress hPacks base bufferWidth
  have hFirst := hStart x y
  have hSecond := hStart x' y'
  unfold Width.Covers at hCovered hCovered'
  rw [Storage.bits_width] at hCovered hCovered'
  generalize pixelNumber table base bufferWidth x y =
    number at *
  generalize pixelNumber table base bufferWidth x' y' =
    number' at *
  clear hStart
  cases hStorage : table.storage <;>
    simp only [hStorage, Storage.bitsPerPixel] at * <;>
    omega

/- Two pixels of a format have no bit in common. -/
theorem SwizzleBank.apart_pixels
    {bank : SwizzleBank}
    {format : PixelFormat}
    (hPacks : (bank.get format).Packs)
    (base : UInt32)
    {bufferWidth : UInt32}
    {x y x' y' : Int32}
    (hIn : InBuffer format.storage bufferWidth x y)
    (hIn' : InBuffer format.storage bufferWidth x' y')
    (hOther : (x, y) ≠ (x', y')) :
    Apart format.storage.width
      (pixelAddress (bank.get format) base bufferWidth x y)
      format.storage.width
      (pixelAddress (bank.get format) base bufferWidth x'
        y') := by
  have hStorage : (bank.get format).storage =
      format.storage :=
    bank.storage_eq format
  rw [← hStorage] at hIn hIn' ⊢
  exact apart_pixelAddress hPacks base hIn hIn' hOther

end PagedRaster
