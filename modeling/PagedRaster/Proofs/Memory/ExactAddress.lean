import PagedRaster.Proofs.Memory.Layout

/-
  This file proves that the address of a pixel is an exact
  formula over the integers, taken modulo the size of
  memory.  Whatever function fills the table, no step of the
  wrapped arithmetic shows, and every look-up finds the
  value for its position in the page.

  Key definitions include:
    * `exactAddress`
    * `Swizzle.AddressesExactly`

  Key theorems include:
    * `Swizzle.offsetAt?_tabulate`
    * `Swizzle.lookup_tabulate`
    * `toNat_pixelAddress_right`
    * `toNat_pixelAddress_below`
    * `Swizzle.tabulate_addressesExactly`
-/

namespace PagedRaster

------------------------------------------------------------
-- Filled Tables
------------------------------------------------------------

namespace Swizzle

variable (storage : Storage)
variable (offset : UInt32 → UInt32 → UInt32)

/- A table is filled row by row. -/
theorem offsetAt?_tabulate
    {x y : Nat}
    (hx : x < storage.pageWidth)
    (hy : y < storage.pageHeight) :
    (tabulate storage offset).offsetAt? x y =
      some (offset (UInt32.ofNat x) (UInt32.ofNat y)) := by
  have hWidth : 0 < storage.pageWidth :=
    Nat.zero_lt_of_lt hx
  have hColumn :
      (y * storage.pageWidth + x) % storage.pageWidth =
        x :=
    Nat.mul_add_mod_of_lt hx
  have hRow :
      (y * storage.pageWidth + x) / storage.pageWidth =
        y := by
    rw [Nat.add_comm, Nat.add_mul_div_right _ _ hWidth,
      Nat.div_eq_of_lt hx, Nat.zero_add]
  unfold offsetAt? tabulate
  rw [Vector.getElem?_ofFn, dif_pos (place_lt hx hy),
    hColumn, hRow]

/- A look-up reads an entry of the table. -/
theorem offsetAt?_place
    (table : Swizzle)
    (x y : UInt32) :
    table.offsetAt? (column table.storage x).toNat
        (row table.storage y).toNat =
      some (table.lookup x y) :=
  Vector.getElem?_eq_getElem
    (place_lt (column_lt table.storage x)
      (row_lt table.storage y))

/- The word of a column is that of the remainder. -/
theorem ofNat_emod_pageWidth
    (x : Int32) :
    UInt32.ofNat (x.toInt % storage.pageWidth).toNat =
      column storage x.toUInt32 := by
  rw [← toNat_column, Int.toNat_natCast, UInt32.ofNat_toNat]

/- The word of a row is that of the remainder. -/
theorem ofNat_emod_pageHeight
    (y : Int32) :
    UInt32.ofNat (y.toInt % storage.pageHeight).toNat =
      row storage y.toUInt32 := by
  rw [← toNat_row, Int.toNat_natCast, UInt32.ofNat_toNat]

/- A look-up finds the value for its place in the page. -/
theorem lookup_tabulate
    (x y : UInt32) :
    (tabulate storage offset).lookup x y =
      offset (column storage x) (row storage y) := by
  have hEntry :=
    offsetAt?_place (tabulate storage offset) x y
  have hFilled :=
    offsetAt?_tabulate storage offset
      (column_lt storage x) (row_lt storage y)
  rw [UInt32.ofNat_toNat, UInt32.ofNat_toNat] at hFilled
  exact Option.some.inj (hEntry.symm.trans hFilled)

end Swizzle

------------------------------------------------------------
-- Exact Addresses
------------------------------------------------------------

/-
  The address of a position over the integers, before it
  wraps at the end of memory.  All divisors are positive, so
  quotients round down and remainders are not negative.
-/
def exactAddress
    (storage : Storage)
    (offset : UInt32 → UInt32 → UInt32)
    (base bufferWidth : Nat)
    (x y : Int) : Int :=
  base * storage.unitsPerByte +
    (x / storage.pageWidth +
      y / storage.pageHeight *
        (bufferWidth / storage.pageWidth : Nat)) *
      (pageSize * storage.unitsPerByte : Nat) +
    (offset
      (UInt32.ofNat (x % storage.pageWidth).toNat)
      (UInt32.ofNat (y % storage.pageHeight).toNat)).toNat

/- Addresses of a filled table are exact modulo memory. -/
theorem toNat_pixelAddress_tabulate
    (storage : Storage)
    (offset : UInt32 → UInt32 → UInt32)
    (base bufferWidth : UInt32)
    (x y : Int32) :
    ((pixelAddress (Swizzle.tabulate storage offset) base
        bufferWidth x y).toNat : Int) =
      exactAddress storage offset base.toNat
          bufferWidth.toNat x.toInt y.toInt %
        (ramSize * storage.unitsPerByte : Nat) := by
  rw [toNat_pixelAddress, Swizzle.lookup_tabulate,
    exactAddress, Swizzle.ofNat_emod_pageWidth,
    Swizzle.ofNat_emod_pageHeight]
  rfl

------------------------------------------------------------
-- Neighbouring Pages
------------------------------------------------------------

/- Positions of one place in the page share an offset. -/
theorem Swizzle.lookup_congr
    (table : Swizzle)
    {x y x' y' : Int32}
    (hx :
      x.toInt % table.storage.pageWidth =
        x'.toInt % table.storage.pageWidth)
    (hy :
      y.toInt % table.storage.pageHeight =
        y'.toInt % table.storage.pageHeight) :
    table.lookup x.toUInt32 y.toUInt32 =
      table.lookup x'.toUInt32 y'.toUInt32 := by
  have hColumn :
      column table.storage x.toUInt32 =
        column table.storage x'.toUInt32 := by
    rw [← ofNat_emod_pageWidth, hx, ofNat_emod_pageWidth]
  have hRow :
      row table.storage y.toUInt32 =
        row table.storage y'.toUInt32 := by
    rw [← ofNat_emod_pageHeight, hy,
      ofNat_emod_pageHeight]
  have hEntry := offsetAt?_place table x.toUInt32 y.toUInt32
  rw [hColumn, hRow, offsetAt?_place] at hEntry
  exact (Option.some.inj hEntry).symm

/- A signed sum is exact, or it wraps once. -/
theorem toInt_add_ofNat
    (x : Int32)
    {n : Nat}
    (hn : n < 2147483648) :
    (x + Int32.ofNat n).toInt = x.toInt + n ∨
      (x + Int32.ofNat n).toInt =
        x.toInt + n - 4294967296 := by
  have hSmall : (Int32.ofNat n).toInt = n :=
    Int32.toInt_ofNat_of_lt hn
  have hLow := x.le_toInt
  have hHigh := x.toInt_lt
  rw [Int32.toInt_add, hSmall]
  simp only [Int.bmod, Nat.reducePow]
  split
  · omega
  · omega

/-
  A step of a page side keeps the place in the page, and it
  leads to the next page.  Where it wraps, it goes back by
  whole memories of pages.
-/
theorem step_page
    (x : Int32)
    {side : Nat}
    (hSide : side ∣ 8388608)
    (hSmall : side < 2147483648) :
    (x + Int32.ofNat side).toInt % side =
        x.toInt % side ∧
      ∃ memories,
        (x + Int32.ofNat side).toInt / side =
          x.toInt / side + 1 + 512 * memories := by
  rcases hSide with ⟨count, hCount⟩
  have hPos : (side : Int) ≠ 0 := by
    intro hZero
    rw [Int.natCast_eq_zero.mp hZero, Nat.zero_mul]
      at hCount
    cases hCount
  -- Both ways to step differ by a multiple of the side.
  have hStep :
      ∃ memories,
        (x + Int32.ofNat side).toInt =
          x.toInt + side * (1 + 512 * memories) := by
    have hWhole :
        (4294967296 : Int) = side * (512 * count) := by
      rw [Int.mul_left_comm, ← Int.natCast_mul, ← hCount]
      rfl
    rcases toInt_add_ofNat x hSmall with hSum | hSum
    · exact ⟨0, by rw [hSum]; omega⟩
    · refine ⟨-count, ?_⟩
      rw [hSum, hWhole, Int.mul_add, Int.mul_one,
        Int.mul_neg, Int.mul_neg]
      omega
  rcases hStep with ⟨memories, hStep⟩
  rw [hStep]
  refine ⟨Int.add_mul_emod_self_left _ _ _, memories, ?_⟩
  rw [Int.add_mul_ediv_left _ _ hPos, Int.add_assoc]

section Neighbours

variable (table : Swizzle)
variable (base bufferWidth : UInt32)
variable (x y : Int32)

/-
  Pages that differ by whole memories apart from a number
  of pages are that number of pages apart.
-/
theorem toNat_pixelAddress_of_pages
    {x y x' y' : Int32}
    {pages : Nat}
    (hPage :
      ∃ memories,
        pageNumber table.storage bufferWidth x' y' =
          pageNumber table.storage bufferWidth x y + pages +
            512 * memories)
    (hLookup :
      table.lookup x'.toUInt32 y'.toUInt32 =
        table.lookup x.toUInt32 y.toUInt32) :
    (pixelAddress table base bufferWidth x' y').toNat =
      ((pixelAddress table base bufferWidth x y).toNat +
          pages *
            (pageSize * table.storage.unitsPerByte)) %
        (ramSize * table.storage.unitsPerByte) := by
  have hThere :=
    toNat_pixelAddress table base bufferWidth x' y'
  have hHere :=
    toNat_pixelAddress table base bufferWidth x y
  have hCases :
      table.storage.unitsPerByte = 1 ∨
        table.storage.unitsPerByte = 2 := by
    cases table.storage <;> decide
  rcases hPage with ⟨memories, hPage⟩
  rw [hPage, hLookup] at hThere
  generalize pageNumber table.storage bufferWidth x y =
    page at *
  rcases hCases with hUnit | hUnit
  · simp only [hUnit, ramSize, pageSize, Nat.reduceMul]
      at *
    omega
  · simp only [hUnit, ramSize, pageSize, Nat.reduceMul]
      at *
    omega

/-
  One page to the right, addresses are one page further.
  The law holds across the end of the signed range, too.
-/
theorem toNat_pixelAddress_right :
    (pixelAddress table base bufferWidth
        (x + Int32.ofNat table.storage.pageWidth) y).toNat =
      ((pixelAddress table base bufferWidth x y).toNat +
          pageSize * table.storage.unitsPerByte) %
        (ramSize * table.storage.unitsPerByte) := by
  have hWidth :
      table.storage.pageWidth ∣ 8388608 ∧
        table.storage.pageWidth < 2147483648 := by
    cases table.storage <;> decide
  rcases step_page x hWidth.1 hWidth.2 with
    ⟨hColumn, memories, hPage⟩
  rw [← Nat.one_mul (pageSize * table.storage.unitsPerByte)]
  apply toNat_pixelAddress_of_pages
  · refine ⟨memories, ?_⟩
    unfold pageNumber
    rw [hPage]
    omega
  · exact table.lookup_congr hColumn rfl

/- One page down, they are one row of pages further. -/
theorem toNat_pixelAddress_below :
    (pixelAddress table base bufferWidth x
        (y + Int32.ofNat table.storage.pageHeight)).toNat =
      ((pixelAddress table base bufferWidth x y).toNat +
          pagesPerRow table.storage bufferWidth *
            (pageSize * table.storage.unitsPerByte)) %
        (ramSize * table.storage.unitsPerByte) := by
  have hHeight :
      table.storage.pageHeight ∣ 8388608 ∧
        table.storage.pageHeight < 2147483648 := by
    cases table.storage <;> decide
  rcases step_page y hHeight.1 hHeight.2 with
    ⟨hRow, memories, hPage⟩
  apply toNat_pixelAddress_of_pages
  · refine
      ⟨memories * pagesPerRow table.storage bufferWidth, ?_⟩
    unfold pageNumber
    rw [hPage, Int.add_mul, Int.add_mul, Int.one_mul,
      Int.mul_assoc]
    omega
  · exact table.lookup_congr rfl hRow

end Neighbours

------------------------------------------------------------
-- Every Filled Table
------------------------------------------------------------

/-
  What a filled table and its addresses are.  The entry of a
  position in the page is the value for it; the masked
  position of any pixel is one of the page, so the entry is
  there; and addresses are exact modulo the size of memory,
  one page further for each page to the right and one row of
  pages further for each page down.
-/
structure Swizzle.AddressesExactly
    (storage : Storage)
    (offset : UInt32 → UInt32 → UInt32) : Prop where
  filled :
    ∀ x y, x < storage.pageWidth →
      y < storage.pageHeight →
        (tabulate storage offset).offsetAt? x y =
          some (offset (UInt32.ofNat x) (UInt32.ofNat y))
  found :
    ∀ x y : Int32,
      (tabulate storage offset).offsetAt?
          (column storage x.toUInt32).toNat
          (row storage y.toUInt32).toNat =
        some (offset
          (UInt32.ofNat (x.toInt % storage.pageWidth).toNat)
          (UInt32.ofNat
            (y.toInt % storage.pageHeight).toNat))
  address :
    ∀ base bufferWidth x y,
      ((pixelAddress (tabulate storage offset) base
          bufferWidth x y).toNat : Int) =
        exactAddress storage offset base.toNat
            bufferWidth.toNat x.toInt y.toInt %
          (ramSize * storage.unitsPerByte : Nat)
  right :
    ∀ base bufferWidth x y,
      (pixelAddress (tabulate storage offset) base
          bufferWidth (x + Int32.ofNat storage.pageWidth)
          y).toNat =
        ((pixelAddress (tabulate storage offset) base
            bufferWidth x y).toNat +
          pageSize * storage.unitsPerByte) %
            (ramSize * storage.unitsPerByte)
  below :
    ∀ base bufferWidth x y,
      (pixelAddress (tabulate storage offset) base
          bufferWidth x
          (y + Int32.ofNat storage.pageHeight)).toNat =
        ((pixelAddress (tabulate storage offset) base
            bufferWidth x y).toNat +
          bufferWidth.toNat / storage.pageWidth *
            (pageSize * storage.unitsPerByte)) %
              (ramSize * storage.unitsPerByte)

/- Addresses are exact for every layout and function. -/
theorem Swizzle.tabulate_addressesExactly
    (storage : Storage)
    (offset : UInt32 → UInt32 → UInt32) :
    AddressesExactly storage offset where
  filled _ _ hx hy :=
    offsetAt?_tabulate storage offset hx hy
  found x y := by
    have hFound :=
      offsetAt?_place (tabulate storage offset)
        x.toUInt32 y.toUInt32
    rw [lookup_tabulate] at hFound
    rw [ofNat_emod_pageWidth, ofNat_emod_pageHeight]
    exact hFound
  address := toNat_pixelAddress_tabulate storage offset
  right :=
    toNat_pixelAddress_right (tabulate storage offset)
  below :=
    toNat_pixelAddress_below (tabulate storage offset)

end PagedRaster
