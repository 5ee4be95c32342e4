import PagedRaster.Fault
import PagedRaster.Memory.Basic

/-
  This file defines swizzle tables, which say where in a
  page each of its pixels is stored, and banks of one table
  for every pixel storage format.

  Key definitions include:
    * `Swizzle`
    * `Swizzle.tabulate`
    * `Swizzle.tabulateM`
    * `Swizzle.rowMajor`
    * `Swizzle.lookup`
    * `SwizzleBank`
    * `SwizzleBank.build`
-/

namespace PagedRaster

------------------------------------------------------------
-- Tables
------------------------------------------------------------

/-
  The offset from the page start of every pixel of a page,
  in the address units of the layout.  Offsets are listed
  row by row.
-/
structure Swizzle where
  storage : Storage
  offsets : Vector UInt32 storage.pagePixels

namespace Swizzle

/- A table filled by a function of the in-page position. -/
def tabulate
    (storage : Storage)
    (offset : UInt32 → UInt32 → UInt32) : Swizzle where
  storage := storage
  offsets :=
    Vector.ofFn fun place =>
      offset (UInt32.ofNat (place % storage.pageWidth))
        (UInt32.ofNat (place / storage.pageWidth))

/-
  A table filled by a computation that is run once for each
  in-page position, row by row.
-/
def tabulateM
    {m : Type → Type}
    [Monad m]
    (storage : Storage)
    (offset : UInt32 → UInt32 → m UInt32) :
    m Swizzle := do
  let offsets ←
    Vector.ofFnM fun (place : Fin storage.pagePixels) =>
      offset (UInt32.ofNat (place % storage.pageWidth))
        (UInt32.ofNat (place / storage.pageWidth))
  return ⟨storage, offsets⟩

/- The table that stores the rows of a page in order. -/
def rowMajor
    (storage : Storage) : Swizzle :=
  tabulate storage fun x y =>
    (y * UInt32.ofNat storage.pageWidth + x) *
      UInt32.ofNat storage.pixelUnits

/- The entry `y` rows and `x` pixels into the table. -/
def offsetAt?
    (table : Swizzle)
    (x y : Nat) : Option UInt32 :=
  table.offsets[y * table.storage.pageWidth + x]?

/- The column of a pixel inside its page. -/
@[inline]
def column
    (storage : Storage)
    (x : UInt32) : UInt32 :=
  x &&& UInt32.ofNat (storage.pageWidth - 1)

/- The row of a pixel inside its page. -/
@[inline]
def row
    (storage : Storage)
    (y : UInt32) : UInt32 :=
  y &&& UInt32.ofNat (storage.pageHeight - 1)

/- A column lies in the page. -/
theorem column_lt
    (storage : Storage)
    (x : UInt32) :
    (column storage x).toNat < storage.pageWidth := by
  have hLe :
      (column storage x).toNat ≤
        (UInt32.ofNat (storage.pageWidth - 1)).toNat := by
    rw [column, UInt32.toNat_and]
    exact Nat.and_le_right
  have hMask :
      (UInt32.ofNat (storage.pageWidth - 1)).toNat <
        storage.pageWidth := by
    cases storage <;> decide
  omega

/- A row lies in the page. -/
theorem row_lt
    (storage : Storage)
    (y : UInt32) :
    (row storage y).toNat < storage.pageHeight := by
  have hLe :
      (row storage y).toNat ≤
        (UInt32.ofNat (storage.pageHeight - 1)).toNat := by
    rw [row, UInt32.toNat_and]
    exact Nat.and_le_right
  have hMask :
      (UInt32.ofNat (storage.pageHeight - 1)).toNat <
        storage.pageHeight := by
    cases storage <;> decide
  omega

/- A row and a column of a page select an entry. -/
theorem place_lt
    {storage : Storage}
    {x y : Nat}
    (hx : x < storage.pageWidth)
    (hy : y < storage.pageHeight) :
    y * storage.pageWidth + x < storage.pagePixels := by
  calc
    y * storage.pageWidth + x <
        y * storage.pageWidth + storage.pageWidth := by
      omega
    _ = (y + 1) * storage.pageWidth := by
      rw [Nat.succ_mul]
    _ ≤ storage.pageHeight * storage.pageWidth :=
      Nat.mul_le_mul_right _ hy
    _ = storage.pagePixels := by
      rw [Storage.pagePixels, Nat.mul_comm]

/- The offset of a pixel, by its place in its page. -/
@[inline]
def lookup
    (table : Swizzle)
    (x y : UInt32) : UInt32 :=
  have hPlace :=
    place_lt (column_lt table.storage x)
      (row_lt table.storage y)
  table.offsets[(row table.storage y).toNat *
      table.storage.pageWidth +
    (column table.storage x).toNat]

end Swizzle

------------------------------------------------------------
-- Banks
------------------------------------------------------------

/-
  One table for every format, in the order of
  `PixelFormat.all`; each has its format's page layout.
-/
structure SwizzleBank where
  tables : Vector Swizzle 13
  storage_eq :
    ∀ format : PixelFormat,
      (tables.get format.index).storage = format.storage

namespace SwizzleBank

/- The table of a format. -/
@[inline]
def get
    (bank : SwizzleBank)
    (format : PixelFormat) : Swizzle :=
  bank.tables.get format.index

/- Tables whose layouts are those of a list of formats. -/
def Fits
    (formats : List PixelFormat)
    (tables : List Swizzle) : Prop :=
  tables.map Swizzle.storage =
    formats.map PixelFormat.storage

/- The bank of thirteen tables that fit the formats. -/
def ofTables
    (tables : List Swizzle)
    (hFits : Fits PixelFormat.all tables) :
    SwizzleBank where
  tables := ⟨tables.toArray, by
    simpa [PixelFormat.all] using
      congrArg List.length hFits⟩
  storage_eq := by
    have hLength : tables.length = 13 := by
      simpa [PixelFormat.all] using
        congrArg List.length hFits
    intro format
    have hGet :=
      congrArg (fun l => l[format.index.val]?) hFits
    have hLt : format.index.val < tables.length := by
      rw [hLength]
      exact format.index.isLt
    simp only [List.getElem?_map,
      PixelFormat.all_getElem?_index,
      Option.map_some] at hGet
    rw [List.getElem?_eq_getElem hLt] at hGet
    simpa [Vector.get] using hGet

/-
  Build the tables of a list of formats in order.  The
  first table with another format's layout stops the work.
-/
def buildList
    {m : Type → Type}
    [Monad m]
    (builder : PixelFormat → m Swizzle) :
    (formats : List PixelFormat) →
      m (Except Fault
        { tables : List Swizzle // Fits formats tables })
  | [] => pure (.ok ⟨[], rfl⟩)
  | format :: formats => do
      let table ← builder format
      if hTable : table.storage = format.storage then
        let rest ← buildList builder formats
        match rest with
        | .ok ⟨tables, hTables⟩ =>
            return .ok ⟨table :: tables, by
              simpa [Fits, hTable] using hTables⟩
        | .error fault => return .error fault
      else
        return .error (.wrongPageLayout format)

/- Build a bank by a computation run for every format. -/
def build
    {m : Type → Type}
    [Monad m]
    (builder : PixelFormat → m Swizzle) :
    m (Except Fault SwizzleBank) := do
  let built ← buildList builder PixelFormat.all
  match built with
  | .ok ⟨tables, hFits⟩ =>
      return .ok (ofTables tables hFits)
  | .error fault => return .error fault

/- The bank of row-major tables. -/
def rowMajor : SwizzleBank :=
  ofTables
    (PixelFormat.all.map fun format : PixelFormat =>
      Swizzle.rowMajor format.storage)
    (by
      rw [Fits, List.map_map]
      rfl)

end SwizzleBank

end PagedRaster
