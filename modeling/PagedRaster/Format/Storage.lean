/-
  This file defines the five page layouts of video memory.
  Memory is cut into pages of 8 KiB; a layout says how many
  pixels a page is wide and high.  Addresses of 4-bit
  layouts count nibbles, all others count bytes.

  Key definitions include:
    * `Storage`
    * `Storage.pageWidth`
    * `Storage.pageHeight`
    * `Storage.bitsPerPixel`
    * `Storage.unitsPerByte`
    * `Storage.pixelUnits`
-/

namespace PagedRaster

/- Bytes in one page. -/
def pageSize : Nat :=
  8192

/- The layout of the pixels inside a page. -/
inductive Storage where
  | ct32
  | z32
  | ct16
  | t8
  | t4
  deriving DecidableEq, Repr, Inhabited

namespace Storage

/- Every layout. -/
def all : List Storage :=
  [.ct32, .z32, .ct16, .t8, .t4]

/- The written name of a layout. -/
def name : Storage → String
  | .ct32 => "Ct32"
  | .z32 => "Z32"
  | .ct16 => "Ct16"
  | .t8 => "T8"
  | .t4 => "T4"

/- Binary logarithm of the page width. -/
def widthLog : Storage → Nat
  | .ct32 | .z32 | .ct16 => 6
  | .t8 | .t4 => 7

/- Binary logarithm of the page height. -/
def heightLog : Storage → Nat
  | .ct32 | .z32 => 5
  | .ct16 | .t8 => 6
  | .t4 => 7

/- Pixels in one row of a page. -/
def pageWidth : Storage → Nat
  | .ct32 | .z32 | .ct16 => 64
  | .t8 | .t4 => 128

/- Rows of a page. -/
def pageHeight : Storage → Nat
  | .ct32 | .z32 => 32
  | .ct16 | .t8 => 64
  | .t4 => 128

/- Pixels in a page. -/
def pagePixels
    (s : Storage) : Nat :=
  s.pageWidth * s.pageHeight

/- Memory bits that one pixel occupies. -/
def bitsPerPixel : Storage → Nat
  | .ct32 | .z32 => 32
  | .ct16 => 16
  | .t8 => 8
  | .t4 => 4

/- Address units in a byte: nibbles for the 4-bit layout. -/
def unitsPerByte : Storage → Nat
  | .t4 => 2
  | _ => 1

/- Address units from one pixel to the next. -/
def pixelUnits : Storage → Nat
  | .ct32 | .z32 => 4
  | .ct16 => 2
  | .t8 | .t4 => 1

/- The pixels of a page fill it exactly. -/
theorem pagePixels_mul_pixelUnits
    (s : Storage) :
    s.pagePixels * s.pixelUnits =
      pageSize * s.unitsPerByte := by
  cases s <;> rfl

end Storage

end PagedRaster
