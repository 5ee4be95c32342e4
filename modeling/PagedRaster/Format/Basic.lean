import PagedRaster.Format.Storage
import PagedRaster.Text.Hex

/-
  This file defines the thirteen pixel storage formats and
  the register codes that select them.

  Key definitions include:
    * `PixelFormat`
    * `PixelFormat.all`
    * `PixelFormat.code`
    * `PixelFormat.ofCode`
    * `PixelFormat.storage`
    * `UnknownFormat`
-/

namespace PagedRaster

------------------------------------------------------------
-- Formats
------------------------------------------------------------

/-
  A pixel storage format: colour, palette index or depth.
  The formats `t8h`, `t4hl` and `t4hh` keep an index in the
  high bits of a 32-bit pixel.
-/
inductive PixelFormat where
  | ct32
  | ct24
  | ct16
  | ct16s
  | t8
  | t4
  | t8h
  | t4hl
  | t4hh
  | z32
  | z24
  | z16
  | z16s
  deriving DecidableEq, Repr, Inhabited

/- A register code that selects no format of the role. -/
structure UnknownFormat where
  code : UInt32
  deriving DecidableEq, Repr

/- The text of an unknown register code. -/
def UnknownFormat.message
    (unknown : UnknownFormat) : String :=
  "unknown pixel storage mode 0x" ++
    Hex.padded 2 unknown.code.toNat

namespace PixelFormat

/- Every format, in the order tables are built in. -/
def all : List PixelFormat :=
  [.ct32, .ct24, .ct16, .ct16s, .t8, .t4, .t8h, .t4hl,
    .t4hh, .z32, .z24, .z16, .z16s]

/- The place of a format in `all`. -/
def index : PixelFormat → Fin 13
  | .ct32 => 0
  | .ct24 => 1
  | .ct16 => 2
  | .ct16s => 3
  | .t8 => 4
  | .t4 => 5
  | .t8h => 6
  | .t4hl => 7
  | .t4hh => 8
  | .z32 => 9
  | .z24 => 10
  | .z16 => 11
  | .z16s => 12

/- The written name of a format. -/
def name : PixelFormat → String
  | .ct32 => "Ct32"
  | .ct24 => "Ct24"
  | .ct16 => "Ct16"
  | .ct16s => "Ct16S"
  | .t8 => "T8"
  | .t4 => "T4"
  | .t8h => "T8H"
  | .t4hl => "T4HL"
  | .t4hh => "T4HH"
  | .z32 => "Z32"
  | .z24 => "Z24"
  | .z16 => "Z16"
  | .z16s => "Z16S"

/- The register code that selects a format. -/
def code : PixelFormat → UInt32
  | .ct32 => 0x00
  | .ct24 => 0x01
  | .ct16 => 0x02
  | .ct16s => 0x0A
  | .t8 => 0x13
  | .t4 => 0x14
  | .t8h => 0x1B
  | .t4hl => 0x24
  | .t4hh => 0x2C
  | .z32 => 0x30
  | .z24 => 0x31
  | .z16 => 0x32
  | .z16s => 0x3A

/- The format that a register code selects. -/
def ofCode
    (code : UInt32) : Except UnknownFormat PixelFormat :=
  match all.find? (fun format => format.code == code) with
  | some format => .ok format
  | none => .error ⟨code⟩

/- The page layout that a format is stored in. -/
def storage : PixelFormat → Storage
  | .ct32 | .ct24 | .t8h | .t4hl | .t4hh => .ct32
  | .z32 | .z24 => .z32
  | .ct16 | .ct16s | .z16 | .z16s => .ct16
  | .t8 => .t8
  | .t4 => .t4

/- The order of `all` is the order of `index`. -/
theorem all_getElem?_index
    (format : PixelFormat) :
    all[format.index.val]? = some format := by
  cases format <;> rfl

/- Every format is listed. -/
theorem mem_all
    (format : PixelFormat) :
    format ∈ all := by
  cases format <;> decide

/- The code of a format selects that format. -/
theorem ofCode_code
    (format : PixelFormat) :
    ofCode format.code = .ok format := by
  cases format <;> rfl

end PixelFormat

end PagedRaster
