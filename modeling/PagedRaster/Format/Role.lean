import PagedRaster.Format.Basic

/-
  This file defines the formats that a buffer may have in
  each of its roles: frame buffer, depth buffer, texture
  and palette.

  Key definitions include:
    * `FrameFormat`
    * `DepthFormat`
    * `TextureFormat`
    * `PaletteFormat`
    * `TextureFormat.isIndexed`
    * `DepthFormat.mask`
-/

namespace PagedRaster

------------------------------------------------------------
-- Frame Buffers
------------------------------------------------------------

/- The colour formats that can be drawn into. -/
inductive FrameFormat where
  | ct32
  | ct24
  | ct16
  | ct16s
  deriving DecidableEq, Repr, Inhabited

namespace FrameFormat

/- Every frame buffer format. -/
def all : List FrameFormat :=
  [.ct32, .ct24, .ct16, .ct16s]

/- The storage format of a frame buffer. -/
def pixelFormat : FrameFormat → PixelFormat
  | .ct32 => .ct32
  | .ct24 => .ct24
  | .ct16 => .ct16
  | .ct16s => .ct16s

/- The written name of a frame buffer format. -/
def name
    (format : FrameFormat) : String :=
  format.pixelFormat.name

/- The frame buffer format stored in a given way. -/
def ofPixelFormat
    (format : PixelFormat) :
    Except UnknownFormat FrameFormat :=
  match format with
  | .ct32 => .ok .ct32
  | .ct24 => .ok .ct24
  | .ct16 => .ok .ct16
  | .ct16s => .ok .ct16s
  | other => .error ⟨other.code⟩

end FrameFormat

------------------------------------------------------------
-- Depth Buffers
------------------------------------------------------------

/- The depth formats. -/
inductive DepthFormat where
  | z32
  | z24
  | z16
  | z16s
  deriving DecidableEq, Repr, Inhabited

namespace DepthFormat

/- Every depth format. -/
def all : List DepthFormat :=
  [.z32, .z24, .z16, .z16s]

/- The storage format of a depth buffer. -/
def pixelFormat : DepthFormat → PixelFormat
  | .z32 => .z32
  | .z24 => .z24
  | .z16 => .z16
  | .z16s => .z16s

/- The written name of a depth format. -/
def name
    (format : DepthFormat) : String :=
  format.pixelFormat.name

/- The depth format stored in a given way. -/
def ofPixelFormat
    (format : PixelFormat) :
    Except UnknownFormat DepthFormat :=
  match format with
  | .z32 => .ok .z32
  | .z24 => .ok .z24
  | .z16 => .ok .z16
  | .z16s => .ok .z16s
  | other => .error ⟨other.code⟩

/- Bits of a stored depth. -/
def bits : DepthFormat → Nat
  | .z32 => 32
  | .z24 => 24
  | .z16 | .z16s => 16

/- The low bits that a stored depth keeps. -/
def mask : DepthFormat → UInt32
  | .z32 => 0xFFFFFFFF
  | .z24 => 0xFFFFFF
  | .z16 | .z16s => 0xFFFF

end DepthFormat

------------------------------------------------------------
-- Textures
------------------------------------------------------------

/- The formats that a texture can be sampled from. -/
inductive TextureFormat where
  | ct32
  | ct24
  | ct16
  | ct16s
  | t8
  | t4
  | t8h
  | t4hl
  | t4hh
  deriving DecidableEq, Repr, Inhabited

namespace TextureFormat

/- Every texture format. -/
def all : List TextureFormat :=
  [.ct32, .ct24, .ct16, .ct16s, .t8, .t4, .t8h, .t4hl,
    .t4hh]

/- The storage format of a texture. -/
def pixelFormat : TextureFormat → PixelFormat
  | .ct32 => .ct32
  | .ct24 => .ct24
  | .ct16 => .ct16
  | .ct16s => .ct16s
  | .t8 => .t8
  | .t4 => .t4
  | .t8h => .t8h
  | .t4hl => .t4hl
  | .t4hh => .t4hh

/- The written name of a texture format. -/
def name
    (format : TextureFormat) : String :=
  format.pixelFormat.name

/- The texture format stored in a given way. -/
def ofPixelFormat
    (format : PixelFormat) :
    Except UnknownFormat TextureFormat :=
  match format with
  | .ct32 => .ok .ct32
  | .ct24 => .ok .ct24
  | .ct16 => .ok .ct16
  | .ct16s => .ok .ct16s
  | .t8 => .ok .t8
  | .t4 => .ok .t4
  | .t8h => .ok .t8h
  | .t4hl => .ok .t4hl
  | .t4hh => .ok .t4hh
  | other => .error ⟨other.code⟩

/- Texels are indices into a palette. -/
def isIndexed : TextureFormat → Bool
  | .t8 | .t4 | .t8h | .t4hl | .t4hh => true
  | _ => false

/- Palette indices are eight bits wide. -/
def hasByteIndex : TextureFormat → Bool
  | .t8 | .t8h => true
  | _ => false

end TextureFormat

------------------------------------------------------------
-- Palettes
------------------------------------------------------------

/- The colour formats of palette entries. -/
inductive PaletteFormat where
  | ct32
  | ct16
  | ct16s
  deriving DecidableEq, Repr, Inhabited

namespace PaletteFormat

/- Every palette format. -/
def all : List PaletteFormat :=
  [.ct32, .ct16, .ct16s]

/- The storage format of palette entries. -/
def pixelFormat : PaletteFormat → PixelFormat
  | .ct32 => .ct32
  | .ct16 => .ct16
  | .ct16s => .ct16s

/- The written name of a palette format. -/
def name
    (format : PaletteFormat) : String :=
  format.pixelFormat.name

/- The palette format stored in a given way. -/
def ofPixelFormat
    (format : PixelFormat) :
    Except UnknownFormat PaletteFormat :=
  match format with
  | .ct32 => .ok .ct32
  | .ct16 => .ok .ct16
  | .ct16s => .ok .ct16s
  | other => .error ⟨other.code⟩

end PaletteFormat

end PagedRaster
