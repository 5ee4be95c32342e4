import PagedRaster.Memory.Swizzle

/-
  This file defines the address of a pixel in a buffer.  A
  buffer is a grid of pages, as many to a row as fit in its
  width; its pages follow one another in memory from the
  base address on.

  Key definitions include:
    * `pixelAddress`
-/

namespace PagedRaster

/-
  The address of a pixel in the units of the table.  The
  base counts bytes and the buffer width pixels; positions
  left of or above the buffer fall into earlier pages.
  Every step wraps at 32 bits and the last one at the end
  of memory.
-/
def pixelAddress
    (table : Swizzle)
    (base bufferWidth : UInt32)
    (x y : Int32) : UInt32 :=
  let storage := table.storage
  let pageX := x >>> Int32.ofNat storage.widthLog
  let pageY := y >>> Int32.ofNat storage.heightLog
  let pagesPerRow :=
    (bufferWidth /
      UInt32.ofNat storage.pageWidth).toInt32
  let page := (pageX + pageY * pagesPerRow).toUInt32
  let units := UInt32.ofNat storage.unitsPerByte
  let offset := table.lookup x.toUInt32 y.toUInt32
  (base * units +
      page * (UInt32.ofNat pageSize * units) + offset) &&&
    (UInt32.ofNat ramSize * units - 1)

end PagedRaster
