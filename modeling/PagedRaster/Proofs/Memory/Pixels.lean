import PagedRaster.Proofs.Memory.Layout

/-
  This file proves that the pixels of a buffer do not
  disturb each other.  Two pixels have no bit in common,
  wherever the buffer starts and wraps, so what is written
  to one of them leaves all that is read of the other.

  Key definitions include:
    * `Storage.WrittenBy`
    * `Undisturbed`

  Key theorems include:
    * `Storage.WrittenBy.covers_pixel`
    * `Apart.undisturbed`
    * `pixels_undisturbed`
-/

namespace PagedRaster

------------------------------------------------------------
-- Writes of One Pixel
------------------------------------------------------------

/-
  The widths in which a pixel is written: that of its
  layout, and 24 bits for pixels of whole words.
-/
def Storage.WrittenBy
    (storage : Storage)
    (width : Width) : Prop :=
  width = storage.width ∨
    (storage.width = .w32 ∧ width = .w24)

/- A write of a pixel touches bits of the pixel only. -/
theorem Storage.WrittenBy.covers_pixel
    {storage : Storage}
    {width : Width}
    (hWidth : storage.WrittenBy width)
    {address : UInt32}
    {i : Nat}
    (hCovered : width.Covers address i) :
    storage.width.Covers address i := by
  rcases hWidth with hOwn | ⟨hWord, hLow⟩
  · rw [← hOwn]
    exact hCovered
  · rw [hLow] at hCovered
    rw [hWord]
    exact Width.covers_word hCovered

/-
  Writing one pixel of a layout leaves every read, of any
  width, that is confined to another pixel.
-/
def Undisturbed
    (storage : Storage)
    (pixel other : UInt32) : Prop :=
  ∀ (memory : Memory)
    (writer reader : Width)
    (value address : UInt32),
    storage.WrittenBy writer →
      (∀ i, reader.Covers address i →
        storage.width.Covers other i) →
        (memory.write writer pixel value).read reader
            address =
          memory.read reader address

/- Pixels without a common bit do not disturb each other. -/
theorem Apart.undisturbed
    {storage : Storage}
    {pixel other : UInt32}
    (hApart :
      Apart storage.width pixel storage.width other) :
    Undisturbed storage pixel other := by
  intro memory writer reader value address hWriter hReader
  apply Memory.read_write_of_apart
  intro i hRead hWritten
  exact hApart i (hWriter.covers_pixel hWritten)
    (hReader i hRead)

------------------------------------------------------------
-- Pixels of a Buffer
------------------------------------------------------------

/-
  Two pixels of a buffer have no bit in common and do not
  disturb each other.  The buffer may start anywhere in
  memory, also inside a pixel, and may wrap at its end; its
  table may be any that packs, as row-major tables do.
-/
theorem pixels_undisturbed :
    (∀ storage,
      (Swizzle.rowMajor storage).storage = storage ∧
        (Swizzle.rowMajor storage).Packs) ∧
      ∀ (table : Swizzle)
        (base bufferWidth : UInt32)
        (x y x' y' : Int32),
        table.Packs →
          InBuffer table.storage bufferWidth x y →
            InBuffer table.storage bufferWidth x' y' →
              (x, y) ≠ (x', y') →
                let pixel :=
                  pixelAddress table base bufferWidth x y
                let other :=
                  pixelAddress table base bufferWidth x' y'
                Apart table.storage.width pixel
                    table.storage.width other ∧
                  Undisturbed table.storage pixel other ∧
                  Undisturbed table.storage other
                    pixel := by
  constructor
  · intro storage
    exact ⟨rfl, Swizzle.packs_rowMajor storage⟩
  · intro table base bufferWidth x y x' y' hPacks hIn hIn'
      hOther pixel other
    have hApart :
        Apart table.storage.width pixel
          table.storage.width other :=
      apart_pixelAddress hPacks base hIn hIn' hOther
    exact
      ⟨hApart, hApart.undisturbed,
        hApart.symm.undisturbed⟩

/-
  Pixels of half words in a buffer that starts at the last
  byte of memory, on two pages: one before and one after the
  end of memory.
-/
theorem pixels_undisturbed_wrapped :
    InBuffer .ct16 128 0 0 ∧
      InBuffer .ct16 128 64 0 ∧
      ((0, 0) : Int32 × Int32) ≠ (64, 0) ∧
      Undisturbed .ct16
        (pixelAddress (Swizzle.rowMajor .ct16) 0x3FFFFF 128
          0 0)
        (pixelAddress (Swizzle.rowMajor .ct16) 0x3FFFFF 128
          64 0) := by
  have hIn : InBuffer .ct16 128 0 0 := by decide
  have hIn' : InBuffer .ct16 128 64 0 := by decide
  have hOther : ((0, 0) : Int32 × Int32) ≠ (64, 0) := by
    decide
  have hPixels :=
    pixels_undisturbed.2 (Swizzle.rowMajor .ct16) 0x3FFFFF
      128 0 0 64 0 (pixels_undisturbed.1 .ct16).2 hIn hIn'
      hOther
  exact ⟨hIn, hIn', hOther, hPixels.2.1⟩

end PagedRaster
