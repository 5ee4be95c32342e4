import PagedRaster.Descriptor.Text

/-
  This file defines the faults that stop an operation: what
  a caller must not ask for.  Each fault is a cause; its
  wording is in `Fault.message` alone.

  Key definitions include:
    * `Fault`
    * `Fault.message`
-/

namespace PagedRaster

/- Why an operation stopped. -/
inductive Fault where
  /- An open batch ends inside a triangle. -/
  | partialBatch (count : UInt32)
  /- A triangle list ends inside a triangle. -/
  | partialTriangleList (count : Nat)
  /- One append is larger than a frame's storage. -/
  | appendTooLarge (count capacity : Nat)
  /- A program is cached under the descriptor already. -/
  | programCachedTwice (descriptor : Descriptor)
  /- Resources are cached under the key already. -/
  | resourcesCachedTwice (key : ResourceKey)
  /- A table has the page layout of another format. -/
  | wrongPageLayout (format : PixelFormat)
  /- A palette texture is drawn and no palette is bound. -/
  | missingPalette
  /- A queue is asked to work without a frame slot. -/
  | noFrameSlot
  /- A frame slot has no room for more parameters. -/
  | parametersExhausted
  /- Words are written to an address inside a word. -/
  | unalignedUpload (address : UInt32)
  /- Words are written beyond the end of memory. -/
  | uploadPastEnd
  /- A palette upload has the wrong number of entries. -/
  | paletteUploadSize
  /- A range or an index leaves its sequence. -/
  | outOfBounds
  /- A sum or a product of words is no word. -/
  | wordOverflow
  deriving DecidableEq, Repr

namespace Fault

/-
  The text of a fault; what goes past the end of a sequence
  or of the words has none of its own.
-/
def message? : Fault → Option String
  | .partialBatch count =>
      some ("batch of " ++ toString count ++
        " vertices is not a triangle list")
  | .partialTriangleList count =>
      some ("triangle list of " ++ toString count ++
        " vertices")
  | .appendTooLarge count capacity =>
      some (toString count ++
        " vertices do not fit in frame storage of " ++
        toString capacity)
  | .programCachedTwice descriptor =>
      some ("pipeline for " ++ descriptor.text ++
        " registered twice")
  | .resourcesCachedTwice key =>
      some ("resource set for " ++ key.text ++
        " registered twice")
  | .wrongPageLayout format =>
      some ("swizzle table for " ++ format.name ++
        " has the wrong page layout")
  | .missingPalette =>
      some "indexed texture drawn without a CLUT binding"
  | .noFrameSlot =>
      some "at least one frame in flight"
  | .parametersExhausted =>
      some "parameter ring exhausted"
  | .unalignedUpload address =>
      some ("unaligned memory upload at 0x" ++
        Hex.digits address.toNat)
  | .uploadPastEnd =>
      some "memory upload past the end of GS memory"
  | .paletteUploadSize =>
      some "CLUT upload size"
  | .outOfBounds => none
  | .wordOverflow => none

end Fault

end PagedRaster
