import PagedRaster.Fragment.Shade
import PagedRaster.Proofs.Memory.Building
import PagedRaster.Proofs.Memory.ExactAddress
import PagedRaster.Proofs.Triangle.Emission

/-
  This file proves that a bank hands out the tables that
  were built for it, and that no look-up of a fragment
  leaves them.  Shading by steps that may fail takes its
  tables from a plain list and checks every index; over the
  built tables no check fails, wherever the fragment is.

  Key definitions include:
    * `Swizzle.lookupChecked`
    * `pixelAddressChecked`
    * `DrawState.shadeChecked`
    * `SwizzleBank.HandsOut`

  Key theorems include:
    * `Swizzle.lookupChecked_eq`
    * `DrawState.shadeChecked_eq`
    * `SwizzleBank.handsOut_of_lists`
    * `SwizzleBank.tables_found_as_built`
-/

namespace PagedRaster

------------------------------------------------------------
-- Checked Look-Ups
------------------------------------------------------------

namespace Swizzle

/-
  The offset of a pixel by steps that may fail.  The place
  in the table must be a word and lie in the table.
-/
def lookupChecked
    (table : Swizzle)
    (x y : UInt32) : Option UInt32 := do
  let start ←
    checkedMul (row table.storage y)
      (UInt32.ofNat table.storage.pageWidth)
  let place ← checkedAdd start (column table.storage x)
  table.offsets[place.toNat]?

/- None of them fails. -/
theorem lookupChecked_eq
    (table : Swizzle)
    (x y : UInt32) :
    table.lookupChecked x y = some (table.lookup x y) := by
  have hSize : UInt32.size = 4294967296 := rfl
  have hWidth :
      (UInt32.ofNat table.storage.pageWidth).toNat =
        table.storage.pageWidth := by
    cases table.storage <;> rfl
  have hPixels : table.storage.pagePixels ≤ 16384 := by
    cases table.storage <;> decide
  have hPlace :=
    place_lt (column_lt table.storage x)
      (row_lt table.storage y)
  have hEntry := offsetAt?_place table x y
  unfold offsetAt? at hEntry
  rw [← hWidth] at hPlace hEntry
  have hRows :
      (row table.storage y).toNat *
          (UInt32.ofNat table.storage.pageWidth).toNat <
        UInt32.size := by
    omega
  rcases exists_checkedProduct hRows with
    ⟨start, hStart, hProduct⟩
  rw [← hProduct] at hPlace hEntry
  have hPlaces :
      start.toNat + (column table.storage x).toNat <
        UInt32.size := by
    omega
  rcases exists_checkedSum hPlaces with
    ⟨place, hPlaced, hSum⟩
  rw [← hSum] at hEntry
  unfold lookupChecked
  rw [hStart, Option.bind_eq_bind, Option.bind_some,
    hPlaced, Option.bind_some]
  exact hEntry

end Swizzle

/- The address of a pixel, by a look-up that may fail. -/
def pixelAddressChecked
    (table : Swizzle)
    (base bufferWidth : UInt32)
    (x y : Int32) : Option UInt32 := do
  let storage := table.storage
  let pageX := x >>> Int32.ofNat storage.widthLog
  let pageY := y >>> Int32.ofNat storage.heightLog
  let pagesPerRow :=
    (bufferWidth /
      UInt32.ofNat storage.pageWidth).toInt32
  let page := (pageX + pageY * pagesPerRow).toUInt32
  let units := UInt32.ofNat storage.unitsPerByte
  let offset ← table.lookupChecked x.toUInt32 y.toUInt32
  return (base * units +
      page * (UInt32.ofNat pageSize * units) + offset) &&&
    (UInt32.ofNat ramSize * units - 1)

/- It does not fail, wherever the pixel is. -/
theorem pixelAddressChecked_eq
    (table : Swizzle)
    (base bufferWidth : UInt32)
    (x y : Int32) :
    pixelAddressChecked table base bufferWidth x y =
      some (pixelAddress table base bufferWidth x y) := by
  unfold pixelAddressChecked
  dsimp only
  rw [Swizzle.lookupChecked_eq]
  rfl

/-
  The address of a pixel in a buffer of a format.  The list
  of tables must have one at the place of the format.
-/
def addressChecked
    (tables : List Swizzle)
    (format : PixelFormat)
    (base bufferWidth : UInt32)
    (x y : Int32) : Option UInt32 := do
  let table ← tables[format.index.val]?
  pixelAddressChecked table base bufferWidth x y

/- An address is found in the table of its format. -/
theorem addressChecked_eq
    {bank : SwizzleBank}
    {tables : List Swizzle}
    (hLists : bank.Lists tables)
    (format : PixelFormat)
    (base bufferWidth : UInt32)
    (x y : Int32) :
    addressChecked tables format base bufferWidth x y =
      some (pixelAddress (bank.get format) base bufferWidth
        x y) := by
  unfold addressChecked
  rw [hLists format]
  exact pixelAddressChecked_eq _ base bufferWidth x y

namespace DrawState

------------------------------------------------------------
-- Checked Shading
------------------------------------------------------------

section Checked

variable (state : DrawState)
variable (tables : List Swizzle)
variable (memory : Memory)

/- The colour of the texel at a place. -/
def texelChecked
    (u v : Int32) : Option Color := do
  let format := state.descriptor.texture
  let address ←
    addressChecked tables format.pixelFormat
      state.params.textureAddress
      state.params.textureBufferWidth u v
  let bits :=
    memory.read format.width (format.readAddress address)
  return match format with
    | .ct32 | .ct24 => Color.ofPixel32 bits
    | .ct16 | .ct16s => Color.ofPixel16 bits
    | .t8 | .t4 | .t8h | .t4hl | .t4hh =>
        state.paletteColor bits

/- The colour of a fragment before the tests. -/
def sourceColorChecked
    (fragment : Fragment) : Option Color :=
  let d := state.descriptor
  if d.textured then do
    let place := state.texelPlace fragment
    let texel ←
      state.texelChecked tables memory place.1 place.2
    return d.textureFunction.combine d.textureHasAlpha
      (state.expandAlpha texel) fragment.color
  else
    some fragment.color

/-
  Commit a colour and a depth at a pixel.  Both addresses
  are taken before anything is read.
-/
def commitChecked
    (source : Color)
    (sourceDepth : UInt32)
    (x y : Int32) : Option (Color × Memory) := do
  let d := state.descriptor
  let p := state.params
  let frameAddress ←
    addressChecked tables d.frame.pixelFormat
      p.frameAddress p.frameWidth x y
  let depthAddress ←
    addressChecked tables d.depth.pixelFormat
      p.depthAddress p.depthWidth x y
  let stored := state.storedPixel memory frameAddress
  let depth := sourceDepth &&& d.depth.mask
  let passes := state.depthPasses memory depthAddress depth
  let color :=
    state.outputColor source (state.storedColor stored)
  return if passes then
      (color,
        state.store memory frameAddress depthAddress
          (state.mergedPixel color stored) depth)
    else
      (color, memory)

/- Run a fragment, whose look-ups may fail. -/
def shadeChecked
    (fragment : Fragment) : Option (Color × Memory) := do
  let color ←
    state.sourceColorChecked tables memory fragment
  if state.alphaPasses color then
    state.commitChecked tables memory color
      fragment.depthWord fragment.x fragment.y
  else
    return (color, memory)

end Checked

/- The draw state with the tables of another bank. -/
def withBank
    (state : DrawState)
    (bank : SwizzleBank) : DrawState :=
  { state with bank := bank }

section Built

variable (state : DrawState)
variable {tables : List Swizzle}
variable {bank : SwizzleBank}
variable (hLists : bank.Lists tables)

include hLists

/- A texel is found. -/
theorem texelChecked_eq
    (memory : Memory)
    (u v : Int32) :
    state.texelChecked tables memory u v =
      some ((state.withBank bank).texel memory u v) := by
  unfold texelChecked
  dsimp only
  rw [addressChecked_eq hLists]
  rfl

/- The colour before the tests is found. -/
theorem sourceColorChecked_eq
    (memory : Memory)
    (fragment : Fragment) :
    state.sourceColorChecked tables memory fragment =
      some ((state.withBank bank).sourceColor memory
        fragment) := by
  have hSame :
      (state.withBank bank).descriptor = state.descriptor :=
    rfl
  unfold sourceColorChecked sourceColor
  rw [hSame]
  dsimp only
  split
  · rw [texelChecked_eq state hLists]
    rfl
  · rfl

/- A commit finds both of its addresses. -/
theorem commitChecked_eq
    (memory : Memory)
    (source : Color)
    (sourceDepth : UInt32)
    (x y : Int32) :
    state.commitChecked tables memory source sourceDepth x
        y =
      some ((state.withBank bank).commit memory source
        sourceDepth x y) := by
  unfold commitChecked
  dsimp only
  rw [addressChecked_eq hLists, addressChecked_eq hLists]
  rfl

/- Over the tables of a bank, no look-up fails. -/
theorem shadeChecked_eq
    (memory : Memory)
    (fragment : Fragment) :
    state.shadeChecked tables memory fragment =
      some ((state.withBank bank).shade memory fragment) := by
  unfold shadeChecked shade
  rw [sourceColorChecked_eq state hLists]
  dsimp only [Option.bind_eq_bind, Option.bind_some]
  have hAlpha :
      state.alphaPasses =
        (state.withBank bank).alphaPasses :=
    rfl
  rw [hAlpha]
  split
  · exact commitChecked_eq state hLists memory _ _ _ _
  · rfl

end Built

end DrawState

------------------------------------------------------------
-- Built Tables
------------------------------------------------------------

namespace SwizzleBank

/-
  A bank hands out the tables of the calls that built it.
  There was one call for each format, in order, and its
  table has the layout of the format and is the one that is
  found under it, also by the formats of each role.  Where
  the tables are a list and all look-ups are checked, each
  fragment finds what it looks up, and it is shaded as with
  the bank.
-/
structure HandsOut
    (bank : SwizzleBank)
    (calls : List BuilderCall) : Prop where
  complete :
    calls.map BuilderCall.format = PixelFormat.all
  fits : ∀ call ∈ calls, call.Fits
  tables :
    ∀ call ∈ calls, bank.get call.format = call.table
  frame :
    FoundThrough bank calls FrameFormat.all
      FrameFormat.pixelFormat FrameFormat.ofPixelFormat
  depth :
    FoundThrough bank calls DepthFormat.all
      DepthFormat.pixelFormat DepthFormat.ofPixelFormat
  texture :
    FoundThrough bank calls TextureFormat.all
      TextureFormat.pixelFormat TextureFormat.ofPixelFormat
  palette :
    FoundThrough bank calls PaletteFormat.all
      PaletteFormat.pixelFormat PaletteFormat.ofPixelFormat
  lookUps :
    ∀ (state : DrawState) (memory : Memory)
        (fragment : Fragment),
      state.shadeChecked (calls.map BuilderCall.table)
          memory fragment =
        some ((state.withBank bank).shade memory fragment)

/- A bank that lists the tables of fit calls is theirs. -/
theorem handsOut_of_lists
    {bank : SwizzleBank}
    {calls : List BuilderCall}
    (hFormats :
      calls.map BuilderCall.format = PixelFormat.all)
    (hFits : ∀ call ∈ calls, call.Fits)
    (hLists : bank.Lists (calls.map BuilderCall.table)) :
    bank.HandsOut calls := by
  have hTables :
      ∀ call ∈ calls,
        bank.get call.format = call.table :=
    fun call hCall =>
      get_of_mem_calls hFormats hLists hCall
  exact
    { complete := hFormats
      fits := hFits
      tables := hTables
      frame := converts_frame.foundThrough hFormats hTables
      depth := converts_depth.foundThrough hFormats hTables
      texture :=
        converts_texture.foundThrough hFormats hTables
      palette :=
        converts_palette.foundThrough hFormats hTables
      lookUps := fun state memory fragment =>
        state.shadeChecked_eq hLists memory fragment }

variable {σ : Type}

/-
  Tables are found as they were built.  A builder may keep a
  state between calls.  It is called for the formats in
  their order, and its last state is the one that these
  calls leave.  Building fails exactly if one of the tables
  has another page layout than its format; the work stops at
  the first of them, and the fault names its format.  A bank
  that is built hands out the tables of the calls.
-/
theorem tables_found_as_built
    (builder : PixelFormat → StateM σ Swizzle)
    (s : σ) :
    ∃ calls,
      Asks builder PixelFormat.all s calls
          ((build builder).run s).2 ∧
        ((∃ fault,
            ((build builder).run s).1 = .error fault) ↔
          ∃ call ∈ calls, ¬ call.Fits) ∧
        match ((build builder).run s).1 with
        | .ok bank => bank.HandsOut calls
        | .error fault =>
            ∃ format,
              fault = .wrongPageLayout format ∧
                StopsAt calls format := by
  rcases exists_calls_build builder s with
    ⟨calls, hAsks, hEnd⟩
  refine ⟨calls, hAsks, ?_⟩
  cases hResult : ((build builder).run s).1 with
  | error fault =>
      rw [hResult] at hEnd
      rcases hEnd with ⟨format, hFault, hStop⟩
      have hMisfit := hStop.exists_misfit
      exact ⟨⟨fun _ => hMisfit, fun _ => ⟨fault, rfl⟩⟩,
        format, hFault, hStop⟩
  | ok bank =>
      rw [hResult] at hEnd
      rcases hEnd with ⟨hFormats, hFits, hLists⟩
      refine ⟨⟨?_, ?_⟩,
        handsOut_of_lists hFormats hFits hLists⟩
      · rintro ⟨fault, hFault⟩
        cases hFault
      · rintro ⟨call, hCall, hMisfit⟩
        exact absurd (hFits call hCall) hMisfit

/-
  A builder that numbers its calls.  The table of a call
  holds its number everywhere, and one call gets the layout
  of a depth buffer.
-/
def numbered
    (wrong : Nat)
    (format : PixelFormat) : StateM Nat Swizzle :=
  modifyGet fun count =>
    (Swizzle.tabulate
        (if count = wrong then .z32 else format.storage)
        fun _ _ => UInt32.ofNat count,
      count + 1)

/-
  If it is wrong at no call, each format of a role finds the
  number of its call.  If it is wrong at its sixth call, it
  is not called again.
-/
theorem tables_found_as_built_numbered :
    (∃ bank,
        (build (numbered 13)).run 0 = (.ok bank, 13) ∧
          bank.get TextureFormat.t4hh.pixelFormat =
            Swizzle.tabulate .ct32 fun _ _ => 8) ∧
      (build (numbered 5)).run 0 =
          (.error (.wrongPageLayout .t4), 6) ∧
        ∃ calls,
          Asks (numbered 5) PixelFormat.all 0 calls 6 ∧
            StopsAt calls .t4 := by
  have hRight :
      ∃ bank,
        (build (numbered 13)).run 0 = (.ok bank, 13) :=
    ⟨_, rfl⟩
  have hWrong :
      (build (numbered 5)).run 0 =
        (.error (.wrongPageLayout .t4), 6) :=
    rfl
  constructor
  · rcases tables_found_as_built (numbered 13) 0 with
      ⟨calls, hAsks, -, hBank⟩
    rcases hRight with ⟨bank, hRight⟩
    rw [hRight] at hAsks hBank
    refine ⟨bank, hRight, ?_⟩
    have hCalls := hAsks.recorded
    rw [hBank.complete] at hCalls
    have hNinth :
        ((record (numbered 13) PixelFormat.all).run 0).1[8]? =
          some
            ⟨.t4hh, Swizzle.tabulate .ct32 fun _ _ => 8⟩ :=
      rfl
    rw [hCalls] at hNinth
    rcases hBank.texture.found .t4hh with
      ⟨call, -, hFound, hOnly⟩
    have hCall :=
      (hOnly _ (List.mem_of_getElem? hNinth)).mp rfl
    rw [hFound, ← hCall]
  · rcases tables_found_as_built (numbered 5) 0 with
      ⟨calls, hAsks, -, hStop⟩
    rw [hWrong] at hAsks hStop
    rcases hStop with ⟨format, hFault, hStop⟩
    cases hFault
    exact ⟨rfl, calls, hAsks, hStop⟩

end SwizzleBank

end PagedRaster
