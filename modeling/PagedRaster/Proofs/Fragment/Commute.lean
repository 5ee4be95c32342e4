import PagedRaster.Proofs.Fragment.Footprint
import PagedRaster.Proofs.Memory.Layout

/-
  This file proves that fragments of different pixels
  commute.  Non-overlapping fragments may be shaded in any
  order: each returns the colour that it returns alone, and
  the memory afterwards is the same.

  Key definitions include:
    * `DrawState.Independent`
    * `DrawState.NonOverlapping`

  Key theorems include:
    * `DrawState.shade_comm`
    * `DrawState.shadeAll_of_independent`
    * `DrawState.NonOverlapping.independent`
    * `DrawState.shadeAll_anyOrder`
-/

namespace PagedRaster

namespace DrawState

------------------------------------------------------------
-- Independent Fragments
------------------------------------------------------------

/- Neither fragment writes a bit that the other one uses. -/
structure Independent
    (state : DrawState)
    (fragment other : Fragment) : Prop where
  reads :
    ∀ i, state.Writes fragment i → ¬state.Reads other i
  readsBack :
    ∀ i, state.Writes other i → ¬state.Reads fragment i
  writes :
    ∀ i, state.Writes fragment i → ¬state.Writes other i

/- Independence goes both ways. -/
theorem Independent.symm
    {state : DrawState}
    {fragment other : Fragment}
    (hIndependent : state.Independent fragment other) :
    state.Independent other fragment where
  reads := hIndependent.readsBack
  readsBack := hIndependent.reads
  writes := by
    intro i hWrites hWrites'
    exact hIndependent.writes i hWrites' hWrites

/- Independent fragments leave one memory in either order. -/
theorem shade_comm
    {state : DrawState}
    {fragment other : Fragment}
    (hIndependent : state.Independent fragment other)
    (memory : Memory) :
    (state.shade (state.shade memory fragment).2 other).2 =
      (state.shade (state.shade memory other).2
        fragment).2 := by
  have hOther :
      state.written (state.shade memory fragment).2 other =
        state.written memory other :=
    written_congr
      (state.agreeOn_shade memory fragment
        hIndependent.reads)
  have hFragment :
      state.written (state.shade memory other).2 fragment =
        state.written memory fragment :=
    written_congr
      (state.agreeOn_shade memory other
        hIndependent.readsBack)
  apply Memory.ext_bit
  intro i
  rw [bit_shade, bit_shade, bit_shade, bit_shade, hOther,
    hFragment]
  cases hFirst : state.written memory fragment i with
  | none => rfl
  | some first =>
      cases hSecond : state.written memory other i with
      | none => rfl
      | some second =>
          have hWrites := writes_of_written hFirst
          have hWrites' := writes_of_written hSecond
          exact absurd hWrites'
            (hIndependent.writes i hWrites)

------------------------------------------------------------
-- Lists of Independent Fragments
------------------------------------------------------------

/-
  Independent fragments return the colours that they return
  alone.
-/
theorem fst_shadeAll
    {state : DrawState}
    {fragments : List Fragment}
    (hIndependent : fragments.Pairwise state.Independent)
    (memory : Memory) :
    (state.shadeAll memory fragments).1 =
      fragments.map fun fragment =>
        (state.shade memory fragment).1 := by
  induction fragments generalizing memory with
  | nil => rfl
  | cons fragment rest ih =>
      rcases List.pairwise_cons.mp hIndependent with
        ⟨hFirst, hRest⟩
      have hAlone :
          ∀ other ∈ rest,
            (state.shade (state.shade memory fragment).2
                other).1 =
              (state.shade memory other).1 := by
        intro other hOther
        rw [fst_shade, fst_shade]
        apply shadedColor_congr
        exact state.agreeOn_shade memory fragment
          (hFirst other hOther).reads
      have hColors :=
        (ih hRest (state.shade memory fragment).2).trans
          (List.map_congr_left hAlone)
      rw [List.map_cons, ← hColors]
      rfl

/- Independent fragments may be shaded in any order. -/
theorem shadeAll_of_independent
    {state : DrawState}
    {fragments order : List Fragment}
    (hIndependent : fragments.Pairwise state.Independent)
    (hOrder : order.Perm fragments)
    (memory : Memory) :
    (state.shadeAll memory order).2 =
      (state.shadeAll memory fragments).2 := by
  rw [snd_shadeAll, snd_shadeAll]
  symm
  apply hOrder.symm.foldl_eq'
  apply List.Pairwise.forall_of_forall_of_flip
  · intro fragment _ memory
    rfl
  · apply hIndependent.imp
    intro first second hPair memory
    exact shade_comm hPair memory
  · apply hIndependent.imp
    intro first second hPair memory
    exact (shade_comm hPair memory).symm

------------------------------------------------------------
-- Fragments of Different Pixels
------------------------------------------------------------

/-
  Fragments of different pixels, all inside the frame
  buffer and the depth buffer.  The two buffers share none
  of their pixels, and none of them is sampled.
-/
structure NonOverlapping
    (state : DrawState)
    (fragments : List Fragment) : Prop where
  positions :
    fragments.Pairwise fun fragment other =>
      (fragment.x, fragment.y) ≠ (other.x, other.y)
  inFrame :
    ∀ fragment ∈ fragments,
      InBuffer state.descriptor.frame.pixelFormat.storage
        state.params.frameWidth fragment.x fragment.y
  inDepth :
    ∀ fragment ∈ fragments,
      InBuffer state.descriptor.depth.pixelFormat.storage
        state.params.depthWidth fragment.x fragment.y
  planes :
    ∀ fragment ∈ fragments, ∀ other ∈ fragments, ∀ i,
      state.InFrame fragment.x fragment.y i →
        ¬state.InDepth other.x other.y i
  texels :
    ∀ fragment ∈ fragments, ∀ other ∈ fragments, ∀ i,
      state.InTexel other i →
        ¬state.InFrame fragment.x fragment.y i ∧
          ¬state.InDepth fragment.x fragment.y i

/- Both buffers of a draw have tables that pack. -/
structure Packs
    (state : DrawState) : Prop where
  frame :
    (state.bank.get
      state.descriptor.frame.pixelFormat).Packs
  depth :
    (state.bank.get
      state.descriptor.depth.pixelFormat).Packs

/- Pixels of the frame buffer are apart. -/
theorem Packs.frame_apart
    {state : DrawState}
    (hPacks : state.Packs)
    {x y x' y' : Int32}
    (hIn :
      InBuffer state.descriptor.frame.pixelFormat.storage
        state.params.frameWidth x y)
    (hIn' :
      InBuffer state.descriptor.frame.pixelFormat.storage
        state.params.frameWidth x' y')
    (hOther : (x, y) ≠ (x', y'))
    (i : Nat)
    (hFirst : state.InFrame x y i) :
    ¬state.InFrame x' y' i := by
  intro hSecond
  exact SwizzleBank.apart_pixels hPacks.frame
    state.params.frameAddress hIn hIn' hOther i
    (FrameFormat.covers_pixel hFirst)
    (FrameFormat.covers_pixel hSecond)

/- Pixels of the depth buffer are apart. -/
theorem Packs.depth_apart
    {state : DrawState}
    (hPacks : state.Packs)
    {x y x' y' : Int32}
    (hIn :
      InBuffer state.descriptor.depth.pixelFormat.storage
        state.params.depthWidth x y)
    (hIn' :
      InBuffer state.descriptor.depth.pixelFormat.storage
        state.params.depthWidth x' y')
    (hOther : (x, y) ≠ (x', y'))
    (i : Nat)
    (hFirst : state.InDepth x y i) :
    ¬state.InDepth x' y' i := by
  intro hSecond
  exact SwizzleBank.apart_pixels hPacks.depth
    state.params.depthAddress hIn hIn' hOther i
    (DepthFormat.covers_pixel hFirst)
    (DepthFormat.covers_pixel hSecond)

namespace NonOverlapping

variable {state : DrawState}
variable {fragments : List Fragment}
variable {fragment other : Fragment}

/- What one fragment writes, no other one touches. -/
theorem not_touched
    (hPacks : state.Packs)
    (hFragments : state.NonOverlapping fragments)
    (hFragment : fragment ∈ fragments)
    (hMem : other ∈ fragments)
    (hOther :
      (fragment.x, fragment.y) ≠ (other.x, other.y))
    (i : Nat)
    (hWrites : state.Writes fragment i) :
    ¬state.InTexel other i ∧
      ¬state.InFrame other.x other.y i ∧
      ¬state.InDepth other.x other.y i := by
  have hTexel :=
    hFragments.texels fragment hFragment other hMem i
  rcases hWrites with hFrame | ⟨_, hDepth⟩
  · refine ⟨?_, ?_, ?_⟩
    · intro hSampled
      exact (hTexel hSampled).1 hFrame
    · exact hPacks.frame_apart
        (hFragments.inFrame fragment hFragment)
        (hFragments.inFrame other hMem) hOther i hFrame
    · exact hFragments.planes fragment hFragment other
        hMem i hFrame
  · refine ⟨?_, ?_, ?_⟩
    · intro hSampled
      exact (hTexel hSampled).2 hDepth
    · intro hFrame
      exact hFragments.planes other hMem fragment
        hFragment i hFrame hDepth
    · exact hPacks.depth_apart
        (hFragments.inDepth fragment hFragment)
        (hFragments.inDepth other hMem) hOther i hDepth

/- What one fragment writes, no other one reads. -/
theorem not_reads
    (hPacks : state.Packs)
    (hFragments : state.NonOverlapping fragments)
    (hFragment : fragment ∈ fragments)
    (hMem : other ∈ fragments)
    (hOther :
      (fragment.x, fragment.y) ≠ (other.x, other.y))
    (i : Nat)
    (hWrites : state.Writes fragment i) :
    ¬state.Reads other i := by
  rcases hFragments.not_touched hPacks hFragment hMem
      hOther i hWrites with
    ⟨hTexel, hFrame, hDepth⟩
  intro hReads
  rcases hReads with hRead | ⟨_, hRead⟩ | ⟨_, hRead⟩
  · exact hTexel hRead
  · exact hFrame hRead
  · exact hDepth hRead

/- Fragments of different pixels are independent. -/
theorem independent
    (hPacks : state.Packs)
    (hFragments : state.NonOverlapping fragments)
    (hFragment : fragment ∈ fragments)
    (hMem : other ∈ fragments)
    (hOther :
      (fragment.x, fragment.y) ≠ (other.x, other.y)) :
    state.Independent fragment other where
  reads :=
    hFragments.not_reads hPacks hFragment hMem hOther
  readsBack :=
    hFragments.not_reads hPacks hMem hFragment hOther.symm
  writes := by
    intro i hWrites hWrites'
    rcases hFragments.not_touched hPacks hFragment hMem
        hOther i hWrites with
      ⟨_, hFrame, hDepth⟩
    rcases hWrites' with hWrite | ⟨_, hWrite⟩
    · exact hFrame hWrite
    · exact hDepth hWrite

end NonOverlapping

/-
  Non-overlapping fragments may be shaded in any order.
  The memory afterwards is one and the same, and each
  fragment returns the colour that it returns alone.  This
  covers row-major tables, which pack.
-/
theorem shadeAll_anyOrder :
    (∀ storage, (Swizzle.rowMajor storage).Packs) ∧
      ∀ (state : DrawState)
        (memory : Memory)
        (fragments order : List Fragment),
        state.Packs →
          state.NonOverlapping fragments →
            order.Perm fragments →
              state.shadeAll memory order =
                (order.map fun fragment =>
                    (state.shade memory fragment).1,
                  (state.shadeAll memory fragments).2) := by
  refine ⟨Swizzle.packs_rowMajor, ?_⟩
  intro state memory fragments order hPacks hFragments
    hOrder
  have hIndependent :
      fragments.Pairwise state.Independent := by
    apply hFragments.positions.imp_of_mem
    intro fragment other hFragment hMem hOther
    exact hFragments.independent hPacks hFragment hMem
      hOther
  apply Prod.ext
  · exact fst_shadeAll
      (hOrder.symm.pairwise hIndependent Independent.symm)
      memory
  · exact shadeAll_of_independent hIndependent hOrder
      memory

------------------------------------------------------------
-- Neighbours in One Word
------------------------------------------------------------

/-
  A draw into 16-bit pixels with blending, a depth test and
  a texture.  All three buffers are row-major.
-/
def halfWords : DrawState where
  descriptor :=
    { textured := true
      frame := .ct16
      depth := .z16
      texture := .ct16
      wrapU := .regionRepeat
      wrapV := .regionRepeat
      depthTest := .greaterEqual
      writesDepth := true
      blends := true }
  params :=
    { frameWidth := 128
      depthAddress := 16384
      depthWidth := 128
      textureAddress := 32768
      textureBufferWidth := 64 }
  bank := SwizzleBank.rowMajor
  palette := Palette.blank

/- A fragment in the middle of the depth range. -/
def fragmentAt
    (x y : Int32) : Fragment :=
  ⟨x, y, 0.5, Color.zero, 0.0, 0.0, 1.0⟩

/- Two pixels of one word, and one of the next page. -/
def neighbours : List Fragment :=
  [fragmentAt 0 0, fragmentAt 1 0, fragmentAt 70 3]

/- The draw samples one texel only. -/
theorem texelPlace_halfWords
    (fragment : Fragment) :
    halfWords.texelPlace fragment = (0, 0) := by
  simp [texelPlace, halfWords, WrapMode.apply]

/- Pixels, depths and texels of the draw lie apart. -/
theorem halfWords_starts
    {fragment : Fragment}
    (hFragment : fragment ∈ neighbours) :
    Width.w16.start
          (halfWords.frameAddress fragment.x fragment.y) +
        16 ≤ 131072 ∧
      131072 ≤
        Width.w16.start
          (halfWords.depthAddress fragment.x fragment.y) ∧
      Width.w16.start
          (halfWords.depthAddress fragment.x fragment.y) +
        16 ≤ 262144 ∧
      Width.w16.start (halfWords.texelAddress 0 0) =
        262144 := by
  have hFrame :
      (Width.w16.start
          (halfWords.frameAddress fragment.x
            fragment.y) : Int) = _ :=
    start_rowMajor .ct16 0 128 fragment.x fragment.y
  have hDepth :
      (Width.w16.start
          (halfWords.depthAddress fragment.x
            fragment.y) : Int) = _ :=
    start_rowMajor .ct16 16384 128 fragment.x fragment.y
  have hTexel :
      (Width.w16.start
          (halfWords.texelAddress 0 0) : Int) = _ :=
    start_rowMajor .ct16 32768 64 0 0
  have hBounds :
      ∀ fragment ∈ neighbours,
        0 ≤ pageNumber .ct16 128 fragment.x fragment.y ∧
          pageNumber .ct16 128 fragment.x fragment.y < 2 ∧
          0 ≤ fragment.y.toInt % 64 * 64 +
            fragment.x.toInt % 64 ∧
          fragment.y.toInt % 64 * 64 +
            fragment.x.toInt % 64 < 4096 := by
    decide +kernel
  have hBound := hBounds fragment hFragment
  have hOrigin : pageNumber .ct16 64 0 0 = 0 := by
    decide
  rw [hOrigin] at hTexel
  simp only [Storage.bitsPerPixel, Storage.unitsPerByte,
    Storage.pixelUnits, Storage.pagePixels,
    Storage.pageWidth, Storage.pageHeight,
    UInt32.reduceToNat, Int32.reduceToInt]
    at hFrame hDepth hTexel
  omega

/- The buffers of the draw are row-major. -/
theorem packs_halfWords :
    halfWords.Packs := by
  constructor
  · exact Swizzle.packs_rowMajor .ct16
  · exact Swizzle.packs_rowMajor .ct16

/- No pixel of the draw is one of its depths. -/
theorem halfWords_planes
    {fragment other : Fragment}
    (hFragment : fragment ∈ neighbours)
    (hOther : other ∈ neighbours)
    (i : Nat)
    (hFrame : halfWords.InFrame fragment.x fragment.y i) :
    ¬halfWords.InDepth other.x other.y i := by
  have hFirst := halfWords_starts hFragment
  have hSecond := halfWords_starts hOther
  intro hDepth
  change
    Width.w16.Covers
      (halfWords.frameAddress fragment.x fragment.y) i
    at hFrame
  change
    Width.w16.Covers
      (halfWords.depthAddress other.x other.y) i
    at hDepth
  simp only [Width.Covers, Width.bits] at hFrame hDepth
  omega

/- No pixel or depth of the draw is sampled. -/
theorem halfWords_texels
    {fragment : Fragment}
    (hFragment : fragment ∈ neighbours)
    (other : Fragment)
    (i : Nat)
    (hTexel : halfWords.InTexel other i) :
    ¬halfWords.InFrame fragment.x fragment.y i ∧
      ¬halfWords.InDepth fragment.x fragment.y i := by
  have hStarts := halfWords_starts hFragment
  have hRead :
      ∀ address,
        halfWords.descriptor.texture.readAddress address =
          address := by
    intro address
    rfl
  rw [InTexel, texelPlace_halfWords, hRead] at hTexel
  have hSampled : 262144 ≤ i :=
    Width.le_of_covers hStarts.2.2.2 hTexel.2
  constructor
  · intro hFrame
    change
      Width.w16.Covers
        (halfWords.frameAddress fragment.x fragment.y) i
      at hFrame
    simp only [Width.Covers, Width.bits] at hFrame
    omega
  · intro hDepth
    change
      Width.w16.Covers
        (halfWords.depthAddress fragment.x fragment.y) i
      at hDepth
    simp only [Width.Covers, Width.bits] at hDepth
    omega

/- The three fragments do not overlap. -/
theorem nonOverlapping_neighbours :
    halfWords.NonOverlapping neighbours where
  positions := by
    decide
  inFrame := by
    decide
  inDepth := by
    decide
  planes := by
    intro fragment hFragment other hOther i hFrame
    exact halfWords_planes hFragment hOther i hFrame
  texels := by
    intro fragment hFragment other _ i hTexel
    exact halfWords_texels hFragment other i hTexel

/-
  Neighbours that share a word, with a third pixel, may be
  shaded backwards.
-/
theorem shadeAll_neighbours_backwards :
    halfWords.Packs ∧
      halfWords.NonOverlapping neighbours ∧
      neighbours.reverse.Perm neighbours ∧
      halfWords.shadeAll Memory.empty neighbours.reverse =
        (neighbours.reverse.map fun fragment =>
            (halfWords.shade Memory.empty fragment).1,
          (halfWords.shadeAll Memory.empty
            neighbours).2) := by
  have hPacks := packs_halfWords
  have hOrder := neighbours.reverse_perm
  refine ⟨hPacks, nonOverlapping_neighbours, hOrder, ?_⟩
  exact shadeAll_anyOrder.2 halfWords Memory.empty
    neighbours neighbours.reverse hPacks
    nonOverlapping_neighbours hOrder

end DrawState

end PagedRaster
