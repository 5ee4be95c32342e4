import PagedRaster.Proofs.Format.PackedColor
import PagedRaster.Proofs.Fragment.Footprint

/-
  This file compares two runs of a fragment, one with and
  one without blending.  They decide alike whether anything
  is written, and what they leave in memory differs in the
  colour bits of one pixel at most.

  Key definitions include:
    * `DrawState.unblended`, `DrawState.blending`
    * `DrawState.InColor`

  Key theorems include:
    * `DrawState.wordBit_shadedPixel_blending`
    * `DrawState.shade_blending`
-/

namespace PagedRaster

namespace DrawState

------------------------------------------------------------
-- Two Runs
------------------------------------------------------------

/- The draw without blending. -/
def unblended
    (state : DrawState) : DrawState :=
  { state with
    descriptor := { state.descriptor with blends := false } }

/- The draw with blending by an equation. -/
def blending
    (state : DrawState)
    (a b : BlendInput)
    (c : BlendFactor)
    (d : BlendInput) : DrawState :=
  { state with
    descriptor :=
      { state.descriptor with
        blends := true
        blendA := a
        blendB := b
        blendC := c
        blendD := d } }

/- A bit is one of red, green and blue of a pixel. -/
def InColor
    (state : DrawState)
    (x y : Int32)
    (i : Nat) : Prop :=
  let start :=
    state.descriptor.frame.width.start
      (state.frameAddress x y)
  start ≤ i ∧ i < start + state.descriptor.frame.colorBits

section Runs

variable {state : DrawState}
variable {memory : Memory}
variable {fragment : Fragment}
variable {a b : BlendInput}
variable {c : BlendFactor}
variable {d : BlendInput}

/- Both runs see the same pixel, if the mask needs it. -/
theorem seenPixel_blending
    (hMasks : state.descriptor.masksColor = true) :
    (state.blending a b c d).seenPixel memory fragment =
      state.unblended.seenPixel memory fragment := by
  have hBlended :
      (state.blending a b c d).descriptor.readsColor =
        true :=
    rfl
  have hPlain :
      state.unblended.descriptor.readsColor = true :=
    hMasks
  rw [seenPixel, storedPixel, if_pos hBlended, seenPixel,
    storedPixel, if_pos hPlain]
  rfl

/-
  Both runs encode one alpha: blending clamps it before the
  encoding does, and a clamped value is not moved again.
-/
theorem clampUnit_blendedColor :
    Binary32.clampUnit
        ((state.blending a b c d).blendedColor memory
          fragment).a =
      Binary32.clampUnit
        (state.unblended.blendedColor memory fragment).a :=
  Binary32.clampUnit_clampUnit
    (state.sourceColor memory fragment).a

/- Both runs write the same bits above the colour bits. -/
theorem wordBit_shadedPixel_blending
    (hMasks : state.descriptor.masksColor = true)
    {k : Nat}
    (hk : state.descriptor.frame.colorBits ≤ k) :
    wordBit
        ((state.blending a b c d).shadedPixel memory
          fragment)
        k =
      wordBit (state.unblended.shadedPixel memory fragment)
        k := by
  have hEncoded :=
    state.descriptor.frame.wordBit_encode_congr
      (@clampUnit_blendedColor state memory fragment a b c d)
      hk
  unfold shadedPixel mergedPixel
  rw [seenPixel_blending hMasks, wordBit_or, wordBit_or,
    wordBit_and, wordBit_and, wordBit_and, wordBit_and]
  exact congrArg (fun bit => bit && _ || _) hEncoded

/- Both runs write the same values outside the colour bits. -/
theorem written_blending
    (hMasks : state.descriptor.masksColor = true)
    {i : Nat}
    (hOutside :
      ¬state.InColor fragment.x fragment.y i ∨
        (state.descriptor.writesDepth = true ∧
          state.InDepth fragment.x fragment.y i)) :
    (state.blending a b c d).written memory fragment i =
      state.unblended.written memory fragment i := by
  let start :=
    state.descriptor.frame.width.start
      (state.frameAddress fragment.x fragment.y)
  -- All but the pixel is the same in both runs.
  have hWritten (run : DrawState)
      (hRun :
        run = state.blending a b c d ∨
          run = state.unblended) :
      run.written memory fragment i =
        if state.unblended.commits memory fragment then
          if state.descriptor.writesDepth = true ∧
              state.InDepth fragment.x fragment.y i then
            some (wordBit (state.shadedDepth fragment)
              (i - state.descriptor.depth.width.start
                (state.depthAddress fragment.x
                  fragment.y)))
          else if state.InFrame fragment.x fragment.y i then
            some (wordBit (run.shadedPixel memory fragment)
              (i - start))
          else
            none
        else
          none := by
    rcases hRun with rfl | rfl
    · rfl
    · rfl
  rw [hWritten _ (Or.inl rfl), hWritten _ (Or.inr rfl)]
  split
  · split
    · rfl
    · rename_i hDepth
      split
      · rename_i hFrame
        have hHigh :
            state.descriptor.frame.colorBits ≤ i - start := by
          have hNoColor := hOutside.resolve_right hDepth
          have hFirst : start ≤ i := hFrame.1
          by_contra hLow
          exact hNoColor ⟨hFirst, by omega⟩
        rw [wordBit_shadedPixel_blending hMasks hHigh]
      · rfl
  · rfl

end Runs

/-
  Blending touches colour bits only.  Where the mask has the
  stored pixel read in any case, a fragment passes the same
  tests with and without blending, by whatever equation.
  The memories that it leaves agree on all bits but red,
  green and blue of its pixel, and on these too where a
  depth was written over them.
-/
theorem shade_blending
    (state : DrawState)
    (memory : Memory)
    (fragment : Fragment)
    (a b : BlendInput)
    (c : BlendFactor)
    (d : BlendInput)
    (hMasks : state.descriptor.masksColor = true) :
    let plain := state.unblended
    let blended := state.blending a b c d
    blended.alphaPasses
          (blended.sourceColor memory fragment) =
        plain.alphaPasses
          (plain.sourceColor memory fragment) ∧
      blended.depthPasses memory
            (blended.depthAddress fragment.x fragment.y)
            (blended.shadedDepth fragment) =
          plain.depthPasses memory
            (plain.depthAddress fragment.x fragment.y)
            (plain.shadedDepth fragment) ∧
      AgreeOn
        (fun i =>
          ¬state.InColor fragment.x fragment.y i ∨
            (state.descriptor.writesDepth = true ∧
              state.InDepth fragment.x fragment.y i))
        (blended.shade memory fragment).2
        (plain.shade memory fragment).2 := by
  refine ⟨rfl, rfl, ?_⟩
  intro i hOutside
  rw [bit_shade, bit_shade, written_blending hMasks hOutside]

/- A draw on 16-bit pixels under a mask. -/
def maskedHalves : DrawState where
  descriptor :=
    { frame := .ct16
      masksColor := true }
  params :=
    { frameWidth := 64
      writeMask := 0xFFE0 }
  bank := SwizzleBank.rowMajor
  palette := Palette.blank

/- A fragment whose colour leaves the unit interval. -/
def glaring : Fragment :=
  ⟨0, 0, 0.5, ⟨2.0, -1.0, 0.25, 1.5⟩, 0.0, 0.0, 1.0⟩

/- Adding to the stored colour leaves the alpha bit alone. -/
theorem shade_blending_maskedHalves :
    let blended :=
      maskedHalves.blending .source .zero .sourceAlpha
        .destination
    let alphaBit :=
      maskedHalves.descriptor.frame.width.start
          (maskedHalves.frameAddress glaring.x glaring.y) +
        maskedHalves.descriptor.frame.colorBits
    maskedHalves.descriptor.masksColor = true ∧
      (blended.shade Memory.empty glaring).2.bit alphaBit =
        (maskedHalves.unblended.shade Memory.empty
          glaring).2.bit alphaBit := by
  intro blended alphaBit
  rcases shade_blending maskedHalves Memory.empty glaring
      .source .zero .sourceAlpha .destination rfl with
    ⟨-, -, hAgree⟩
  have hOutside :
      ¬maskedHalves.InColor glaring.x glaring.y alphaBit :=
    fun hColor => Nat.lt_irrefl _ hColor.2
  have hSame := hAgree alphaBit (Or.inl hOutside)
  exact ⟨rfl, hSame⟩

end DrawState

end PagedRaster
