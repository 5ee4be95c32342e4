import PagedRaster.Proofs.Gpu.Order
import PagedRaster.Proofs.Gpu.Slots
import PagedRaster.Proofs.Triangle.Emission

/-
  This file proves that clipping a scissor intersects it
  with the draw area.  A clipped rectangle is not cut again
  and ends inside of the area, so no word wraps where it is
  used: neither in the loops over covered pixels nor in the
  passes that a device host records.

  Key definitions include:
    * `Scissor.EndsInside`
    * `Coverage.extentChecked`
    * `Coverage.orientedHitsChecked`
    * `Triangle.hitsChecked`

  Key theorems include:
    * `Scissor.clipped_clipped`
    * `Scissor.isEmpty_iff_contains`
    * `Triangle.hitsChecked_eq`
    * `GpuHost.mem_pending_recordDraw`
    * `Scissor.clipped_intersects`
-/

namespace PagedRaster

------------------------------------------------------------
-- Clipped Rectangles
------------------------------------------------------------

namespace Scissor

/- Both ends of a rectangle are words of the draw area. -/
structure EndsInside
    (s : Scissor) : Prop where
  right :
    ∃ right,
      checkedAdd s.x s.width = some right ∧ right ≤ 1024
  bottom :
    ∃ bottom,
      checkedAdd s.y s.height = some bottom ∧ bottom ≤ 1024

/- A side of the draw area ends at a word of the area. -/
theorem exists_checkedAdd
    {start length : UInt32}
    (hFits : Coverage.Fits start length) :
    ∃ stop,
      checkedAdd start length = some stop ∧
        stop ≤ 1024 := by
  have hWord :
      start.toNat + length.toNat < UInt32.size :=
    Nat.lt_of_le_of_lt hFits (by decide)
  rcases exists_checkedSum hWord with ⟨stop, hStop, hSum⟩
  refine ⟨stop, hStop, ?_⟩
  rw [UInt32.le_iff_toNat_le, hSum]
  exact hFits

/- A clipped rectangle ends inside. -/
theorem clipped_endsInside
    (s : Scissor) :
    s.clipped.EndsInside where
  right := exists_checkedAdd s.clipped_fits.1
  bottom := exists_checkedAdd s.clipped_fits.2

/- What ends inside is not cut. -/
theorem clipped_clipped
    (s : Scissor) :
    s.clipped.clipped = s.clipped := by
  have hArea : drawAreaSize.toNat = 1024 := rfl
  rcases s.clipped_fits with ⟨hColumns, hRows⟩
  generalize s.clipped = clip at hColumns hRows
  have hX : min clip.x drawAreaSize = clip.x := by
    rw [← UInt32.toNat_inj, toNat_min, hArea]
    omega
  have hY : min clip.y drawAreaSize = clip.y := by
    rw [← UInt32.toNat_inj, toNat_min, hArea]
    omega
  have hWidth :
      min clip.width
          (drawAreaSize - min clip.x drawAreaSize) =
        clip.width := by
    rw [← UInt32.toNat_inj, toNat_min, toNat_sub_min]
    omega
  have hHeight :
      min clip.height
          (drawAreaSize - min clip.y drawAreaSize) =
        clip.height := by
    rw [← UInt32.toNat_inj, toNat_min, toNat_sub_min]
    omega
  unfold clipped
  dsimp only
  rw [hWidth, hHeight, hX, hY]

/- A rectangle of no width or no height holds no pixel. -/
theorem isEmpty_iff_contains
    (s : Scissor) :
    s.isEmpty = true ↔ ∀ x y, s.contains x y = false := by
  have hZero (word : UInt32) :
      (word == 0) = true ↔ word.toNat = 0 := by
    rw [beq_iff_eq, ← UInt32.toNat_inj, UInt32.toNat_zero]
  unfold isEmpty
  rw [Bool.or_eq_true, hZero, hZero]
  constructor
  · intro hNone x y
    rw [Bool.eq_false_iff, ne_eq, contains_iff]
    omega
  · intro hNone
    have hCorner := hNone s.x s.y
    rw [Bool.eq_false_iff, ne_eq, contains_iff] at hCorner
    omega

end Scissor

------------------------------------------------------------
-- Covered Pixels
------------------------------------------------------------

namespace Coverage

/-
  The integers of a range inside of a side, whose last word
  is found by steps that may fail.
-/
def extentChecked
    (low high : Float32)
    (start length : UInt32) : Option (List UInt32) := do
  let stop ← Scissor.lastChecked start length
  return span (max (Binary32.floorInt low) start.toNat)
    (min (Binary32.ceilInt high) stop.toNat)

/- On a side that is not empty, none of them fails. -/
theorem extentChecked_eq
    (low high : Float32)
    {start length : UInt32}
    (hFits : Fits start length)
    (hSome : length ≠ 0) :
    extentChecked low high start length =
      some (extent low high start length) := by
  rcases Scissor.exists_lastChecked hFits hSome with
    ⟨stop, hStop, hLast⟩
  have hEnd :
      (stop.toNat : Int) =
        start.toNat + length.toNat - 1 := by
    omega
  rw [extentChecked, hStop, extent, ← hEnd]
  rfl

/-
  The covered pixels of a rectangle by steps that may fail.
  An empty rectangle is left before its ends are taken.
-/
def orientedHitsChecked
    (a b c : Point)
    (area : Float32)
    (clip : Scissor) : Option (List Hit) :=
  if clip.isEmpty then
    some []
  else do
    let columns ←
      extentChecked (least3 a.x b.x c.x)
        (greatest3 a.x b.x c.x) clip.x clip.width
    let rows ←
      extentChecked (least3 a.y b.y c.y)
        (greatest3 a.y b.y c.y) clip.y clip.height
    return rows.flatMap fun y =>
      columns.filterMap fun x =>
        hit? a b c area (isTopLeft b c) (isTopLeft c a)
          (isTopLeft a b) x y

/- In the draw area, none of these steps fails. -/
theorem orientedHitsChecked_eq
    (a b c : Point)
    (area : Float32)
    {clip : Scissor}
    (hColumns : Fits clip.x clip.width)
    (hRows : Fits clip.y clip.height) :
    orientedHitsChecked a b c area clip =
      some (orientedHits a b c area clip) := by
  unfold orientedHitsChecked orientedHits
  cases hEmpty : clip.isEmpty with
  | true => rfl
  | false =>
      rw [Scissor.isEmpty, Bool.or_eq_false_iff,
        beq_eq_false_iff_ne, beq_eq_false_iff_ne] at hEmpty
      rw [extentChecked_eq _ _ hColumns hEmpty.1,
        extentChecked_eq _ _ hRows hEmpty.2]
      rfl

end Coverage

namespace Triangle

/-
  The covered pixels by steps that may fail.  The scissor is
  clipped once it is known that there is an area.
-/
def hitsChecked
    (t : Triangle)
    (scissor : Scissor) : Option (List Hit) :=
  let a := t.a.point
  let b := t.b.point
  let c := t.c.point
  let area := Coverage.edge a b c
  if area == 0.0 || !area.isFinite then
    some []
  else do
    let clip ← scissor.clippedChecked
    if area < 0.0 then
      let hits ←
        Coverage.orientedHitsChecked a c b (-area) clip
      return hits.map Hit.swap
    else
      Coverage.orientedHitsChecked a b c area clip

/- None of them fails, whatever triangle and scissor are. -/
theorem hitsChecked_eq
    (t : Triangle)
    (scissor : Scissor) :
    t.hitsChecked scissor = some (t.hits scissor) := by
  rcases scissor.clipped_fits with ⟨hColumns, hRows⟩
  unfold hitsChecked hits
  dsimp only
  split
  · rfl
  · rw [scissor.clippedChecked_eq, Option.bind_eq_bind,
      Option.bind_some]
    split
    · rw [Coverage.orientedHitsChecked_eq _ _ _ _ hColumns
        hRows]
      rfl
    · exact Coverage.orientedHitsChecked_eq _ _ _ _ hColumns
        hRows

end Triangle

------------------------------------------------------------
-- Recorded Passes
------------------------------------------------------------

namespace GpuHost

/- Taking a place of the ring leaves what waits. -/
theorem pending_pushParams
    {host next : GpuHost}
    {params : Params}
    {offset : UInt32}
    (hPushed :
      host.pushParams params = .ok (offset, next)) :
    next.pending = host.pending := by
  unfold pushParams at hPushed
  dsimp only at hPushed
  split at hPushed
  · cases hPushed
  · split at hPushed
    · cases hPushed
    · cases hPushed
      rfl

/- A draw that may fault adds its own passes at most. -/
theorem mem_pending_pushDraw
    {host : GpuHost}
    {pass : Pass Descriptor (List Binding)}
    {scissor : Scissor}
    {recorded : RenderPass}
    (hMem :
      recorded ∈ (host.pushDraw pass scissor).state.pending) :
    recorded ∈ host.pending ∨
      recorded.scissor = scissor := by
  unfold pushDraw at hMem
  dsimp only at hMem
  split at hMem
  · split at hMem
    · exact Or.inl hMem
    · rename_i offset next hPushed
      have hPending := pending_pushParams hPushed
      have hSame : next.pending = host.pending := hPending
      split at hMem
      · rw [Outcome.stopped, hSame] at hMem
        exact Or.inl hMem
      · rw [pending_recordRuns, List.mem_append,
          List.mem_map, hSame] at hMem
        rcases hMem with hOld | ⟨run, -, rfl⟩
        · exact Or.inl hOld
        · exact Or.inr rfl
  · exact Or.inl hMem

/- Making room leaves no other passes waiting. -/
theorem mem_pending_makeRoom
    {host : GpuHost}
    {recorded : RenderPass}
    (hMem : recorded ∈ host.makeRoom.state.pending) :
    recorded ∈ host.pending := by
  unfold makeRoom at hMem
  split at hMem
  · cases hMem
  · exact hMem

/-
  A draw records passes of its clipped scissor only, and
  none if that is empty.
-/
theorem mem_pending_recordDraw
    {host : GpuHost}
    {pass : Pass Descriptor (List Binding)}
    {recorded : RenderPass}
    (hMem :
      recorded ∈ (host.recordDraw pass).state.pending) :
    recorded ∈ host.pending ∨
      (pass.scissor.clipped.isEmpty = false ∧
        recorded.scissor = pass.scissor.clipped) := by
  unfold recordDraw at hMem
  dsimp only at hMem
  split at hMem
  · exact Or.inl hMem
  · rename_i hShown
    rw [Outcome.state_andThen (makeRoom_fault host)] at hMem
    rcases mem_pending_pushDraw hMem with hOld | hNew
    · exact Or.inl (mem_pending_makeRoom hOld)
    · exact Or.inr
        ⟨Bool.eq_false_of_not_eq_true hShown, hNew⟩

end GpuHost

------------------------------------------------------------
-- Intersection
------------------------------------------------------------

namespace Scissor

/-
  Clipping is intersection.  For any scissor, the clipped
  rectangle holds the pixels of the scissor in the draw area
  and no others, and it is empty when there are none.  It
  ends in the area, and clipping it again changes nothing.
  No word wraps, even where a side of the scissor ends past
  the last word: clipping, the test of a pixel and the loops
  over covered pixels do not fail when each step is checked.
  A device host records no pass for an empty rectangle, and
  each pass it records holds the clipped one, which it ends
  inside of the area.
-/
theorem clipped_intersects
    (s : Scissor) :
    let clip := s.clipped
    (∀ x y,
        clip.contains x y = true ↔
          s.contains x y = true ∧ x < 1024 ∧ y < 1024) ∧
      (clip.isEmpty = true ↔
        ∀ x y, clip.contains x y = false) ∧
      clip.clipped = clip ∧
      clip.x.toNat + clip.width.toNat ≤ 1024 ∧
      clip.y.toNat + clip.height.toNat ≤ 1024 ∧
      s.clippedChecked = some clip ∧
      (∀ x y,
        s.containsChecked x y = some (s.contains x y)) ∧
      (∀ t : Triangle,
        t.hitsChecked s = some (t.hits s)) ∧
      ∀ (host : GpuHost)
          (pass : Pass Descriptor (List Binding)),
        let drawn :=
          host.recordDraw { pass with scissor := s }
        (clip.isEmpty = true → drawn = .done host) ∧
          ∀ recorded ∈ drawn.state.pending,
            recorded ∈ host.pending ∨
              (clip.isEmpty = false ∧
                recorded.scissor = clip ∧
                recorded.scissor.EndsInside) := by
  intro clip
  refine ⟨s.contains_clipped_iff, clip.isEmpty_iff_contains,
    s.clipped_clipped, s.clipped_fits.1, s.clipped_fits.2,
    s.clippedChecked_eq, s.containsChecked_eq,
    fun t => t.hitsChecked_eq s, ?_⟩
  intro host pass drawn
  constructor
  · intro hEmpty
    exact if_pos hEmpty
  · intro recorded hMem
    rcases GpuHost.mem_pending_recordDraw hMem with
      hOld | ⟨hShown, hScissor⟩
    · exact Or.inl hOld
    · refine Or.inr ⟨hShown, hScissor, ?_⟩
      rw [hScissor]
      exact s.clipped_endsInside

/- A scissor behind the draw area whose width would wrap. -/
def pastEdge : Scissor where
  x := 1024
  y := 4
  width := 0xFFFFFFFF
  height := 8

/- A scissor that begins inside and whose width would wrap. -/
def pastCorner : Scissor where
  x := 1000
  y := 10
  width := 0xFFFFFFFF
  height := 5000

/-
  Of these scissors, the first one records no pass and the
  second one a pass that ends at the edge.
-/
theorem clipped_intersects_pastEdge :
    ∃ made,
      GpuHost.create ⟨1, 3, 2⟩ 256 = .ok made ∧
        let drawn := fun s =>
          made.value.recordDraw
            { WatchedHost.blankPass with scissor := s }
        pastEdge.clipped.isEmpty = true ∧
          drawn pastEdge = .done made.value ∧
          pastCorner.clipped = ⟨1000, 10, 24, 1014⟩ ∧
          ∃ recorded ∈ (drawn pastCorner).state.pending,
            recorded.scissor = pastCorner.clipped ∧
              recorded.scissor.EndsInside := by
  refine ⟨_, rfl, ?_⟩
  intro drawn
  have hEmpty : pastEdge.clipped.isEmpty = true := by decide
  rcases pastEdge.clipped_intersects with
    ⟨-, -, -, -, -, -, -, -, hHidden⟩
  rcases pastCorner.clipped_intersects with
    ⟨-, -, -, -, -, -, -, -, hShown⟩
  have hMem :
      (⟨0, 0, 0, 3, pastCorner.clipped, {}, []⟩ :
        RenderPass) ∈ (drawn pastCorner).state.pending := by
    decide +kernel
  refine ⟨hEmpty, (hHidden _ _).1 hEmpty, by decide, _, hMem,
    ?_⟩
  rcases (hShown _ _).2 _ hMem with hOld | hNew
  · cases hOld
  · exact hNew.2

end Scissor

end PagedRaster
