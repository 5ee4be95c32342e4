import PagedRaster.Proofs.Binary32.Division
import PagedRaster.Proofs.Triangle.Tiling

/-
  This file proves that the weights of a covered pixel add
  up to nearly one, if the triangle has its corners at
  halves of integers of the draw area: its edges are exact
  there, and only the divisions by its area round.

  Key definitions include:
    * `Hit.Balanced`
    * `Triangle.OnHalves`

  Key theorems include:
    * `Coverage.balanced_of_hit?`
    * `Triangle.balanced_of_mem_hits`
-/

namespace PagedRaster

open Binary32 (HasValue RoundsTo)

/-
  The weights of a pixel are not negative, and their sum is
  one but for a part in 256.
-/
def Hit.Balanced
    (hit : Hit) : Prop :=
  ∃ p q r : ℚ,
    (HasValue hit.weightA p ∧ 0 ≤ p) ∧
      (HasValue hit.weightB q ∧ 0 ≤ q) ∧
      (HasValue hit.weightC r ∧ 0 ≤ r) ∧
      |p + q + r - 1| ≤ 1 / 256

/- It does not matter which weight is whose. -/
theorem Hit.Balanced.swap
    {hit : Hit}
    (hBalanced : hit.Balanced) :
    hit.swap.Balanced := by
  rcases hBalanced with ⟨p, q, r, hA, hB, hC, hSum⟩
  refine ⟨p, r, q, hA, hC, hB, ?_⟩
  rwa [add_right_comm]

namespace Coverage

open ExactPoint (turn)

/- What is on the inner side of an edge is not negative. -/
theorem nonneg_of_inside
    {x : Float32}
    {p : ℚ}
    {topLeft : Bool}
    (hX : HasValue x p)
    (hInside : inside x topLeft = true) :
    0 ≤ p := by
  have hZero := Binary32.hasValue_zero
  unfold inside at hInside
  rw [Bool.or_eq_true, Bool.and_eq_true, decide_eq_true_eq,
    hZero.lt_iff hX, hX.beq_iff hZero] at hInside
  rcases hInside with hPos | ⟨hNone, -⟩
  · exact hPos.le
  · exact hNone.ge

/- A weight is nearly a part of the area. -/
theorem exists_weight
    {part area : Float32}
    {p whole : ℚ}
    (hPart : HasValue part p)
    (hArea : HasValue area whole)
    (hNonneg : 0 ≤ p)
    (hLe : p ≤ whole)
    (hPos : 0 < whole) :
    ∃ weight,
      (HasValue (part / area) weight ∧ 0 ≤ weight) ∧
        |weight - p / whole| ≤ 2 ^ (-23 : Int) := by
  have hLow : 0 ≤ p / whole := div_nonneg hNonneg hPos.le
  have hHigh : p / whole ≤ 1 := (div_le_one hPos).mpr hLe
  rcases hPart.div hArea hPos.ne'
      (by rw [abs_of_nonneg hLow]; linarith) with
    ⟨weight, hRounds, hWeight⟩
  exact ⟨weight, ⟨hWeight, hRounds.nonneg hLow⟩,
    hRounds.near (by decide) hLow (by norm_num; linarith)⟩

/- The weights of a pixel of the draw area. -/
theorem balanced_of_hit?
    {a b c : Point}
    {a' b' c' : ExactPoint}
    (hA : a.AtHalves a')
    (hB : b.AtHalves b')
    (hC : c.AtHalves c')
    (hTurn : 0 < turn a' b' c')
    {area : Float32}
    (hArea : HasValue area (turn a' b' c'))
    {x y : UInt32}
    (hX : x.toNat < 1024)
    (hY : y.toNat < 1024)
    {topLeftA topLeftB topLeftC : Bool}
    {hit : Hit}
    (hHit :
      hit? a b c area topLeftA topLeftB topLeftC x y =
        some hit) :
    hit.Balanced := by
  have hCentre := centre_at hX hY
  have hEdgeA := hasValue_edge hB hC hCentre
  have hEdgeB := hasValue_edge hC hA hCentre
  have hEdgeC := hasValue_edge hA hB hCentre
  have hSum :=
    ExactPoint.turn_add_turn a' b' c' (ExactPoint.centre x y)
  unfold hit? at hHit
  dsimp only at hHit
  split at hHit
  · rename_i hInside
    rw [Bool.and_eq_true, Bool.and_eq_true] at hInside
    have hPosA := nonneg_of_inside hEdgeA hInside.1.1
    have hPosB := nonneg_of_inside hEdgeB hInside.1.2
    have hPosC := nonneg_of_inside hEdgeC hInside.2
    rcases exists_weight hEdgeA hArea hPosA (by linarith)
        hTurn with ⟨p, hP, hNearP⟩
    rcases exists_weight hEdgeB hArea hPosB (by linarith)
        hTurn with ⟨q, hQ, hNearQ⟩
    rcases exists_weight hEdgeC hArea hPosC (by linarith)
        hTurn with ⟨r, hR, hNearR⟩
    have hHit := Option.some.inj hHit
    subst hHit
    refine ⟨p, q, r, hP, hQ, hR, ?_⟩
    -- The exact parts of the area add up to one.
    have hParts :
        turn b' c' (ExactPoint.centre x y) / turn a' b' c' +
            turn c' a' (ExactPoint.centre x y) /
              turn a' b' c' +
            turn a' b' (ExactPoint.centre x y) /
              turn a' b' c' =
          1 := by
      rw [← add_div, ← add_div, hSum, div_self hTurn.ne']
    rw [abs_le] at hNearP hNearQ hNearR ⊢
    norm_num at hNearP hNearQ hNearR
    constructor <;> linarith
  · cases hHit

end Coverage

namespace Triangle

/- The corners lie at halves of integers of the draw area. -/
def OnHalves
    (t : Triangle) : Prop :=
  ∀ v ∈ t.vertices, ∃ e, v.point.AtHalves e

/- All covered pixels of such a triangle are balanced. -/
theorem balanced_of_mem_hits
    {t : Triangle}
    (hHalves : t.OnHalves)
    {scissor : Scissor}
    {hit : Hit}
    (hMem : hit ∈ t.hits scissor) :
    hit.Balanced := by
  rcases forall_mem_vertices.mp hHalves with
    ⟨⟨a, hA⟩, ⟨b, hB⟩, ⟨c, hC⟩⟩
  rcases scissor.clipped_fits with ⟨hColumns, hRows⟩
  have hInside := contains_of_mem_hits hMem
  rw [Scissor.contains_iff] at hInside
  have hArea := Coverage.hasValue_edge hA hB hC
  rcases hits_turned hA hB hC scissor with
    ⟨hPos, hHits⟩ | ⟨hNeg, hHits⟩ | ⟨-, hHits⟩
  · rw [hHits, Coverage.mem_orientedHits hColumns hRows]
      at hMem
    exact Coverage.balanced_of_hit? hA hB hC hPos hArea
      (by omega) (by omega) hMem.2.2.2
  · rw [hHits, List.mem_map] at hMem
    rcases hMem with ⟨turned, hMem, rfl⟩
    rw [Coverage.mem_orientedHits hColumns hRows] at hMem
    have hTurn : 0 < ExactPoint.turn a c b := by
      rw [ExactPoint.turn_exchange]
      exact neg_pos.mpr hNeg
    have hTurned :
        HasValue
          (-Coverage.edge t.a.point t.b.point t.c.point)
          (ExactPoint.turn a c b) := by
      rw [ExactPoint.turn_exchange]
      exact hArea.neg
    have hSame : turned.swap.x = turned.x := rfl
    have hSame' : turned.swap.y = turned.y := rfl
    rw [hSame, hSame'] at hInside
    exact (Coverage.balanced_of_hit? hA hC hB hTurn hTurned
      (by omega) (by omega) hMem.2.2.2).swap
  · rw [hHits] at hMem
    cases hMem

end Triangle

end PagedRaster
