import PagedRaster.Proofs.Binary32.Symmetry
import PagedRaster.Triangle.Coverage

/-
  This file proves that winding does not matter: a triangle
  covers the same pixels in the same order whichever way its
  vertices turn, and every vertex has the same weight at
  them.

  Key definitions include:
    * `Triangle.turnedOver`, `Triangle.area`
    * `Triangle.IsFlat`

  Key theorems include:
    * `Triangle.area_turnedOver`
    * `Triangle.hits_of_area`
    * `Triangle.hits_turnedOver`
-/

namespace PagedRaster

open Binary32 (HasValue)

------------------------------------------------------------
-- Signed Areas
------------------------------------------------------------

namespace Triangle

/- The triangle with its last two vertices exchanged. -/
def turnedOver
    (t : Triangle) : Triangle where
  a := t.a
  b := t.c
  c := t.b

/- The signed area that decides how a triangle is drawn. -/
def area
    (t : Triangle) : Float32 :=
  Coverage.edge t.a.point t.b.point t.c.point

/-
  The signed area of a triangle that is turned over is the
  negative one, or both are zero.
-/
theorem area_turnedOver
    (t : Triangle) :
    t.turnedOver.area = -t.area ∨
      ((t.area == 0.0) = true ∧
        (t.turnedOver.area == 0.0) = true) := by
  unfold area turnedOver Coverage.edge
  dsimp only
  rw [Binary32.mul_comm (t.b.point.x - t.a.point.x),
    Binary32.mul_comm (t.b.point.y - t.a.point.y)]
  exact Binary32.sub_swap _ _

------------------------------------------------------------
-- Turned Triangles
------------------------------------------------------------

/- The signed area is zero or not finite. -/
def IsFlat
    (t : Triangle) : Prop :=
  (t.area == 0.0 || !t.area.isFinite) = true

/- A flat triangle covers nothing. -/
theorem hits_of_isFlat
    {t : Triangle}
    (hFlat : t.IsFlat)
    (scissor : Scissor) :
    t.hits scissor = [] :=
  if_pos hFlat

/- A finite signed area is flat if it is zero. -/
theorem isFlat_iff
    {t : Triangle}
    {value : ℚ}
    (hArea : HasValue t.area value) :
    t.IsFlat ↔ value = 0 := by
  unfold IsFlat
  rw [Bool.or_eq_true, hArea.beq_iff Binary32.hasValue_zero,
    hArea.isFinite]
  simp

/- Turned over, a flat triangle stays flat. -/
theorem IsFlat.turnedOver
    {t : Triangle}
    (hFlat : t.IsFlat) :
    t.turnedOver.IsFlat := by
  rcases t.area_turnedOver with hTurned | ⟨-, hZero⟩
  · by_cases hFinite : t.area.isFinite = true
    · rcases Binary32.hasValue_of_isFinite hFinite with
        ⟨value, hArea⟩
      have hTurnedArea :
          HasValue t.turnedOver.area (-value) := by
        rw [hTurned]
        exact hArea.neg
      rw [isFlat_iff hTurnedArea, (isFlat_iff hArea).mp hFlat,
        neg_zero]
    · rw [IsFlat, hTurned, Binary32.isFinite_neg]
      simp [hFinite]
  · rw [IsFlat, hZero, Bool.true_or]

/-
  A triangle is drawn the way that it turns: as it is, or
  turned over with the weights handed back, or not at all.
-/
theorem hits_of_area
    {t : Triangle}
    {value : ℚ}
    (hArea : HasValue t.area value)
    (scissor : Scissor) :
    (0 < value ∧
        t.hits scissor =
          Coverage.orientedHits t.a.point t.b.point
            t.c.point t.area scissor.clipped) ∨
      (value < 0 ∧
        t.hits scissor =
          (Coverage.orientedHits t.a.point t.c.point
            t.b.point (-t.area) scissor.clipped).map
            Hit.swap) ∨
      (value = 0 ∧ t.hits scissor = []) := by
  have hFlat := isFlat_iff hArea
  have hTurned : t.area < 0.0 ↔ value < 0 :=
    hArea.lt_iff Binary32.hasValue_zero
  rcases lt_trichotomy value 0 with hNeg | hNone | hPos
  · exact Or.inr (Or.inl ⟨hNeg,
      (if_neg (hFlat.not.mpr hNeg.ne)).trans
        (if_pos (hTurned.mpr hNeg))⟩)
  · exact Or.inr (Or.inr ⟨hNone,
      hits_of_isFlat (hFlat.mpr hNone) scissor⟩)
  · exact Or.inl ⟨hPos,
      (if_neg (hFlat.not.mpr hPos.ne')).trans
        (if_neg (hTurned.not.mpr hPos.not_gt))⟩

/-
  Turned over, a triangle of positive area is drawn by its
  own pixels, with the weights handed back.
-/
theorem hits_turnedOver_of_pos
    {t : Triangle}
    {value : ℚ}
    (hArea : HasValue t.area value)
    (hPos : 0 < value)
    (hTurned : t.turnedOver.area = -t.area)
    (scissor : Scissor) :
    t.turnedOver.hits scissor =
      (t.hits scissor).map Hit.swap := by
  have hTurnedArea :
      HasValue t.turnedOver.area (-value) := by
    rw [hTurned]
    exact hArea.neg
  have hHits :
      t.hits scissor =
        Coverage.orientedHits t.a.point t.b.point t.c.point
          t.area scissor.clipped := by
    rcases hits_of_area hArea scissor with
      ⟨-, hHits⟩ | ⟨hSign, -⟩ | ⟨hSign, -⟩
    · exact hHits
    · exact absurd hSign hPos.not_gt
    · exact absurd hSign hPos.ne'
  rcases hits_of_area hTurnedArea scissor with
    ⟨hSign, -⟩ | ⟨-, hTurnedHits⟩ | ⟨hSign, -⟩
  · linarith
  · rw [hHits, hTurnedHits, hTurned, Binary32.neg_neg]
    rfl
  · linarith

/-
  Winding does not matter.  With its last two vertices
  exchanged, a triangle covers the same pixels in the same
  order, and at each of them every vertex has the same
  weight, so the last two weights are exchanged.  This holds
  for all vertices and all scissors.
-/
theorem hits_turnedOver
    (t : Triangle)
    (scissor : Scissor) :
    t.turnedOver.hits scissor =
      (t.hits scissor).map Hit.swap := by
  by_cases hFlat : t.IsFlat
  · rw [hits_of_isFlat hFlat, hits_of_isFlat hFlat.turnedOver]
    rfl
  · have hFinite : t.area.isFinite = true := by
      by_contra hInfinite
      exact hFlat (by simp [IsFlat, hInfinite])
    have hTurned : t.turnedOver.area = -t.area := by
      rcases t.area_turnedOver with hTurned | ⟨hZero, -⟩
      · exact hTurned
      · exact absurd (by simp [IsFlat, hZero]) hFlat
    rcases Binary32.hasValue_of_isFinite hFinite with
      ⟨value, hArea⟩
    rcases lt_or_gt_of_ne ((isFlat_iff hArea).not.mp hFlat)
      with hNeg | hPos
    · -- The turned triangle is the one of positive area.
      have hTurnedArea :
          HasValue t.turnedOver.area (-value) := by
        rw [hTurned]
        exact hArea.neg
      have hBack : t.area = -t.turnedOver.area := by
        rw [hTurned, Binary32.neg_neg]
      have hHits :
          t.hits scissor =
            (t.turnedOver.hits scissor).map Hit.swap :=
        hits_turnedOver_of_pos hTurnedArea
          (neg_pos.mpr hNeg) hBack scissor
      rw [hHits, List.map_map]
      exact (List.map_id _).symm
    · exact hits_turnedOver_of_pos hArea hPos hTurned
        scissor

end Triangle

end PagedRaster
