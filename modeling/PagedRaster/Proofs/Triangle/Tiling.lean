import PagedRaster.Proofs.Binary32.Signed
import PagedRaster.Proofs.Triangle.Emission
import PagedRaster.Proofs.Triangle.Winding

/-
  This file proves that two triangles with a common edge
  tile the quadrilateral they make up.  Corners with integer
  coordinates of the draw area leave every step of the edge
  function exact, so a pixel is covered just when its centre
  is on the inner side of three lines of the plane; a centre
  on the common edge is left to one of the triangles.

  Key definitions include:
    * `ExactPoint`
    * `ExactPoint.turn`
    * `ExactPoint.Owns`, `ExactPoint.Filled`
    * `ExactPoint.StrictlyConvex`
    * `ExactPoint.StrictlyInside`
    * `Point.At`, `Point.AtHalves`
    * `Triangle.Covers`, `Triangle.HasCorners`

  Key theorems include:
    * `ExactPoint.filled_of_perm`
    * `ExactPoint.not_filled_and_filled`
    * `ExactPoint.filled_or_filled`
    * `Coverage.hasValue_edge`
    * `Triangle.hits_turned`
    * `Triangle.covers_iff`
    * `Triangle.halves_tile`
-/

namespace PagedRaster

open Binary32 (HasValue Representable)

------------------------------------------------------------
-- The Plane
------------------------------------------------------------

/- A point of the plane, with y growing downwards. -/
structure ExactPoint where
  x : ℚ
  y : ℚ

namespace ExactPoint

/-
  On which side of the line from `a` to `b` a point lies;
  for three corners, twice their signed area.
-/
def turn
    (a b p : ExactPoint) : ℚ :=
  (p.x - a.x) * (b.y - a.y) - (p.y - a.y) * (b.x - a.x)

/- A line downwards, or a level one to the left. -/
def TopLeft
    (a b : ExactPoint) : Prop :=
  0 < b.y - a.y ∨ (b.y - a.y = 0 ∧ b.x - a.x < 0)

/-
  A point on the inner side of an edge, or on an edge whose
  points count as inside.
-/
def Owns
    (a b p : ExactPoint) : Prop :=
  0 < turn a b p ∨ (turn a b p = 0 ∧ TopLeft a b)

/- A point that all edges of a positive triangle own. -/
def Fills
    (a b c p : ExactPoint) : Prop :=
  Owns b c p ∧ Owns c a p ∧ Owns a b p

/- A point of a triangle, whichever way its corners turn. -/
def Filled
    (a b c p : ExactPoint) : Prop :=
  (0 < turn a b c ∧ Fills a b c p) ∨
    (turn a b c < 0 ∧ Fills a c b p)

section Turns

variable (a b c p : ExactPoint)

/- The other direction of a line turns the other way. -/
theorem turn_swap : turn b a p = -turn a b p := by
  unfold turn
  ring

/- Three corners turn the same way from each of them. -/
theorem turn_rotate : turn b c a = turn a b c := by
  unfold turn
  ring

/- Exchanged corners turn the other way. -/
theorem turn_exchange : turn a c b = -turn a b c := by
  unfold turn
  ring

/- The parts of a triangle seen from a point. -/
theorem turn_add_turn :
    turn b c p + turn c a p + turn a b p =
      turn a b c := by
  unfold turn
  ring

/- A point is the mean of the corners under these parts. -/
theorem turn_mul_x :
    turn b c p * a.x + turn c a p * b.x +
        turn a b p * c.x =
      turn a b c * p.x := by
  unfold turn
  ring

/- So it is in the other coordinate. -/
theorem turn_mul_y :
    turn b c p * a.y + turn c a p * b.y +
        turn a b p * c.y =
      turn a b c * p.y := by
  unfold turn
  ring

/- The first corner may be any of them. -/
theorem filled_rotate :
    Filled b c a p ↔ Filled a b c p := by
  unfold Filled Fills
  rw [turn_rotate]
  tauto

/- Two corners may be exchanged. -/
theorem filled_exchange :
    Filled a c b p ↔ Filled a b c p := by
  unfold Filled
  rw [turn_exchange, neg_pos, neg_lt_zero]
  tauto

end Turns

/- The order of the corners does not matter. -/
theorem filled_of_perm
    {a b c a' b' c' : ExactPoint}
    (hPerm : [a', b', c'].Perm [a, b, c])
    (p : ExactPoint) :
    Filled a' b' c' p ↔ Filled a b c p := by
  have hMem : [a', b', c'] ∈ [a, b, c].permutations' :=
    List.mem_permutations'.mpr hPerm
  simp only [List.permutations', List.permutations'Aux,
    List.flatMap_cons, List.flatMap_nil, List.map_cons,
    List.map_nil, List.append_nil, List.cons_append,
    List.nil_append, List.mem_cons, List.cons.injEq,
    List.not_mem_nil, and_true, or_false] at hMem
  have hTurned : Filled c a b p ↔ Filled a b c p :=
    (filled_rotate b c a p).trans (filled_rotate a b c p)
  rcases hMem with h | h | h | h | h | h <;>
    rw [h.1, h.2.1, h.2.2]
  · exact (filled_exchange b a c p).symm.trans
      (filled_rotate a b c p)
  · exact filled_rotate a b c p
  · exact filled_exchange a b c p
  · exact hTurned
  · exact (filled_exchange c a b p).trans hTurned

/- Corners that are not apart by a line do not turn. -/
theorem Owns.nonneg
    {a b p : ExactPoint}
    (hOwns : Owns a b p) :
    0 ≤ turn a b p := by
  rcases hOwns with hPos | ⟨hZero, -⟩
  · exact hPos.le
  · exact hZero.ge

/- A weighted mean lies between what it is a mean of. -/
theorem mean_between
    {u v w x y z mean : ℚ}
    (hU : 0 ≤ u)
    (hV : 0 ≤ v)
    (hW : 0 ≤ w)
    (hSum : 0 < u + v + w)
    (hMean : u * x + v * y + w * z = (u + v + w) * mean) :
    min (min x y) z ≤ mean ∧ mean ≤ max (max x y) z := by
  constructor
  · have hX : min (min x y) z ≤ x :=
      (min_le_left _ _).trans (min_le_left _ _)
    have hY : min (min x y) z ≤ y :=
      (min_le_left _ _).trans (min_le_right _ _)
    have hZ : min (min x y) z ≤ z := min_le_right _ _
    have hLow :=
      add_le_add
        (add_le_add (mul_le_mul_of_nonneg_left hX hU)
          (mul_le_mul_of_nonneg_left hY hV))
        (mul_le_mul_of_nonneg_left hZ hW)
    rw [hMean, ← add_mul, ← add_mul] at hLow
    exact le_of_mul_le_mul_left hLow hSum
  · have hX : x ≤ max (max x y) z :=
      (le_max_left _ _).trans (le_max_left _ _)
    have hY : y ≤ max (max x y) z :=
      (le_max_right _ _).trans (le_max_left _ _)
    have hZ : z ≤ max (max x y) z := le_max_right _ _
    have hHigh :=
      add_le_add
        (add_le_add (mul_le_mul_of_nonneg_left hX hU)
          (mul_le_mul_of_nonneg_left hY hV))
        (mul_le_mul_of_nonneg_left hZ hW)
    rw [hMean, ← add_mul, ← add_mul] at hHigh
    exact le_of_mul_le_mul_left hHigh hSum

/- A point of a triangle lies in its bounding box. -/
theorem between_of_fills
    {a b c p : ExactPoint}
    (hArea : 0 < turn a b c)
    (hFills : Fills a b c p) :
    (min (min a.x b.x) c.x ≤ p.x ∧
        p.x ≤ max (max a.x b.x) c.x) ∧
      min (min a.y b.y) c.y ≤ p.y ∧
        p.y ≤ max (max a.y b.y) c.y := by
  have hSum := turn_add_turn a b c p
  have hA := hFills.1.nonneg
  have hB := hFills.2.1.nonneg
  have hC := hFills.2.2.nonneg
  rw [← hSum] at hArea
  constructor
  · apply mean_between hA hB hC hArea
    rw [turn_mul_x, hSum]
  · apply mean_between hA hB hC hArea
    rw [turn_mul_y, hSum]

/- Of the two directions of a line, one is to the left. -/
theorem topLeft_or_topLeft
    {a b : ExactPoint}
    (hApart : a ≠ b) :
    TopLeft a b ∨ TopLeft b a := by
  rcases lt_trichotomy a.y b.y with hLt | hEq | hGt
  · exact Or.inl (Or.inl (by linarith))
  · rcases lt_trichotomy a.x b.x with hLt | hSame | hGt
    · exact Or.inr (Or.inr ⟨by linarith, by linarith⟩)
    · refine absurd ?_ hApart
      cases a
      cases b
      congr
    · exact Or.inl (Or.inr ⟨by linarith, by linarith⟩)
  · exact Or.inr (Or.inl (by linarith))

/- They are not both. -/
theorem not_topLeft_and_topLeft
    {a b : ExactPoint} :
    ¬(TopLeft a b ∧ TopLeft b a) := by
  rintro ⟨hForth | ⟨hForth, hLeft⟩, hBack | ⟨hBack, hLeft'⟩⟩
  · linarith
  · linarith
  · linarith
  · linarith

/- A point on a line belongs to one side of it. -/
theorem not_owns_and_owns
    {a b p : ExactPoint} :
    ¬(Owns a b p ∧ Owns b a p) := by
  rintro ⟨hForth, hBack⟩
  have hSwap := turn_swap a b p
  rcases hForth with hPos | ⟨hZero, hTop⟩
  · have hNonneg := hBack.nonneg
    linarith
  · rcases hBack with hPos | ⟨hZero', hTop'⟩
    · linarith
    · exact not_topLeft_and_topLeft ⟨hTop, hTop'⟩

/- Every point belongs to a side of the line. -/
theorem owns_or_owns
    {a b : ExactPoint}
    (hApart : a ≠ b)
    (p : ExactPoint) :
    Owns a b p ∨ Owns b a p := by
  have hSwap := turn_swap a b p
  rcases lt_trichotomy (turn a b p) 0 with
    hNeg | hZero | hPos
  · exact Or.inr (Or.inl (by linarith))
  · rcases topLeft_or_topLeft hApart with hTop | hTop
    · exact Or.inl (Or.inr ⟨hZero, hTop⟩)
    · exact Or.inr (Or.inr ⟨by linarith, hTop⟩)
  · exact Or.inl (Or.inl hPos)

------------------------------------------------------------
-- Quadrilaterals
------------------------------------------------------------

/-
  Four corners that turn the same way at each of them: a
  strictly convex quadrilateral of either orientation.
-/
def StrictlyConvex
    (a b c d : ExactPoint) : Prop :=
  (0 < turn a b c ∧ 0 < turn b c d ∧ 0 < turn c d a ∧
      0 < turn d a b) ∨
    (turn a b c < 0 ∧ turn b c d < 0 ∧ turn c d a < 0 ∧
      turn d a b < 0)

/- A point on the inner side of all four edges. -/
def StrictlyInside
    (a b c d p : ExactPoint) : Prop :=
  (0 < turn a b p ∧ 0 < turn b c p ∧ 0 < turn c d p ∧
      0 < turn d a p) ∨
    (turn a b p < 0 ∧ turn b c p < 0 ∧ turn c d p < 0 ∧
      turn d a p < 0)

/- The halves of a quadrilateral have no common point. -/
theorem not_filled_and_filled
    {a b c d p : ExactPoint}
    (hConvex : StrictlyConvex a b c d) :
    ¬(Filled a b c p ∧ Filled a c d p) := by
  rintro ⟨hFirst, hSecond⟩
  have hTurn : turn a c d = turn c d a :=
    (turn_rotate a c d).symm
  unfold Filled at hFirst hSecond
  rw [hTurn] at hSecond
  rcases hConvex with ⟨hB, -, hD, -⟩ | ⟨hB, -, hD, -⟩
  · rcases hFirst with ⟨-, hFirst⟩ | ⟨hNeg, -⟩
    · rcases hSecond with ⟨-, hSecond⟩ | ⟨hNeg, -⟩
      · exact not_owns_and_owns
          ⟨hFirst.2.1, hSecond.2.2⟩
      · linarith
    · linarith
  · rcases hFirst with ⟨hPos, -⟩ | ⟨-, hFirst⟩
    · linarith
    · rcases hSecond with ⟨hPos, -⟩ | ⟨-, hSecond⟩
      · linarith
      · exact not_owns_and_owns
          ⟨hFirst.2.2, hSecond.2.1⟩

/- The halves make up the inner part. -/
theorem filled_or_filled
    {a b c d p : ExactPoint}
    (hConvex : StrictlyConvex a b c d)
    (hInside : StrictlyInside a b c d p) :
    Filled a b c p ∨ Filled a c d p := by
  have hApart : a ≠ c := by
    rintro rfl
    have hFlat : turn a b a = 0 := by
      unfold turn
      ring
    rcases hConvex with ⟨hB, -⟩ | ⟨hB, -⟩ <;> linarith
  have hTurn : turn a c d = turn c d a :=
    (turn_rotate a c d).symm
  -- The parts of both halves add up on either side.
  have hFirst := turn_add_turn a b c p
  have hSecond := turn_add_turn a c d p
  have hDiagonal := turn_swap a c p
  unfold Filled
  rw [hTurn]
  rcases hConvex with ⟨hB, -, hD, -⟩ | ⟨hB, -, hD, -⟩
  · rcases hInside with
      ⟨hAB, hBC, hCD, hDA⟩ | ⟨hAB, hBC, hCD, hDA⟩
    · rcases owns_or_owns hApart p with hForth | hBack
      · exact Or.inr (Or.inl
          ⟨hD, Or.inl hCD, Or.inl hDA, hForth⟩)
      · exact Or.inl (Or.inl
          ⟨hB, Or.inl hBC, hBack, Or.inl hAB⟩)
    · linarith
  · rcases hInside with
      ⟨hAB, hBC, hCD, hDA⟩ | ⟨hAB, hBC, hCD, hDA⟩
    · linarith
    · have hBA : 0 < turn b a p := by
        rw [turn_swap]
        exact neg_pos.mpr hAB
      have hCB : 0 < turn c b p := by
        rw [turn_swap]
        exact neg_pos.mpr hBC
      have hDC : 0 < turn d c p := by
        rw [turn_swap]
        exact neg_pos.mpr hCD
      have hAD : 0 < turn a d p := by
        rw [turn_swap]
        exact neg_pos.mpr hDA
      rcases owns_or_owns hApart p with hForth | hBack
      · exact Or.inl (Or.inr
          ⟨hB, Or.inl hCB, Or.inl hBA, hForth⟩)
      · exact Or.inr (Or.inr
          ⟨hD, Or.inl hDC, hBack, Or.inl hAD⟩)

/- The centre of a pixel. -/
def centre
    (x y : UInt32) : ExactPoint :=
  ⟨x.toNat + 1 / 2, y.toNat + 1 / 2⟩

/- A place with integer coordinates of the draw area. -/
def OnGrid
    (p : ExactPoint) : Prop :=
  ∃ x y : Nat, x ≤ 1024 ∧ y ≤ 1024 ∧ p = ⟨x, y⟩

/- Half an integer of the draw area. -/
def Half
    (q : ℚ) : Prop :=
  ∃ n : Int, 0 ≤ n ∧ n ≤ 2048 ∧ q = n / 2

end ExactPoint

------------------------------------------------------------
-- Exact Edges
------------------------------------------------------------

/- A point of floats lies at a place of the plane. -/
structure Point.At
    (p : Point)
    (e : ExactPoint) : Prop where
  x : HasValue p.x e.x
  y : HasValue p.y e.y

/- It lies at halves of integers of the draw area. -/
structure Point.AtHalves
    (p : Point)
    (e : ExactPoint) : Prop
    extends p.At e where
  halfX : ExactPoint.Half e.x
  halfY : ExactPoint.Half e.y

/- A place on the grid is one of halves. -/
theorem Point.At.atHalves
    {p : Point}
    {e : ExactPoint}
    (hAt : p.At e)
    (hGrid : e.OnGrid) :
    p.AtHalves e := by
  rcases hGrid with ⟨x, y, hX, hY, rfl⟩
  refine { hAt with
    halfX := ⟨2 * x, by omega, by omega, ?_⟩
    halfY := ⟨2 * y, by omega, by omega, ?_⟩ }
  · push_cast
    ring
  · push_cast
    ring

namespace Coverage

open ExactPoint (turn TopLeft Half)

/- A small count of quarters is exact in a float. -/
theorem representable_quarters
    (count : Int)
    (hSmall : |count| < 2 ^ 24) :
    Representable |(count : ℚ) / 4| ∧
      |(count : ℚ) / 4| ≤ 2 ^ 127 := by
  have hUnits :
      (count : ℚ) / 4 = count * 2 ^ (-2 : Int) := by
    norm_num
    ring
  constructor
  · rw [hUnits]
    exact Binary32.representable_abs_units hSmall
      (by decide)
  · have hCast : |(count : ℚ)| < 2 ^ 24 := by
      exact_mod_cast hSmall
    rw [abs_div, abs_of_pos (by norm_num : (0 : ℚ) < 4)]
    linarith

/- Coordinates differ by a count of halves, exactly. -/
theorem hasValue_sub_of_half
    {x y : Float32}
    {p q : ℚ}
    (hX : HasValue x p)
    (hY : HasValue y q)
    (hP : Half p)
    (hQ : Half q) :
    HasValue (x - y) (p - q) ∧
      ∃ n : Int, |n| ≤ 2048 ∧ p - q = n / 2 := by
  rcases hP with ⟨m, hM, hM', rfl⟩
  rcases hQ with ⟨n, hN, hN', rfl⟩
  have hRange : |m - n| ≤ 2048 := by
    rw [abs_le]
    omega
  have hQuarters :
      (m / 2 - n / 2 : ℚ) = (2 * (m - n) : Int) / 4 := by
    push_cast
    ring
  have hFits :=
    representable_quarters (2 * (m - n)) (by
      rw [abs_mul]
      norm_num
      omega)
  rw [← hQuarters] at hFits
  refine ⟨?_, m - n, hRange, ?_⟩
  · exact Binary32.hasValue_of_representable
      (hX.sub hY hFits.2) hFits.1
  · push_cast
    ring

/- The product of such differences is exact, too. -/
theorem hasValue_mul_of_halves
    {x y : Float32}
    {p q : ℚ}
    (hX : HasValue x p ∧ ∃ n : Int, |n| ≤ 2048 ∧ p = n / 2)
    (hY :
      HasValue y q ∧ ∃ n : Int, |n| ≤ 2048 ∧ q = n / 2) :
    HasValue (x * y) (p * q) ∧
      ∃ n : Int, |n| ≤ 2 ^ 22 ∧ p * q = n / 4 := by
  rcases hX with ⟨hX, m, hM, rfl⟩
  rcases hY with ⟨hY, n, hN, rfl⟩
  have hRange : |m * n| ≤ 2 ^ 22 := by
    rw [abs_mul]
    exact mul_le_mul hM hN (abs_nonneg n) (by decide)
  have hQuarters :
      (m / 2 * (n / 2) : ℚ) = (m * n : Int) / 4 := by
    push_cast
    ring
  have hFits :=
    representable_quarters (m * n)
      (hRange.trans_lt (by decide))
  rw [← hQuarters] at hFits
  exact ⟨Binary32.hasValue_of_representable
      (hX.mul hY hFits.2) hFits.1,
    m * n, hRange, hQuarters⟩

/- The edge function is exact on such points. -/
theorem hasValue_edge
    {a b p : Point}
    {a' b' p' : ExactPoint}
    (hA : a.AtHalves a')
    (hB : b.AtHalves b')
    (hP : p.AtHalves p') :
    HasValue (edge a b p) (turn a' b' p') := by
  have hPX :=
    hasValue_sub_of_half hP.x hA.x hP.halfX hA.halfX
  have hBY :=
    hasValue_sub_of_half hB.y hA.y hB.halfY hA.halfY
  have hPY :=
    hasValue_sub_of_half hP.y hA.y hP.halfY hA.halfY
  have hBX :=
    hasValue_sub_of_half hB.x hA.x hB.halfX hA.halfX
  rcases hasValue_mul_of_halves hPX hBY with
    ⟨hFirst, m, hM, hFirstEq⟩
  rcases hasValue_mul_of_halves hPY hBX with
    ⟨hSecond, n, hN, hSecondEq⟩
  have hQuarters :
      turn a' b' p' = (m - n : Int) / 4 := by
    unfold turn
    rw [hFirstEq, hSecondEq]
    push_cast
    ring
  have hRange : |m - n| < 2 ^ 24 := by
    rw [abs_le] at hM hN
    rw [abs_lt]
    omega
  have hFits := representable_quarters (m - n) hRange
  rw [← hQuarters] at hFits
  exact Binary32.hasValue_of_representable
    (hFirst.sub hSecond hFits.2) hFits.1

/- So is the fill rule. -/
theorem isTopLeft_iff
    {a b : Point}
    {a' b' : ExactPoint}
    (hA : a.AtHalves a')
    (hB : b.AtHalves b') :
    isTopLeft a b = true ↔ TopLeft a' b' := by
  have hX :=
    (hasValue_sub_of_half hB.x hA.x hB.halfX hA.halfX).1
  have hY :=
    (hasValue_sub_of_half hB.y hA.y hB.halfY hA.halfY).1
  have hZero := Binary32.hasValue_zero
  unfold isTopLeft TopLeft
  simp only [Bool.or_eq_true, Bool.and_eq_true,
    decide_eq_true_eq, hZero.lt_iff hY, hY.beq_iff hZero,
    hX.lt_iff hZero]

/- And which centres an edge owns. -/
theorem inside_iff
    {a b p : Point}
    {a' b' p' : ExactPoint}
    (hA : a.AtHalves a')
    (hB : b.AtHalves b')
    (hP : p.AtHalves p') :
    inside (edge a b p) (isTopLeft a b) = true ↔
      ExactPoint.Owns a' b' p' := by
  have hEdge := hasValue_edge hA hB hP
  have hZero := Binary32.hasValue_zero
  unfold inside ExactPoint.Owns
  simp only [Bool.or_eq_true, Bool.and_eq_true,
    decide_eq_true_eq, hZero.lt_iff hEdge,
    hEdge.beq_iff hZero, isTopLeft_iff hA hB]

/- The centre of a pixel of the draw area. -/
theorem centre_at
    {x y : UInt32}
    (hX : x.toNat < 1024)
    (hY : y.toNat < 1024) :
    (centre x y).AtHalves (ExactPoint.centre x y) := by
  have hCoordinate
      {n : UInt32}
      (hN : n.toNat < 1024) :
      HasValue (n.toFloat32 + 0.5) (n.toNat + 1 / 2) ∧
        Half (n.toNat + 1 / 2) := by
    have hQuarters :
        (n.toNat + 1 / 2 : ℚ) =
          (4 * n.toNat + 2 : Int) / 4 := by
      push_cast
      ring
    have hFits :=
      representable_quarters (4 * (n.toNat : Int) + 2) (by
          rw [abs_lt]
          omega)
    rw [← hQuarters] at hFits
    have hWhole :=
      Binary32.hasValue_toFloat32 (hN.trans (by decide))
    refine ⟨Binary32.hasValue_of_representable
      (hWhole.add Binary32.hasValue_half hFits.2)
      hFits.1, 2 * n.toNat + 1, by omega, by omega, ?_⟩
    push_cast
    ring
  exact {
    x := (hCoordinate hX).1
    y := (hCoordinate hY).1
    halfX := (hCoordinate hX).2
    halfY := (hCoordinate hY).2 }

------------------------------------------------------------
-- Exact Coverage
------------------------------------------------------------

/- The extent of integers holds all integers between. -/
theorem extent_of_between
    {x y z : Float32}
    {p q r : Nat}
    (hX : HasValue x p)
    (hY : HasValue y q)
    (hZ : HasValue z r)
    (hSmall : p ≤ 1024 ∧ q ≤ 1024 ∧ r ≤ 1024)
    {n : Nat}
    (hBetween :
      min (min (p : ℚ) q) r ≤ n + 1 / 2 ∧
        (n + 1 / 2 : ℚ) ≤ max (max (p : ℚ) q) r) :
    Binary32.floorInt (least3 x y z) ≤ n ∧
      (n : Int) ≤ Binary32.ceilInt (greatest3 x y z) := by
  have hLow := (hX.least hY).least hZ
  have hHigh := (hX.greatest hY).greatest hZ
  have hLowNat :
      min (min (p : ℚ) q) r =
        (min (min p q) r : Nat) := by
    push_cast
    rfl
  have hHighNat :
      max (max (p : ℚ) q) r =
        (max (max p q) r : Nat) := by
    push_cast
    rfl
  rw [hLowNat] at hLow hBetween
  rw [hHighNat] at hHigh hBetween
  have hLowLt : ((min (min p q) r : Nat) : ℚ) < 2 ^ 24 := by
    have hLt : min (min p q) r < 2 ^ 24 := by omega
    exact_mod_cast hLt
  have hHighLt : ((max (max p q) r : Nat) : ℚ) < 2 ^ 24 := by
    have hLt : max (max p q) r < 2 ^ 24 := by omega
    exact_mod_cast hLt
  unfold least3 greatest3
  rw [hLow.floorInt_eq (Nat.cast_nonneg _) hLowLt,
    hHigh.ceilInt_eq (Nat.cast_nonneg _) hHighLt,
    Nat.floor_natCast, Nat.ceil_natCast]
  generalize min (min p q) r = low at hBetween ⊢
  generalize max (max p q) r = high at hBetween ⊢
  constructor
  · have hLt : (low : ℚ) < (n + 1 : Nat) := by
      push_cast
      linarith
    have hNat := Nat.cast_lt.mp hLt
    omega
  · have hLt : (n : ℚ) < (high : Nat) := by
      linarith
    have hNat := Nat.cast_lt.mp hLt
    omega

/- A pixel is covered if its centre is inside all edges. -/
theorem exists_hit?_iff
    (a b c : Point)
    (area : Float32)
    (topLeftA topLeftB topLeftC : Bool)
    (x y : UInt32) :
    (∃ hit,
      hit? a b c area topLeftA topLeftB topLeftC x y =
        some hit) ↔
      inside (edge b c (centre x y)) topLeftA = true ∧
        inside (edge c a (centre x y)) topLeftB = true ∧
        inside (edge a b (centre x y)) topLeftC = true := by
  unfold hit?
  dsimp only
  rw [← and_assoc, ← Bool.and_eq_true, ← Bool.and_eq_true]
  split
  · rename_i hInside
    exact ⟨fun _ => hInside, fun _ => ⟨_, rfl⟩⟩
  · rename_i hOutside
    refine ⟨?_, fun hInside => absurd hInside hOutside⟩
    rintro ⟨hit, hNone⟩
    cases hNone

/- Of a positive triangle, the pixels that fill it. -/
theorem exists_mem_orientedHits_iff
    {a b c : Point}
    {a' b' c' : ExactPoint}
    (hA : a.At a' ∧ a'.OnGrid)
    (hB : b.At b' ∧ b'.OnGrid)
    (hC : c.At c' ∧ c'.OnGrid)
    (hTurn : 0 < turn a' b' c')
    (area : Float32)
    (scissor : Scissor)
    (x y : UInt32) :
    (∃ hit ∈ orientedHits a b c area scissor.clipped,
        hit.x = x ∧ hit.y = y) ↔
      scissor.clipped.contains x y = true ∧
        ExactPoint.Fills a' b' c'
          (ExactPoint.centre x y) := by
  rcases scissor.clipped_fits with ⟨hColumns, hRows⟩
  have hFills
      (hInside : scissor.clipped.contains x y = true) :
      (∃ hit,
        hit? a b c area (isTopLeft b c) (isTopLeft c a)
            (isTopLeft a b) x y =
          some hit) ↔
        ExactPoint.Fills a' b' c'
          (ExactPoint.centre x y) := by
    rw [Scissor.contains_iff] at hInside
    have hCentre : (centre x y).AtHalves _ :=
      centre_at (by omega) (by omega)
    have hA := hA.1.atHalves hA.2
    have hB := hB.1.atHalves hB.2
    have hC := hC.1.atHalves hC.2
    rw [exists_hit?_iff, inside_iff hB hC hCentre,
      inside_iff hC hA hCentre, inside_iff hA hB hCentre]
    rfl
  constructor
  · rintro ⟨hit, hMem, rfl, rfl⟩
    rw [mem_orientedHits hColumns hRows] at hMem
    exact ⟨hMem.1,
      (hFills hMem.1).mp ⟨hit, hMem.2.2.2⟩⟩
  · rintro ⟨hInside, hFilled⟩
    rcases (hFills hInside).mpr hFilled with ⟨hit, hHit⟩
    rcases place_of_hit? hHit with ⟨rfl, rfl⟩
    refine ⟨hit, ?_, rfl, rfl⟩
    rw [mem_orientedHits hColumns hRows]
    rcases hA with ⟨hA, ax, ay, hAX, hAY, rfl⟩
    rcases hB with ⟨hB, bx, by', hBX, hBY, rfl⟩
    rcases hC with ⟨hC, cx, cy, hCX, hCY, rfl⟩
    rcases ExactPoint.between_of_fills hTurn hFilled with
      ⟨hX, hY⟩
    exact ⟨hInside,
      extent_of_between hA.x hB.x hC.x ⟨hAX, hBX, hCX⟩ hX,
      extent_of_between hA.y hB.y hC.y ⟨hAY, hBY, hCY⟩ hY,
      hHit⟩

end Coverage

namespace Triangle

open ExactPoint (turn Filled)

/- A pixel is among those that a triangle covers. -/
def Covers
    (t : Triangle)
    (scissor : Scissor)
    (x y : UInt32) : Prop :=
  ∃ hit ∈ t.hits scissor, hit.x = x ∧ hit.y = y

/- The vertices of a triangle lie at places, in order. -/
structure At
    (t : Triangle)
    (a b c : ExactPoint) : Prop where
  a : t.a.point.At a
  b : t.b.point.At b
  c : t.c.point.At c

/- A triangle is drawn the way that its corners turn. -/
theorem hits_turned
    {t : Triangle}
    {a b c : ExactPoint}
    (hA : t.a.point.AtHalves a)
    (hB : t.b.point.AtHalves b)
    (hC : t.c.point.AtHalves c)
    (scissor : Scissor) :
    let area :=
      Coverage.edge t.a.point t.b.point t.c.point
    (0 < turn a b c ∧
        t.hits scissor =
          Coverage.orientedHits t.a.point t.b.point
            t.c.point area scissor.clipped) ∨
      (turn a b c < 0 ∧
        t.hits scissor =
          (Coverage.orientedHits t.a.point t.c.point
            t.b.point (-area) scissor.clipped).map
            Hit.swap) ∨
      (turn a b c = 0 ∧ t.hits scissor = []) :=
  hits_of_area (Coverage.hasValue_edge hA hB hC) scissor

/- A turned-over list of pixels has the same places. -/
theorem exists_mem_map_swap_iff
    (hits : List Hit)
    (x y : UInt32) :
    (∃ hit ∈ hits.map Hit.swap, hit.x = x ∧ hit.y = y) ↔
      ∃ hit ∈ hits, hit.x = x ∧ hit.y = y := by
  simp only [List.mem_map, exists_exists_and_eq_and]
  rfl

/-
  A triangle with corners on the grid covers the pixels of
  the scissor whose centres fill it.
-/
theorem covers_iff
    {t : Triangle}
    {a b c : ExactPoint}
    (hAt : t.At a b c)
    (hA : a.OnGrid)
    (hB : b.OnGrid)
    (hC : c.OnGrid)
    (scissor : Scissor)
    (x y : UInt32) :
    t.Covers scissor x y ↔
      scissor.clipped.contains x y = true ∧
        Filled a b c (ExactPoint.centre x y) := by
  unfold Covers Filled
  rcases hits_turned (hAt.a.atHalves hA)
      (hAt.b.atHalves hB) (hAt.c.atHalves hC) scissor with
    ⟨hPos, hHits⟩ | ⟨hNeg, hHits⟩ | ⟨hNone, hHits⟩
  · rw [hHits, Coverage.exists_mem_orientedHits_iff
      ⟨hAt.a, hA⟩ ⟨hAt.b, hB⟩ ⟨hAt.c, hC⟩ hPos]
    simp only [hPos.not_gt, hPos, false_and, true_and,
      or_false]
  · have hExchanged : 0 < turn a c b := by
      rw [ExactPoint.turn_exchange]
      exact neg_pos.mpr hNeg
    rw [hHits, exists_mem_map_swap_iff,
      Coverage.exists_mem_orientedHits_iff ⟨hAt.a, hA⟩
        ⟨hAt.c, hC⟩ ⟨hAt.b, hB⟩ hExchanged]
    simp only [hNeg.not_gt, hNeg, false_and, true_and,
      false_or]
  · simp [hHits, hNone]

/- The vertices lie at three places, in any order. -/
def HasCorners
    (t : Triangle)
    (a b c : ExactPoint) : Prop :=
  ∃ p q r, [p, q, r].Perm [a, b, c] ∧ t.At p q r

/- The order of the vertices does not change the pixels. -/
theorem HasCorners.covers_iff
    {t : Triangle}
    {a b c : ExactPoint}
    (hCorners : t.HasCorners a b c)
    (hGrid : ∀ p ∈ [a, b, c], p.OnGrid)
    (scissor : Scissor)
    (x y : UInt32) :
    t.Covers scissor x y ↔
      scissor.clipped.contains x y = true ∧
        Filled a b c (ExactPoint.centre x y) := by
  rcases hCorners with ⟨p, q, r, hPerm, hAt⟩
  have hOrdered : ∀ e ∈ [p, q, r], e.OnGrid :=
    fun e he => hGrid e (hPerm.mem_iff.mp he)
  rw [Triangle.covers_iff hAt (hOrdered p (by simp))
    (hOrdered q (by simp)) (hOrdered r (by simp)),
    ExactPoint.filled_of_perm hPerm]

/-
  Two triangles that make up a strictly convex quadrilateral
  have no pixel in common, and every pixel of the scissor
  whose centre lies strictly inside the quadrilateral
  belongs to one of them.
-/
theorem halves_tile
    {a b c d : ExactPoint}
    (hGrid : ∀ p ∈ [a, b, c, d], p.OnGrid)
    (hConvex : ExactPoint.StrictlyConvex a b c d)
    {t u : Triangle}
    (hT : t.HasCorners a b c)
    (hU : u.HasCorners a c d)
    (scissor : Scissor) :
    (∀ x y,
      ¬(t.Covers scissor x y ∧ u.Covers scissor x y)) ∧
      ∀ x y,
        scissor.clipped.contains x y = true →
        ExactPoint.StrictlyInside a b c d
          (ExactPoint.centre x y) →
        t.Covers scissor x y ∨ u.Covers scissor x y := by
  simp only [List.forall_mem_cons] at hGrid
  rcases hGrid with ⟨hA, hB, hC, hD, -⟩
  have hFirst :=
    hT.covers_iff (by simp [hA, hB, hC]) scissor
  have hSecond :=
    hU.covers_iff (by simp [hA, hC, hD]) scissor
  constructor
  · intro x y hBoth
    rw [hFirst, hSecond] at hBoth
    exact ExactPoint.not_filled_and_filled hConvex
      ⟨hBoth.1.2, hBoth.2.2⟩
  · intro x y hClipped hInside
    rw [hFirst, hSecond]
    exact (ExactPoint.filled_or_filled hConvex hInside).imp
      (fun hFilled => ⟨hClipped, hFilled⟩)
      (fun hFilled => ⟨hClipped, hFilled⟩)

end Triangle

/- A vertex at a place of the grid. -/
def Vertex.onGrid
    (x y : UInt32) : Vertex :=
  { Vertex.zero with
    x := x.toFloat32
    y := y.toFloat32 }

/- It lies at this place. -/
theorem Vertex.at_onGrid
    {x y : UInt32}
    (hX : x.toNat < 2 ^ 24)
    (hY : y.toNat < 2 ^ 24) :
    (Vertex.onGrid x y).point.At ⟨x.toNat, y.toNat⟩ where
  x := Binary32.hasValue_toFloat32 hX
  y := Binary32.hasValue_toFloat32 hY

namespace Triangle

open ExactPoint (turn)

/- Half of a slanted quadrilateral, with corners turned. -/
def slantedHalf : Triangle where
  a := Vertex.onGrid 7 7
  b := Vertex.onGrid 6 1
  c := Vertex.onGrid 0 0

/- The other half, with corners in another order. -/
def otherSlantedHalf : Triangle where
  a := Vertex.onGrid 1 5
  b := Vertex.onGrid 0 0
  c := Vertex.onGrid 7 7

/- The diagonal goes through the centre of a pixel. -/
theorem halves_tile_diagonal :
    slantedHalf.HasCorners ⟨0, 0⟩ ⟨6, 1⟩ ⟨7, 7⟩ ∧
      otherSlantedHalf.HasCorners ⟨0, 0⟩ ⟨7, 7⟩ ⟨1, 5⟩ ∧
      turn ⟨0, 0⟩ ⟨7, 7⟩ (ExactPoint.centre 3 3) = 0 ∧
      ¬(slantedHalf.Covers {} 3 3 ∧
        otherSlantedHalf.Covers {} 3 3) ∧
      (slantedHalf.Covers {} 3 3 ∨
        otherSlantedHalf.Covers {} 3 3) := by
  have hGrid :
      ∀ p ∈ [⟨0, 0⟩, ⟨6, 1⟩, ⟨7, 7⟩, (⟨1, 5⟩ : ExactPoint)],
        p.OnGrid := by
    simp only [List.forall_mem_cons]
    exact ⟨⟨0, 0, by simp⟩, ⟨6, 1, by simp⟩,
      ⟨7, 7, by simp⟩, ⟨1, 5, by simp⟩, by simp⟩
  have hConvex :
      ExactPoint.StrictlyConvex ⟨0, 0⟩ ⟨6, 1⟩ ⟨7, 7⟩
        ⟨1, 5⟩ := by
    right
    norm_num [turn]
  have hCentre :
      ExactPoint.centre 3 3 = ⟨7 / 2, 7 / 2⟩ := by
    have hThree : (3 : UInt32).toNat = 3 := rfl
    rw [ExactPoint.centre, hThree]
    norm_num
  have hReversed (a b c : ExactPoint) :
      [c, b, a].Perm [a, b, c] :=
    List.reverse_perm [a, b, c]
  have hShifted (a b c : ExactPoint) :
      [c, a, b].Perm [a, b, c] :=
    List.perm_append_singleton c [a, b] |>.symm
  have hInside :
      ExactPoint.StrictlyInside ⟨0, 0⟩ ⟨6, 1⟩ ⟨7, 7⟩ ⟨1, 5⟩
        (ExactPoint.centre 3 3) := by
    right
    norm_num [turn, hCentre]
  have hFirst :
      slantedHalf.HasCorners ⟨0, 0⟩ ⟨6, 1⟩ ⟨7, 7⟩ :=
    ⟨_, _, _, hReversed _ _ _,
      { a := Vertex.at_onGrid (by decide) (by decide)
        b := Vertex.at_onGrid (by decide) (by decide)
        c := Vertex.at_onGrid (by decide) (by decide) }⟩
  have hSecond :
      otherSlantedHalf.HasCorners ⟨0, 0⟩ ⟨7, 7⟩ ⟨1, 5⟩ :=
    ⟨_, _, _, hShifted _ _ _,
      { a := Vertex.at_onGrid (by decide) (by decide)
        b := Vertex.at_onGrid (by decide) (by decide)
        c := Vertex.at_onGrid (by decide) (by decide) }⟩
  have hTile := halves_tile hGrid hConvex hFirst hSecond {}
  refine ⟨hFirst, hSecond, ?_, hTile.1 3 3,
    hTile.2 3 3 (by decide) hInside⟩
  norm_num [turn, hCentre]

end Triangle

end PagedRaster
