import Mathlib
import PagedRaster.Triangle.Coverage
import PagedRaster.Word

/-
  This file proves where and in which order a triangle
  covers pixels.  Whatever its vertices hold, the pixels
  come row by row and from left to right, so each of them
  comes once, and they lie in the scissor and in the draw
  area.  No word on the way there wraps.

  Key definitions include:
    * `Scissor.clippedChecked`, `Scissor.containsChecked`
    * `Coverage.first`, `Coverage.last`
    * `Hit.Precedes`
    * `Triangle.IsFinite`

  Key theorems include:
    * `Scissor.contains_iff`
    * `Scissor.contains_clipped_iff`
    * `Coverage.mem_extent`
    * `Coverage.mem_orientedHits`
    * `Coverage.isFinite_of_edge`
    * `Triangle.hits_once_inside`
-/

namespace PagedRaster

------------------------------------------------------------
-- Checked Rectangles
------------------------------------------------------------

namespace Scissor

/- The clipped rectangle, by differences that may fail. -/
def clippedChecked
    (s : Scissor) : Option Scissor := do
  let x := min s.x drawAreaSize
  let y := min s.y drawAreaSize
  let right ← checkedSub drawAreaSize x
  let below ← checkedSub drawAreaSize y
  return {
    x := x
    y := y
    width := min s.width right
    height := min s.height below }

/-
  Whether a pixel lies in the rectangle, by differences that
  may fail; each is taken when the tests before it pass.
-/
def containsChecked
    (s : Scissor)
    (x y : UInt32) : Option Bool :=
  if s.x ≤ x && s.y ≤ y then do
    let column ← checkedSub x s.x
    if column < s.width then do
      let row ← checkedSub y s.y
      return decide (row < s.height)
    else
      return false
  else
    return false

/- The last word of a side, by steps that may fail. -/
def lastChecked
    (start length : UInt32) : Option UInt32 := do
  let stop ← checkedAdd start length
  checkedSub stop 1

------------------------------------------------------------
-- Scissors
------------------------------------------------------------

/- The smaller of two words. -/
theorem toNat_min
    (word other : UInt32) :
    (min word other).toNat =
      min word.toNat other.toNat := by
  have hMin :
      min word other =
        if word ≤ other then word else other :=
    rfl
  rw [hMin]
  split
  · rename_i hLe
    rw [UInt32.le_iff_toNat_le] at hLe
    omega
  · rename_i hLt
    rw [UInt32.le_iff_toNat_le] at hLt
    omega

/- A difference that does not wrap. -/
theorem toNat_sub_of_toNat_le
    {word other : UInt32}
    (hLe : other.toNat ≤ word.toNat) :
    (word - other).toNat = word.toNat - other.toNat :=
  UInt32.toNat_sub_of_le _ _
    (UInt32.le_iff_toNat_le.mpr hLe)

/- A place that is moved into the draw area is inside. -/
theorem min_le_drawAreaSize
    (place : UInt32) :
    min place drawAreaSize ≤ drawAreaSize := by
  rw [UInt32.le_iff_toNat_le, toNat_min]
  exact min_le_right _ _

/- The space behind a place that is moved into the area. -/
theorem toNat_sub_min
    (place : UInt32) :
    (drawAreaSize - min place drawAreaSize).toNat =
      1024 - min place.toNat 1024 := by
  rw [UInt32.toNat_sub_of_le _ _
      (min_le_drawAreaSize place), toNat_min]
  rfl

/- A clipped side ends in the draw area. -/
theorem clipped_fits
    (s : Scissor) :
    s.clipped.x.toNat + s.clipped.width.toNat ≤ 1024 ∧
      s.clipped.y.toNat + s.clipped.height.toNat ≤
        1024 := by
  have hArea : drawAreaSize.toNat = 1024 := rfl
  simp only [clipped, toNat_min, toNat_sub_min, hArea]
  omega

/- The pixels of a rectangle, in numbers. -/
theorem contains_iff
    (s : Scissor)
    (x y : UInt32) :
    s.contains x y = true ↔
      (s.x.toNat ≤ x.toNat ∧
        x.toNat < s.x.toNat + s.width.toNat) ∧
        s.y.toNat ≤ y.toNat ∧
          y.toNat < s.y.toNat + s.height.toNat := by
  unfold contains
  simp only [Bool.and_eq_true, decide_eq_true_eq,
    UInt32.le_iff_toNat_le, UInt32.lt_iff_toNat_lt]
  constructor
  · rintro ⟨⟨⟨hLeft, hTop⟩, hColumn⟩, hRow⟩
    rw [toNat_sub_of_toNat_le hLeft] at hColumn
    rw [toNat_sub_of_toNat_le hTop] at hRow
    omega
  · rintro ⟨⟨hLeft, hColumn⟩, hTop, hRow⟩
    rw [toNat_sub_of_toNat_le hLeft,
      toNat_sub_of_toNat_le hTop]
    omega

/- Clipping leaves the pixels of the draw area. -/
theorem contains_clipped_iff
    (s : Scissor)
    (x y : UInt32) :
    s.clipped.contains x y = true ↔
      s.contains x y = true ∧ x < drawAreaSize ∧
        y < drawAreaSize := by
  have hArea : drawAreaSize.toNat = 1024 := rfl
  simp only [contains_iff, UInt32.lt_iff_toNat_lt, clipped,
    toNat_min, toNat_sub_min, hArea]
  omega

/- Clipping does not wrap. -/
theorem clippedChecked_eq
    (s : Scissor) :
    s.clippedChecked = some s.clipped := by
  have hRight := min_le_drawAreaSize s.x
  have hBelow := min_le_drawAreaSize s.y
  simp only [clippedChecked, checkedSub, if_pos hRight,
    if_pos hBelow]
  rfl

/- Neither does the test of a pixel. -/
theorem containsChecked_eq
    (s : Scissor)
    (x y : UInt32) :
    s.containsChecked x y = some (s.contains x y) := by
  unfold containsChecked contains
  by_cases hLeft : s.x ≤ x
  · by_cases hTop : s.y ≤ y
    · by_cases hColumn : x - s.x < s.width
      · simp [checkedSub, hLeft, hTop, hColumn]
      · simp [checkedSub, hLeft, hTop, hColumn]
    · simp [hTop]
  · simp [hLeft]

/- The last word of a side that is not empty. -/
theorem exists_lastChecked
    {start length : UInt32}
    (hFits : start.toNat + length.toNat ≤ 1024)
    (hSome : length ≠ 0) :
    ∃ last,
      lastChecked start length = some last ∧
        last.toNat + 1 = start.toNat + length.toNat := by
  have hSize : UInt32.size = 4294967296 := rfl
  have hLength : length.toNat ≠ 0 := by
    intro hZero
    exact hSome (UInt32.toNat_inj.mp hZero)
  have hWord :
      start.toNat + length.toNat < UInt32.size := by
    omega
  rcases exists_checkedSum hWord with ⟨stop, hStop, hSum⟩
  have hOne : (1 : UInt32) ≤ stop := by
    rw [UInt32.le_iff_toNat_le, hSum, UInt32.toNat_one]
    omega
  refine ⟨stop - 1, ?_, ?_⟩
  · rw [lastChecked, hStop]
    exact if_pos hOne
  · rw [UInt32.toNat_sub_of_le _ _ hOne, hSum,
      UInt32.toNat_one]
    omega

end Scissor

namespace Coverage

------------------------------------------------------------
-- Spans
------------------------------------------------------------

/- Small numbers are words. -/
theorem toNat_ofNat_of_small
    {n : Nat}
    (hSmall : n < 1024) :
    (UInt32.ofNat n).toNat = n :=
  UInt32.toNat_ofNat_of_lt' (hSmall.trans (by decide))

/- The words between two integers. -/
theorem mem_span
    {first last : Int}
    (hFirst : 0 ≤ first)
    (hLast : last < 1024)
    (x : UInt32) :
    x ∈ span first last ↔
      first ≤ x.toNat ∧ (x.toNat : Int) ≤ last := by
  have hWord := x.toNat_lt
  unfold span
  rw [List.mem_map]
  constructor
  · rintro ⟨n, hn, rfl⟩
    rw [List.mem_range'_1] at hn
    rw [toNat_ofNat_of_small (by omega)]
    omega
  · intro hx
    refine ⟨x.toNat, ?_, UInt32.ofNat_toNat⟩
    rw [List.mem_range'_1]
    omega

/- They are listed from the smallest to the greatest. -/
theorem pairwise_span
    {first last : Int}
    (hFirst : 0 ≤ first)
    (hLast : last < 1024) :
    (span first last).Pairwise (· < ·) := by
  unfold span
  rw [List.pairwise_map]
  refine (List.pairwise_lt_range' 1).imp_of_mem ?_
  intro m n hm hn hLt
  rw [List.mem_range'_1] at hm hn
  rw [UInt32.lt_iff_toNat_lt,
    toNat_ofNat_of_small (by omega),
    toNat_ofNat_of_small (by omega)]
  exact hLt

/- The first integer of a range of coordinates. -/
def first
    (low : Float32)
    (start : UInt32) : Int :=
  max (Binary32.floorInt low) start.toNat

/- The last integer of a range of coordinates. -/
def last
    (high : Float32)
    (start length : UInt32) : Int :=
  min (Binary32.ceilInt high)
    (start.toNat + length.toNat - 1)

/- They are the ends of the range inside of a side. -/
theorem extent_eq
    (low high : Float32)
    (start length : UInt32) :
    extent low high start length =
      span (first low start) (last high start length) :=
  rfl

/- A side of the draw area that starts at a place. -/
def Fits
    (start length : UInt32) : Prop :=
  start.toNat + length.toNat ≤ 1024

section Extent

variable {start length : UInt32}
variable (hFits : Fits start length)
include hFits

/- The integers of a range inside of a side. -/
theorem mem_extent
    (low high : Float32)
    (x : UInt32) :
    x ∈ extent low high start length ↔
      (start.toNat ≤ x.toNat ∧
        x.toNat < start.toNat + length.toNat) ∧
        Binary32.floorInt low ≤ x.toNat ∧
          (x.toNat : Int) ≤ Binary32.ceilInt high := by
  unfold Fits at hFits
  rw [extent_eq, first, last,
    mem_span (by omega) (by omega)]
  omega

/- They come in order. -/
theorem pairwise_extent
    (low high : Float32) :
    (extent low high start length).Pairwise (· < ·) := by
  unfold Fits at hFits
  rw [extent_eq, first, last]
  exact pairwise_span (by omega) (by omega)

end Extent

/- Both ends of a loop over such integers are small. -/
theorem bounds_of_extent
    (low high : Float32)
    {start length : UInt32}
    (hFits : Fits start length) :
    (0 ≤ first low start ∧ first low start < 2 ^ 31) ∧
      -2 ^ 31 ≤ last high start length ∧
        last high start length < 1024 := by
  have hFloor :
      Binary32.floorInt low ≤
        (Binary32.toInt32 low).toInt := by
    unfold Binary32.floorInt
    dsimp only
    split <;> omega
  have hCeil :
      (Binary32.toInt32 high).toInt ≤
        Binary32.ceilInt high := by
    unfold Binary32.ceilInt
    dsimp only
    split <;> omega
  have hMost := (Binary32.toInt32 low).toInt_lt
  have hLeast := (Binary32.toInt32 high).le_toInt
  unfold Fits at hFits
  unfold first last
  omega

------------------------------------------------------------
-- Order
------------------------------------------------------------

/- A covered pixel is the one that was asked for. -/
theorem place_of_hit?
    {a b c : Point}
    {area : Float32}
    {topLeftA topLeftB topLeftC : Bool}
    {x y : UInt32}
    {hit : Hit}
    (hHit :
      hit? a b c area topLeftA topLeftB topLeftC x y =
        some hit) :
    hit.x = x ∧ hit.y = y := by
  unfold hit? at hHit
  dsimp only at hHit
  split at hHit
  · cases hHit
    exact ⟨rfl, rfl⟩
  · cases hHit

end Coverage

/- A pixel comes before another one, row by row. -/
def Hit.Precedes
    (hit other : Hit) : Prop :=
  hit.y < other.y ∨ (hit.y = other.y ∧ hit.x < other.x)

namespace Coverage

section Clip

variable {clip : Scissor}
variable (hColumns : Fits clip.x clip.width)
variable (hRows : Fits clip.y clip.height)

include hColumns hRows

/- The pixels of a triangle come row by row. -/
theorem pairwise_orientedHits
    (a b c : Point)
    (area : Float32) :
    (orientedHits a b c area clip).Pairwise
      Hit.Precedes := by
  unfold orientedHits
  split
  · exact List.Pairwise.nil
  · dsimp only
    rw [List.pairwise_flatMap]
    constructor
    · intro y hy
      rw [List.pairwise_filterMap]
      apply (pairwise_extent hColumns _ _).imp
      intro left right hLt hit hHit other hOther
      rcases place_of_hit? hHit with ⟨hX, hY⟩
      rcases place_of_hit? hOther with ⟨hX', hY'⟩
      refine Or.inr ⟨hY.trans hY'.symm, ?_⟩
      rwa [hX, hX']
    · apply (pairwise_extent hRows _ _).imp
      intro upper lower hLt hit hHit other hOther
      rw [List.mem_filterMap] at hHit hOther
      rcases hHit with ⟨x, -, hHit⟩
      rcases hOther with ⟨x', -, hOther⟩
      refine Or.inl ?_
      rwa [(place_of_hit? hHit).2, (place_of_hit? hOther).2]

/- The pixels that a triangle covers. -/
theorem mem_orientedHits
    (a b c : Point)
    (area : Float32)
    (hit : Hit) :
    hit ∈ orientedHits a b c area clip ↔
      clip.contains hit.x hit.y = true ∧
        (Binary32.floorInt (least3 a.x b.x c.x) ≤
            hit.x.toNat ∧
          (hit.x.toNat : Int) ≤
            Binary32.ceilInt (greatest3 a.x b.x c.x)) ∧
        (Binary32.floorInt (least3 a.y b.y c.y) ≤
            hit.y.toNat ∧
          (hit.y.toNat : Int) ≤
            Binary32.ceilInt (greatest3 a.y b.y c.y)) ∧
        hit? a b c area (isTopLeft b c) (isTopLeft c a)
            (isTopLeft a b) hit.x hit.y =
          some hit := by
  rw [Scissor.contains_iff]
  unfold orientedHits
  split
  · rename_i hEmpty
    unfold Scissor.isEmpty at hEmpty
    rw [Bool.or_eq_true, beq_iff_eq, beq_iff_eq] at hEmpty
    constructor
    · intro hMem
      cases hMem
    · rintro ⟨⟨hColumn, hRow⟩, -⟩
      rcases hEmpty with hZero | hZero
      · rw [hZero, UInt32.toNat_zero] at hColumn
        omega
      · rw [hZero, UInt32.toNat_zero] at hRow
        omega
  · dsimp only
    rw [List.mem_flatMap]
    constructor
    · rintro ⟨y, hy, hMem⟩
      rw [List.mem_filterMap] at hMem
      rcases hMem with ⟨x, hx, hHit⟩
      rcases place_of_hit? hHit with ⟨rfl, rfl⟩
      rw [mem_extent hColumns] at hx
      rw [mem_extent hRows] at hy
      exact ⟨⟨hx.1, hy.1⟩, hx.2, hy.2, hHit⟩
    · rintro ⟨⟨hColumn, hRow⟩, hX, hY, hHit⟩
      refine ⟨hit.y, ?_, ?_⟩
      · rw [mem_extent hRows]
        exact ⟨hRow, hY⟩
      · rw [List.mem_filterMap]
        refine ⟨hit.x, ?_, hHit⟩
        rw [mem_extent hColumns]
        exact ⟨hColumn, hX⟩

end Clip

------------------------------------------------------------
-- Finite Vertices
------------------------------------------------------------

open Float.Model (Format UnpackedFloat)

/- What is not finite stays so when it is packed. -/
theorem isFinite_of_isFinite_pack
    {result : UnpackedFloat}
    (hFinite :
      (Float32.ofModel (.pack result)).isFinite = true) :
    result.isFinite = true := by
  cases result with
  | notANumber => cases hFinite
  | infinity sign =>
      cases sign with
      | negative => cases hFinite
      | positive => cases hFinite
  | zero sign => rfl
  | finite sign mantissa exponent pos => rfl

/- The operands of a finite difference are finite. -/
theorem isFinite_of_sub
    {x y : Float32}
    (hFinite : (x - y).isFinite = true) :
    x.isFinite = true ∧ y.isFinite = true := by
  have hResult :
      (UnpackedFloat.sub Format.binary32 x.toModel.unpack
        y.toModel.unpack).isFinite = true :=
    isFinite_of_isFinite_pack hFinite
  change
    x.toModel.unpack.isFinite = true ∧
      y.toModel.unpack.isFinite = true
  generalize x.toModel.unpack = first at hResult ⊢
  generalize y.toModel.unpack = second at hResult ⊢
  cases first with
  | notANumber => cases hResult
  | infinity sign =>
      cases second with
      | notANumber => cases hResult
      | infinity sign' =>
          cases sign <;> cases sign' <;> cases hResult
      | zero sign' => cases hResult
      | finite sign' mantissa exponent pos => cases hResult
  | zero sign =>
      cases second with
      | notANumber => cases hResult
      | infinity sign' => cases hResult
      | zero sign' => exact ⟨rfl, rfl⟩
      | finite sign' mantissa exponent pos =>
          exact ⟨rfl, rfl⟩
  | finite sign mantissa exponent pos =>
      cases second with
      | notANumber => cases hResult
      | infinity sign' => cases hResult
      | zero sign' => exact ⟨rfl, rfl⟩
      | finite sign' mantissa exponent pos =>
          exact ⟨rfl, rfl⟩

/- The operands of a finite product are finite. -/
theorem isFinite_of_mul
    {x y : Float32}
    (hFinite : (x * y).isFinite = true) :
    x.isFinite = true ∧ y.isFinite = true := by
  have hResult :
      (UnpackedFloat.mul Format.binary32 x.toModel.unpack
        y.toModel.unpack).isFinite = true :=
    isFinite_of_isFinite_pack hFinite
  change
    x.toModel.unpack.isFinite = true ∧
      y.toModel.unpack.isFinite = true
  generalize x.toModel.unpack = first at hResult ⊢
  generalize y.toModel.unpack = second at hResult ⊢
  cases first with
  | notANumber => cases hResult
  | infinity sign => cases second <;> cases hResult
  | zero sign =>
      cases second with
      | notANumber => cases hResult
      | infinity sign' => cases hResult
      | zero sign' => exact ⟨rfl, rfl⟩
      | finite sign' mantissa exponent pos =>
          exact ⟨rfl, rfl⟩
  | finite sign mantissa exponent pos =>
      cases second with
      | notANumber => cases hResult
      | infinity sign' => cases hResult
      | zero sign' => exact ⟨rfl, rfl⟩
      | finite sign' mantissa exponent pos =>
          exact ⟨rfl, rfl⟩

end Coverage

/- Both coordinates of a point are finite. -/
def Point.IsFinite
    (p : Point) : Prop :=
  p.x.isFinite = true ∧ p.y.isFinite = true

/- All coordinates of a triangle are finite. -/
def Triangle.IsFinite
    (t : Triangle) : Prop :=
  ∀ v ∈ t.vertices, v.point.IsFinite

/- The points of a finite signed area are finite. -/
theorem Coverage.isFinite_of_edge
    {a b p : Point}
    (hFinite : (edge a b p).isFinite = true) :
    a.IsFinite ∧ b.IsFinite ∧ p.IsFinite := by
  unfold edge at hFinite
  rcases isFinite_of_sub hFinite with ⟨hFirst, hSecond⟩
  rcases isFinite_of_mul hFirst with ⟨hPX, hBY⟩
  rcases isFinite_of_mul hSecond with ⟨hPY, hBX⟩
  rcases isFinite_of_sub hPX with ⟨hPX, hAX⟩
  rcases isFinite_of_sub hPY with ⟨hPY, hAY⟩
  exact ⟨⟨hAX, hAY⟩,
    ⟨(isFinite_of_sub hBX).1, (isFinite_of_sub hBY).1⟩,
    hPX, hPY⟩

namespace Triangle

------------------------------------------------------------
-- Covered Pixels
------------------------------------------------------------

/-
  Covered pixels are those of the triangle turned to a
  positive area, if it has a finite one.
-/
theorem hits_cases
    (t : Triangle)
    (scissor : Scissor) :
    t.hits scissor = [] ∨
      t.IsFinite ∧
        (t.hits scissor =
            Coverage.orientedHits t.a.point t.b.point
              t.c.point
              (Coverage.edge t.a.point t.b.point t.c.point)
              scissor.clipped ∨
          t.hits scissor =
            (Coverage.orientedHits t.a.point t.c.point
              t.b.point
              (-Coverage.edge t.a.point t.b.point
                t.c.point) scissor.clipped).map
              Hit.swap) := by
  unfold hits
  dsimp only
  split
  · exact Or.inl rfl
  · rename_i hArea
    rw [Bool.or_eq_true, not_or, Bool.not_eq_true,
      Bool.not_eq_true, Bool.not_eq_false'] at hArea
    have hPoints := Coverage.isFinite_of_edge hArea.2
    have hFinite : t.IsFinite :=
      forall_mem_vertices.mpr hPoints
    refine Or.inr ⟨hFinite, ?_⟩
    split
    · exact Or.inr rfl
    · exact Or.inl rfl

/- The covered pixels come row by row. -/
theorem pairwise_hits
    (t : Triangle)
    (scissor : Scissor) :
    (t.hits scissor).Pairwise Hit.Precedes := by
  rcases scissor.clipped_fits with ⟨hColumns, hRows⟩
  rcases t.hits_cases scissor with
    hNone | ⟨-, hSame | hTurned⟩
  · rw [hNone]
    exact List.Pairwise.nil
  · rw [hSame]
    exact Coverage.pairwise_orientedHits hColumns hRows _ _
      _ _
  · rw [hTurned, List.pairwise_map]
    exact Coverage.pairwise_orientedHits hColumns hRows _ _
      _ _

/- They lie in the scissor and in the draw area. -/
theorem contains_of_mem_hits
    {t : Triangle}
    {scissor : Scissor}
    {hit : Hit}
    (hMem : hit ∈ t.hits scissor) :
    scissor.clipped.contains hit.x hit.y = true := by
  rcases scissor.clipped_fits with ⟨hColumns, hRows⟩
  rcases t.hits_cases scissor with
    hNone | ⟨-, hSame | hTurned⟩
  · rw [hNone] at hMem
    cases hMem
  · rw [hSame,
      Coverage.mem_orientedHits hColumns hRows] at hMem
    exact hMem.1
  · rw [hTurned, List.mem_map] at hMem
    rcases hMem with ⟨turned, hMem, rfl⟩
    rw [Coverage.mem_orientedHits hColumns hRows] at hMem
    exact hMem.1

/- A scissor outside of the draw area shows no pixel. -/
theorem hits_of_isEmpty
    {t : Triangle}
    {scissor : Scissor}
    (hEmpty : scissor.clipped.isEmpty = true) :
    t.hits scissor = [] := by
  rw [List.eq_nil_iff_forall_not_mem]
  intro hit hMem
  have hInside := contains_of_mem_hits hMem
  rw [Scissor.contains_iff] at hInside
  unfold Scissor.isEmpty at hEmpty
  rw [Bool.or_eq_true, beq_iff_eq, beq_iff_eq] at hEmpty
  rcases hEmpty with hZero | hZero
  · rw [hZero, UInt32.toNat_zero] at hInside
    omega
  · rw [hZero, UInt32.toNat_zero] at hInside
    omega

/-
  Each pixel comes once and inside.  For any three vertices
  and any scissor, the covered pixels come in strictly
  increasing order, row by row, so no two of them are the
  same; all of them lie in the scissor and in the draw area.
  A vertex that is not finite, or a scissor outside of the
  draw area, leaves none.  No word wraps: clipping, the test
  of a pixel and the ends of the sides do not fail when each
  step is checked, and the ends of both loops are signed
  words.
-/
theorem hits_once_inside
    (t : Triangle)
    (scissor : Scissor) :
    let clip := scissor.clipped
    (t.hits scissor).Pairwise Hit.Precedes ∧
      ((t.hits scissor).map fun hit =>
        (hit.x, hit.y)).Nodup ∧
      (∀ hit ∈ t.hits scissor,
        scissor.contains hit.x hit.y = true ∧
          hit.x.toNat ≤ 1023 ∧ hit.y.toNat ≤ 1023) ∧
      (¬t.IsFinite → t.hits scissor = []) ∧
      (clip.isEmpty = true → t.hits scissor = []) ∧
      scissor.clippedChecked = some clip ∧
      (∀ x y,
        scissor.containsChecked x y =
          some (scissor.contains x y)) ∧
      (clip.isEmpty = false →
        (∃ last,
          Scissor.lastChecked clip.x clip.width =
              some last ∧
            last.toNat + 1 =
              clip.x.toNat + clip.width.toNat) ∧
        ∃ last,
          Scissor.lastChecked clip.y clip.height =
              some last ∧
            last.toNat + 1 =
              clip.y.toNat + clip.height.toNat) ∧
      ∀ low high : Float32,
        (∀ bound ∈
            [Coverage.first low clip.x,
              Coverage.first low clip.y,
              Coverage.last high clip.x clip.width,
              Coverage.last high clip.y clip.height],
          -2 ^ 31 ≤ bound ∧ bound < 2 ^ 31) := by
  intro clip
  have hColumns : Coverage.Fits clip.x clip.width :=
    scissor.clipped_fits.1
  have hRows : Coverage.Fits clip.y clip.height :=
    scissor.clipped_fits.2
  have hOrder := t.pairwise_hits scissor
  refine ⟨hOrder, ?_, ?_, ?_, hits_of_isEmpty,
    scissor.clippedChecked_eq, scissor.containsChecked_eq,
    ?_, ?_⟩
  · rw [List.Nodup, List.pairwise_map]
    apply hOrder.imp
    rintro hit other hPrecedes hSame
    rw [Prod.mk.injEq] at hSame
    rcases hPrecedes with hRow | ⟨-, hColumn⟩
    · rw [hSame.2] at hRow
      exact UInt32.lt_irrefl _ hRow
    · rw [hSame.1] at hColumn
      exact UInt32.lt_irrefl _ hColumn
  · intro hit hMem
    have hClipped := contains_of_mem_hits hMem
    rw [Scissor.contains_clipped_iff,
      UInt32.lt_iff_toNat_lt, UInt32.lt_iff_toNat_lt]
      at hClipped
    exact ⟨hClipped.1, Nat.le_of_lt_succ hClipped.2.1,
      Nat.le_of_lt_succ hClipped.2.2⟩
  · intro hInfinite
    rcases t.hits_cases scissor with hNone | ⟨hFinite, -⟩
    · exact hNone
    · exact absurd hFinite hInfinite
  · intro hShown
    unfold Scissor.isEmpty at hShown
    rw [Bool.or_eq_false_iff, beq_eq_false_iff_ne,
      beq_eq_false_iff_ne] at hShown
    exact ⟨Scissor.exists_lastChecked hColumns hShown.1,
      Scissor.exists_lastChecked hRows hShown.2⟩
  · intro low high bound hBound
    have hX := Coverage.bounds_of_extent low high hColumns
    have hY := Coverage.bounds_of_extent low high hRows
    simp only [List.mem_cons, List.not_mem_nil, or_false]
      at hBound
    rcases hBound with rfl | rfl | rfl | rfl <;> omega

/- A triangle with a vertex at infinity. -/
def endless : Triangle where
  a := { Vertex.zero with x := Binary32.infinity }
  b := { Vertex.zero with y := 8.0 }
  c := { Vertex.zero with x := 8.0 }

/- A scissor that would wrap, and one outside of the area. -/
def overlong : Scissor where
  x := 1020
  y := 0xFFFFFFFF
  width := 0xFFFFFFFF
  height := 2

/- A triangle in the first columns and rows. -/
def tilted : Triangle where
  a := Vertex.zero
  b := { Vertex.zero with x := 4.0 }
  c := { Vertex.zero with x := 1.0, y := 3.0 }

/- A scissor without the first column that would wrap. -/
def fromSecond : Scissor where
  x := 1
  y := 0
  width := 0xFFFFFFFF
  height := 8

/-
  The endless triangle and the overlong scissor show
  nothing; the tilted triangle shows its pixels once, row by
  row, and those behind the first column where the scissor
  leaves it out.
-/
theorem hits_once_inside_endless :
    ¬endless.IsFinite ∧ endless.hits {} = [] ∧
      overlong.clipped.isEmpty = true ∧
      endless.hits overlong = [] ∧
      overlong.clippedChecked = some overlong.clipped ∧
      ((tilted.hits {}).map fun hit => (hit.x, hit.y)) =
        [(0, 0), (1, 0), (2, 0), (0, 1), (1, 1)] ∧
      ((tilted.hits fromSecond).map fun hit =>
          (hit.x, hit.y)) =
        [(1, 0), (2, 0), (1, 1)] ∧
      ((tilted.hits fromSecond).map fun hit =>
        (hit.x, hit.y)).Nodup ∧
      ∀ hit ∈ tilted.hits fromSecond,
        fromSecond.contains hit.x hit.y = true ∧
          hit.x.toNat ≤ 1023 ∧ hit.y.toNat ≤ 1023 := by
  have hInfinite : ¬endless.IsFinite := by
    intro hFinite
    have hFirst :=
      hFinite endless.a (List.mem_cons_self ..)
    exact absurd hFirst.1 (by decide)
  have hEmpty : overlong.clipped.isEmpty = true := by
    decide
  refine ⟨hInfinite,
    (hits_once_inside endless {}).2.2.2.1 hInfinite, hEmpty,
    (hits_once_inside endless overlong).2.2.2.2.1 hEmpty,
    (hits_once_inside endless overlong).2.2.2.2.2.1,
    ?whole, ?cut,
    (hits_once_inside tilted fromSecond).2.1,
    (hits_once_inside tilted fromSecond).2.2.1⟩
  case whole => decide +kernel
  case cut => decide +kernel

end Triangle

end PagedRaster
