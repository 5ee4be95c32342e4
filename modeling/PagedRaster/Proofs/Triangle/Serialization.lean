import Mathlib.Data.List.Chain
import Mathlib.Data.List.Flatten
import PagedRaster.Triangle.Overlap

/-
  This file proves that cutting a triangle list at overlaps
  serializes it.  The ranges follow one another through the
  whole list, the triangles of one range do not overlap,
  and a range ends only where the next triangle overlaps
  one of its own.  So overlapping triangles come in
  different ranges, in the order of the list.

  Key definitions include:
    * `Overlap.Separate`, `Overlap.Forces`
    * `Overlap.Holds`
    * `Overlap.Overlapping`
    * `Overlap.Serializes`

  Key theorems include:
    * `Overlap.separate_of_mem_runs`
    * `Overlap.isChain_runs`
    * `Overlap.getElem?_runRanges`
    * `Overlap.split_serializes`
-/

namespace PagedRaster

/- Overlap does not depend on the order of the boxes. -/
theorem Bounds.overlaps_comm
    (box other : Bounds) :
    box.overlaps other = other.overlaps box := by
  simp only [overlaps, Bool.and_assoc, Bool.and_left_comm,
    Bool.and_comm]

------------------------------------------------------------
-- Numbered Triangles
------------------------------------------------------------

namespace Triangle

/- The triangle whose first vertex has a given place. -/
def startingAt?
    (vertices : List Vertex)
    (place : Nat) : Option Triangle :=
  (ofVertices (vertices.drop place)).head?

/- Every third vertex starts a triangle. -/
theorem startingAt?_mul
    (vertices : List Vertex)
    (i : Nat) :
    startingAt? vertices (3 * i) =
      (ofVertices vertices)[i]? := by
  induction i generalizing vertices with
  | zero =>
      exact List.head?_eq_getElem?
  | succ i ih =>
      match vertices with
      | [] => rfl
      | [_] => rfl
      | [_, _] => rfl
      | a :: b :: c :: rest =>
          exact ih rest

end Triangle

namespace Overlap

------------------------------------------------------------
-- Runs of Boxes
------------------------------------------------------------

/- Boxes that do not overlap each other. -/
def Separate
    (boxes : List Bounds) : Prop :=
  boxes.Pairwise fun box other =>
    box.overlaps other = false

/- The first box of a run overlaps one of the run before. -/
def Forces
    (run next : List Bounds) : Prop :=
  ∃ box ∈ next.head?, ∃ other ∈ run,
    other.overlaps box = true

/- A box joins separate boxes that it does not overlap. -/
theorem Separate.concat
    {boxes : List Bounds}
    {box : Bounds}
    (hBoxes : Separate boxes)
    (hBox :
      ¬(boxes.any fun other =>
        other.overlaps box) = true) :
    Separate (boxes ++ [box]) := by
  apply List.pairwise_append.mpr
  refine ⟨hBoxes, List.pairwise_singleton _ _, ?_⟩
  intro other hOther last hLast
  rw [List.mem_singleton.mp hLast]
  apply Bool.eq_false_iff.mpr
  intro hOverlaps
  exact hBox
    (List.any_eq_true.mpr ⟨other, hOther, hOverlaps⟩)

/- No run is empty. -/
theorem ne_nil_of_mem_runs
    {openRun boxes run : List Bounds}
    (hRun : run ∈ runs openRun boxes) :
    run ≠ [] := by
  induction boxes generalizing openRun with
  | nil =>
      cases openRun with
      | nil => simp [runs] at hRun
      | cons box rest =>
          have hSelf : run = box :: rest := by
            simpa [runs] using hRun
          rw [hSelf]
          exact List.cons_ne_nil box rest
  | cons box rest ih =>
      by_cases hCut :
          openRun.any fun other => other.overlaps box
      · rw [runs, if_pos hCut] at hRun
        rcases List.mem_cons.mp hRun with hOpen | hLater
        · intro hNil
          rw [← hOpen, hNil] at hCut
          simp at hCut
        · exact ih hLater
      · rw [runs, if_neg hCut] at hRun
        exact ih hRun

/- The boxes of a run do not overlap. -/
theorem separate_of_mem_runs
    {openRun boxes run : List Bounds}
    (hOpen : Separate openRun)
    (hRun : run ∈ runs openRun boxes) :
    Separate run := by
  -- The invariant of the cut: the open run stays separate.
  induction boxes generalizing openRun with
  | nil =>
      cases openRun with
      | nil => simp [runs] at hRun
      | cons box rest =>
          have hSelf : run = box :: rest := by
            simpa [runs] using hRun
          rw [hSelf]
          exact hOpen
  | cons box rest ih =>
      by_cases hCut :
          openRun.any fun other => other.overlaps box
      · rw [runs, if_pos hCut] at hRun
        rcases List.mem_cons.mp hRun with hFirst | hLater
        · rw [hFirst]
          exact hOpen
        · exact ih (List.pairwise_singleton _ box) hLater
      · rw [runs, if_neg hCut] at hRun
        exact ih (hOpen.concat hCut) hRun

/- The open run is the beginning of the first run. -/
theorem runs_cons_eq
    (box : Bounds)
    (openRun boxes : List Bounds) :
    ∃ more later,
      runs (box :: openRun) boxes =
        (box :: (openRun ++ more)) :: later := by
  induction boxes generalizing openRun with
  | nil =>
      refine ⟨[], [], ?_⟩
      simp [runs]
  | cons next rest ih =>
      by_cases hCut :
          (box :: openRun).any fun other =>
            other.overlaps next
      · refine ⟨[], runs [next] rest, ?_⟩
        rw [runs, if_pos hCut, List.append_nil]
      · rcases ih (openRun ++ [next]) with
          ⟨more, later, hRuns⟩
        refine ⟨next :: more, later, ?_⟩
        rw [runs, if_neg hCut, List.cons_append, hRuns,
          List.append_assoc, List.singleton_append]

/- A run ends only where an overlap forces it. -/
theorem isChain_runs
    (openRun boxes : List Bounds) :
    (runs openRun boxes).IsChain Forces := by
  induction boxes generalizing openRun with
  | nil =>
      cases openRun with
      | nil => exact List.IsChain.nil
      | cons box rest => exact List.IsChain.singleton _
  | cons box rest ih =>
      by_cases hCut :
          openRun.any fun other => other.overlaps box
      · rw [runs, if_pos hCut]
        -- The run after the cut begins with the box itself.
        have hLater := ih [box]
        rcases runs_cons_eq box [] rest with
          ⟨more, later, hRuns⟩
        rw [hRuns] at hLater ⊢
        rcases List.any_eq_true.mp hCut with
          ⟨other, hOther, hOverlaps⟩
        exact List.IsChain.cons_cons
          ⟨box, rfl, other, hOther, hOverlaps⟩ hLater
      · rw [runs, if_neg hCut]
        exact ih (openRun ++ [box])

------------------------------------------------------------
-- Ranges of Runs
------------------------------------------------------------

/- The number of boxes in the runs before a run. -/
def boxesBefore
    (groups : List (List Bounds))
    (k : Nat) : Nat :=
  (groups.take k).flatten.length

/- The vertex range of a run. -/
def runRange
    (groups : List (List Bounds))
    (k : Nat)
    (run : List Bounds) : Nat × Nat :=
  (3 * boxesBefore groups k,
    3 * boxesBefore groups k + 3 * run.length)

/- The vertex ranges of runs. -/
def runRanges
    (groups : List (List Bounds)) : List (Nat × Nat) :=
  ranges 0 (groups.map fun run => 3 * run.length)

/- The first run has no boxes before it. -/
@[simp]
theorem boxesBefore_zero
    (groups : List (List Bounds)) :
    boxesBefore groups 0 = 0 :=
  rfl

/- The boxes of the first run come before all other runs. -/
theorem boxesBefore_cons
    (run : List Bounds)
    (rest : List (List Bounds))
    (k : Nat) :
    boxesBefore (run :: rest) (k + 1) =
      run.length + boxesBefore rest k := by
  simp [boxesBefore]

section Runs

variable {groups : List (List Bounds)}
variable {k l : Nat}
variable {run next : List Bounds}

/- The boxes before the next run. -/
theorem boxesBefore_succ
    (hRun : groups[k]? = some run) :
    boxesBefore groups (k + 1) =
      boxesBefore groups k + run.length := by
  simp [boxesBefore, List.take_add_one, hRun]

/- A run lies before all later runs. -/
theorem boxesBefore_add_le
    (hRun : groups[k]? = some run)
    (hOrder : k < l) :
    boxesBefore groups k + run.length ≤
      boxesBefore groups l := by
  rw [← boxesBefore_succ hRun]
  exact
    (List.take_sublist_take_left hOrder).flatten.length_le

/- A run lies before the end of all boxes. -/
theorem boxesBefore_add_le_length
    (hRun : groups[k]? = some run) :
    boxesBefore groups k + run.length ≤
      groups.flatten.length := by
  rw [← boxesBefore_succ hRun]
  exact (List.take_sublist (k + 1) groups).flatten.length_le

/- A box of a run, counted from the first run on. -/
theorem getElem?_flatten_of_run
    (hRun : groups[k]? = some run)
    {j : Nat}
    (hj : j < run.length) :
    groups.flatten[boxesBefore groups k + j]? =
      some run[j] := by
  rcases List.getElem?_eq_some_iff.mp hRun with
    ⟨hLt, hGet⟩
  have hParts :
      groups.flatten =
        (groups.take k).flatten ++
          (run ++ (groups.drop (k + 1)).flatten) := by
    rw [← List.flatten_cons, ← hGet,
      ← List.drop_eq_getElem_cons hLt,
      ← List.flatten_append, List.take_append_drop]
  rw [hParts, boxesBefore,
    List.getElem?_append_right (by omega),
    Nat.add_sub_cancel_left,
    List.getElem?_append_left hj,
    List.getElem?_eq_getElem hj]

/- Every box lies in a run. -/
theorem exists_run
    {i : Nat}
    (hi : i < groups.flatten.length) :
    ∃ k run,
      groups[k]? = some run ∧
        boxesBefore groups k ≤ i ∧
        i < boxesBefore groups k + run.length := by
  induction groups generalizing i with
  | nil => simp at hi
  | cons first rest ih =>
      by_cases hFirst : i < first.length
      · refine ⟨0, first, rfl, ?_, ?_⟩
        · exact Nat.zero_le i
        · rw [boxesBefore_zero, Nat.zero_add]
          exact hFirst
      · rw [List.flatten_cons, List.length_append] at hi
        have hRest :
            i - first.length < rest.flatten.length := by
          omega
        rcases ih hRest with ⟨k, run, hRun, hFrom, hTo⟩
        refine ⟨k + 1, run, hRun, ?_, ?_⟩
        · rw [boxesBefore_cons]
          omega
        · rw [boxesBefore_cons]
          omega

/- The ranges of runs start after the runs before them. -/
theorem getElem?_ranges
    (start : Nat)
    (groups : List (List Bounds))
    (k : Nat) :
    (ranges start
        (groups.map fun run => 3 * run.length))[k]? =
      groups[k]?.map fun run =>
        (start + (runRange groups k run).1,
          start + (runRange groups k run).2) := by
  induction groups generalizing start k with
  | nil => rfl
  | cons first rest ih =>
      cases k with
      | zero =>
          simp [ranges, runRange]
      | succ k =>
          simp only [List.map_cons, ranges,
            List.getElem?_cons_succ, ih, runRange,
            boxesBefore_cons, Nat.mul_add, Nat.add_assoc]

/- The ranges of runs are listed in their order. -/
theorem getElem?_runRanges
    (groups : List (List Bounds))
    (k : Nat) :
    (runRanges groups)[k]? =
      groups[k]?.map (runRange groups k) := by
  rw [runRanges, getElem?_ranges]
  simp only [Nat.zero_add]

/- The range of a run is listed. -/
theorem mem_runRanges
    (hRun : groups[k]? = some run) :
    runRange groups k run ∈ runRanges groups := by
  have hRange := getElem?_runRanges groups k
  rw [hRun] at hRange
  exact List.mem_of_getElem? hRange

/- A listed range is the range of a run. -/
theorem exists_run_of_range
    {range : Nat × Nat}
    (hRange : (runRanges groups)[k]? = some range) :
    ∃ run,
      groups[k]? = some run ∧
        runRange groups k run = range := by
  rw [getElem?_runRanges] at hRange
  exact Option.map_eq_some_iff.mp hRange

/- What holds of the ranges of adjacent runs. -/
theorem isChain_runRanges
    {R : Nat × Nat → Nat × Nat → Prop}
    (hRuns :
      ∀ k run next,
        groups[k]? = some run →
          groups[k + 1]? = some next →
            R (runRange groups k run)
              (runRange groups (k + 1) next)) :
    (runRanges groups).IsChain R := by
  apply List.isChain_iff_getElem.mpr
  intro k hk
  rcases exists_run_of_range
      (List.getElem?_eq_getElem (Nat.lt_of_succ_lt hk))
    with ⟨run, hRun, hRange⟩
  rcases exists_run_of_range
      (List.getElem?_eq_getElem hk) with
    ⟨next, hNext, hNextRange⟩
  rw [← hRange, ← hNextRange]
  exact hRuns k run next hRun hNext

/- The last run ends with the last box. -/
theorem range_getLast?
    {range : Nat × Nat}
    (hRange : (runRanges groups).getLast? = some range) :
    range.2 = 3 * groups.flatten.length := by
  rw [List.getLast?_eq_getElem?] at hRange
  rcases exists_run_of_range hRange with
    ⟨run, hRun, hSelf⟩
  have hEnd :
      groups.length ≤
        (runRanges groups).length - 1 + 1 := by
    apply List.getElem?_eq_none_iff.mp
    apply Option.map_eq_none_iff.mp
    rw [← getElem?_runRanges]
    apply List.getElem?_eq_none
    omega
  have hAll := boxesBefore_succ hRun
  rw [boxesBefore, List.take_of_length_le hEnd] at hAll
  rw [← hSelf, runRange, hAll, Nat.mul_add]

end Runs

------------------------------------------------------------
-- Serialized Triangles
------------------------------------------------------------

/- A range of vertices holds a whole numbered triangle. -/
def Holds
    (range : Nat × Nat)
    (i : Nat) : Prop :=
  range.1 ≤ 3 * i ∧ 3 * i + 3 ≤ range.2

/- The bounding boxes of two numbered triangles overlap. -/
def Overlapping
    (vertices : List Vertex)
    (i j : Nat) : Prop :=
  ∃ t ∈ Triangle.startingAt? vertices (3 * i),
    ∃ u ∈ Triangle.startingAt? vertices (3 * j),
      (Bounds.ofTriangle t).overlaps
        (Bounds.ofTriangle u) = true

/-
  Ranges that serialize a triangle list.  They are whole
  triangles, follow one another from the first vertex to
  the last one, and their bounds are 32-bit words.  No two
  triangles of a range overlap, in either order; the first
  triangle of the next range overlaps one of the range.  So
  every triangle has a range, and of two that overlap the
  earlier one has the earlier range.
-/
structure Serializes
    (vertices : List Vertex)
    (ranges : List (Nat × Nat)) : Prop where
  whole :
    ∀ range ∈ ranges,
      range.1 < range.2 ∧ range.1 % 3 = 0 ∧
        (range.2 - range.1) % 3 = 0
  words :
    ∀ range ∈ ranges, range.2 < 4294967296
  none_iff :
    ranges = [] ↔ vertices = []
  first :
    ∀ range ∈ ranges.head?, range.1 = 0
  next :
    ranges.IsChain fun range next => next.1 = range.2
  last :
    ∀ range ∈ ranges.getLast?, range.2 = vertices.length
  separate :
    ∀ range ∈ ranges, ∀ i j : Nat,
      i ≠ j → Holds range i → Holds range j →
        ¬Overlapping vertices i j
  forced :
    ranges.IsChain fun range next =>
      ∃ i, Holds range i ∧
        Overlapping vertices i (next.1 / 3)
  held :
    ∀ i, 3 * i < vertices.length →
      ∃ range ∈ ranges, Holds range i
  ordered :
    ∀ i j : Nat, i < j → Overlapping vertices i j →
      ∀ (k l : Nat) (range other : Nat × Nat),
        ranges[k]? = some range → Holds range i →
          ranges[l]? = some other → Holds other j →
            k < l

/- Overlap does not depend on the order of triangles. -/
theorem Overlapping.symm
    {vertices : List Vertex}
    {i j : Nat}
    (hOverlap : Overlapping vertices i j) :
    Overlapping vertices j i := by
  rcases hOverlap with ⟨t, ht, u, hu, hBoxes⟩
  rw [Bounds.overlaps_comm] at hBoxes
  exact ⟨u, hu, t, ht, hBoxes⟩

/- The bounding boxes of the triangles of a list. -/
def boxes
    (vertices : List Vertex) : List Bounds :=
  (Triangle.ofVertices vertices).map Bounds.ofTriangle

/- The runs of a triangle list. -/
def triangleRuns
    (vertices : List Vertex) : List (List Bounds) :=
  runs [] (boxes vertices)

/- Triangles overlap by their numbered boxes. -/
theorem overlapping_iff
    {vertices : List Vertex}
    {i j : Nat} :
    Overlapping vertices i j ↔
      ∃ box ∈ (boxes vertices)[i]?,
        ∃ other ∈ (boxes vertices)[j]?,
          box.overlaps other = true := by
  simp [Overlapping, boxes, Triangle.startingAt?_mul,
    Option.mem_def]

/- The runs of a triangle list hold its boxes. -/
theorem flatten_triangleRuns
    (vertices : List Vertex) :
    (triangleRuns vertices).flatten = boxes vertices :=
  flatten_runs [] (boxes vertices)

/- Whole triangles have three vertices a box. -/
theorem three_mul_length_boxes
    {vertices : List Vertex}
    (hWhole : vertices.length % 3 = 0) :
    3 * (boxes vertices).length = vertices.length := by
  rw [boxes, List.length_map, Triangle.length_ofVertices]
  omega

/- A whole triangle list is cut into the ranges of runs. -/
theorem split_eq
    {vertices : List Vertex}
    (hWhole : vertices.length % 3 = 0) :
    split vertices =
      .ok (runRanges (triangleRuns vertices)) := by
  rw [split, if_pos hWhole]
  rfl

/- The ranges of a triangle list lie in the list. -/
theorem bounds_of_split
    {vertices : List Vertex}
    {ranges : List (Nat × Nat)}
    (hSplit : split vertices = .ok ranges) :
    ∀ range ∈ ranges,
      range.1 ≤ range.2 ∧ range.2 ≤ vertices.length := by
  have hWhole : vertices.length % 3 = 0 := by
    by_cases hWhole : vertices.length % 3 = 0
    · exact hWhole
    · rw [split, if_neg hWhole] at hSplit
      cases hSplit
  rw [split_eq hWhole] at hSplit
  cases hSplit
  intro range hMem
  rcases List.getElem?_of_mem hMem with ⟨k, hRange⟩
  rcases exists_run_of_range hRange with ⟨run, hRun, rfl⟩
  have hEnd := boxesBefore_add_le_length hRun
  have hLength := three_mul_length_boxes hWhole
  rw [flatten_triangleRuns] at hEnd
  simp only [runRange]
  omega

section Triangles

variable {vertices : List Vertex}
variable {k l : Nat}
variable {run next : List Bounds}

/- A run of triangles is not empty. -/
theorem length_run_pos
    (hRun : (triangleRuns vertices)[k]? = some run) :
    0 < run.length :=
  List.length_pos_iff.mpr
    (ne_nil_of_mem_runs (List.mem_of_getElem? hRun))

/- The box of a triangle in a run. -/
theorem getElem?_boxes
    (hRun : (triangleRuns vertices)[k]? = some run)
    {j : Nat}
    (hj : j < run.length) :
    (boxes vertices)[
        boxesBefore (triangleRuns vertices) k + j]? =
      some run[j] := by
  rw [← flatten_triangleRuns]
  exact getElem?_flatten_of_run hRun hj

/- A triangle that a range holds has a place in its run. -/
theorem place_of_holds
    {groups : List (List Bounds)}
    {i : Nat}
    (hHolds : Holds (runRange groups k run) i) :
    ∃ j < run.length, i = boxesBefore groups k + j := by
  have hFrom :
      3 * boxesBefore groups k ≤ 3 * i :=
    hHolds.1
  have hTo :
      3 * i + 3 ≤
        3 * boxesBefore groups k + 3 * run.length :=
    hHolds.2
  exact ⟨i - boxesBefore groups k, by omega, by omega⟩

/- Triangles of one run do not overlap. -/
theorem not_overlapping_of_run
    (hRun : (triangleRuns vertices)[k]? = some run)
    {i j : Nat}
    (hOrder : i < j)
    (hi : Holds (runRange (triangleRuns vertices) k run) i)
    (hj :
      Holds (runRange (triangleRuns vertices) k run) j) :
    ¬Overlapping vertices i j := by
  have hSeparate : Separate run :=
    separate_of_mem_runs List.Pairwise.nil
      (List.mem_of_getElem? hRun)
  rcases place_of_holds hi with ⟨first, hFirst, rfl⟩
  rcases place_of_holds hj with ⟨second, hSecond, rfl⟩
  have hApart :=
    List.pairwise_iff_getElem.mp hSeparate first second
      hFirst hSecond (by omega)
  rw [overlapping_iff, getElem?_boxes hRun hFirst,
    getElem?_boxes hRun hSecond]
  rintro ⟨box, hBox, other, hOther, hOverlaps⟩
  rw [← Option.some.inj hBox, ← Option.some.inj hOther,
    hApart] at hOverlaps
  exact Bool.false_ne_true hOverlaps

/- The end of a run is forced by the next one. -/
theorem forces_of_runs
    (hRun : (triangleRuns vertices)[k]? = some run)
    (hNext : (triangleRuns vertices)[k + 1]? = some next) :
    Forces run next := by
  rcases List.getElem?_eq_some_iff.mp hRun with ⟨_, rfl⟩
  rcases List.getElem?_eq_some_iff.mp hNext with
    ⟨hLast, rfl⟩
  exact
    List.isChain_iff_getElem.mp
      (isChain_runs [] (boxes vertices)) k hLast

/- The first triangle of a run overlaps one before it. -/
theorem overlapping_of_runs
    (hRun : (triangleRuns vertices)[k]? = some run)
    (hNext : (triangleRuns vertices)[k + 1]? = some next) :
    ∃ i,
      Holds (runRange (triangleRuns vertices) k run) i ∧
        Overlapping vertices i
          (boxesBefore (triangleRuns vertices)
            (k + 1)) := by
  rcases forces_of_runs hRun hNext with
    ⟨box, hBox, other, hOther, hOverlaps⟩
  rcases List.getElem_of_mem hOther with ⟨j, hj, hSelf⟩
  have hFirst := getElem?_boxes hNext (length_run_pos hNext)
  refine
    ⟨boxesBefore (triangleRuns vertices) k + j, ?_, ?_⟩
  · constructor
    · simp only [runRange]
      omega
    · simp only [runRange]
      omega
  · apply overlapping_iff.mpr
    refine ⟨other, ?_, box, ?_, hOverlaps⟩
    · rw [getElem?_boxes hRun hj, hSelf]
      rfl
    · rw [Option.mem_def, List.head?_eq_getElem?,
        List.getElem?_eq_getElem (length_run_pos hNext)]
        at hBox
      exact hFirst.trans hBox

/- Of two triangles in two runs, the earlier comes first. -/
theorem not_lt_of_runs
    (hNext : (triangleRuns vertices)[l]? = some next)
    {i j : Nat}
    (hOrder : i < j)
    (hi : Holds (runRange (triangleRuns vertices) k run) i)
    (hj :
      Holds (runRange (triangleRuns vertices) l next) j) :
    ¬l < k := by
  rcases place_of_holds hi with ⟨first, hFirst, rfl⟩
  rcases place_of_holds hj with ⟨second, hSecond, rfl⟩
  intro hBack
  have hBefore := boxesBefore_add_le hNext hBack
  omega

end Triangles

/- The ranges of the runs serialize a triangle list. -/
theorem serializes_runRanges
    {vertices : List Vertex}
    (hWhole : vertices.length % 3 = 0)
    (hWords : vertices.length < 4294967296) :
    Serializes vertices
      (runRanges (triangleRuns vertices)) where
  whole := by
    intro range hMem
    rcases List.getElem?_of_mem hMem with ⟨k, hRange⟩
    rcases exists_run_of_range hRange with
      ⟨run, hRun, rfl⟩
    have hPos := length_run_pos hRun
    simp only [runRange]
    omega
  words := by
    intro range hMem
    rcases List.getElem?_of_mem hMem with ⟨k, hRange⟩
    rcases exists_run_of_range hRange with
      ⟨run, hRun, rfl⟩
    have hEnd := boxesBefore_add_le_length hRun
    have hLength := three_mul_length_boxes hWhole
    rw [flatten_triangleRuns] at hEnd
    simp only [runRange]
    omega
  none_iff := by
    constructor
    · intro hNone
      have hLength := three_mul_length_boxes hWhole
      apply List.length_eq_zero_iff.mp
      apply Nat.eq_zero_of_not_pos
      intro hPos
      have hBoxes :
          0 < (triangleRuns vertices).flatten.length := by
        rw [flatten_triangleRuns]
        omega
      rcases exists_run hBoxes with ⟨k, run, hRun, _⟩
      have hListed := mem_runRanges hRun
      rw [hNone] at hListed
      exact List.not_mem_nil hListed
    · rintro rfl
      rfl
  first := by
    intro range hFirst
    rw [List.head?_eq_getElem?] at hFirst
    rcases exists_run_of_range hFirst with ⟨run, _, rfl⟩
    rfl
  next := by
    apply isChain_runRanges
    intro k run next hRun _
    simp only [runRange, boxesBefore_succ hRun, Nat.mul_add]
  last := by
    intro range hLast
    rw [range_getLast? hLast, flatten_triangleRuns,
      three_mul_length_boxes hWhole]
  separate := by
    intro range hMem i j hOther hi hj
    rcases List.getElem?_of_mem hMem with ⟨k, hRange⟩
    rcases exists_run_of_range hRange with
      ⟨run, hRun, rfl⟩
    rcases Nat.lt_or_gt_of_ne hOther with hLess | hMore
    · exact not_overlapping_of_run hRun hLess hi hj
    · intro hOverlap
      exact not_overlapping_of_run hRun hMore hj hi
        hOverlap.symm
  forced := by
    apply isChain_runRanges
    intro k run next hRun hNext
    rcases overlapping_of_runs hRun hNext with
      ⟨i, hHolds, hOverlap⟩
    refine ⟨i, hHolds, ?_⟩
    rw [runRange, Nat.mul_div_cancel_left _ (by decide)]
    exact hOverlap
  held := by
    intro i hi
    have hBoxes :
        i < (triangleRuns vertices).flatten.length := by
      have hLength := three_mul_length_boxes hWhole
      rw [flatten_triangleRuns]
      omega
    rcases exists_run hBoxes with
      ⟨k, run, hRun, hFrom, hTo⟩
    refine
      ⟨runRange (triangleRuns vertices) k run,
        mem_runRanges hRun, ?_⟩
    · constructor
      · simp only [runRange]
        omega
      · simp only [runRange]
        omega
  ordered := by
    intro i j hOrder hOverlap k l range other hRange hi
      hOtherRange hj
    rcases exists_run_of_range hRange with
      ⟨run, hRun, rfl⟩
    rcases exists_run_of_range hOtherRange with
      ⟨next, hNext, rfl⟩
    have hNotBack := not_lt_of_runs hNext hOrder hi hj
    -- What is left is that both lie in one run.
    apply Nat.lt_of_le_of_ne (Nat.le_of_not_lt hNotBack)
    rintro rfl
    have hSame : run = next := by
      rw [hRun] at hNext
      exact Option.some.inj hNext
    rw [← hSame] at hj
    exact not_overlapping_of_run hRun hOrder hi hj hOverlap

/-
  Cutting at overlaps serializes a list of whole triangles.
-/
theorem split_serializes
    (vertices : List Vertex)
    (hWhole : vertices.length % 3 = 0)
    (hWords : vertices.length < 4294967296) :
    ∃ ranges,
      split vertices = .ok ranges ∧
        Serializes vertices ranges :=
  ⟨runRanges (triangleRuns vertices), split_eq hWhole,
    serializes_runRanges hWhole hWords⟩

/- The vertices of a right-angled triangle. -/
def corner
    (x y size : Float32) : List Vertex :=
  [Vertex.solid x y 0 255 255 255 255,
    Vertex.solid (x + size) y 0 255 255 255 255,
    Vertex.solid x (y + size) 0 255 255 255 255]

/-
  Triangles of which the third overlaps the first, the
  fourth has no place, the fifth has no end, the sixth
  touches the third and the last overlaps the fifth.
-/
def crowd : List Vertex :=
  corner 0.0 0.0 10.0 ++ corner 20.0 0.0 10.0 ++
    corner 5.0 5.0 10.0 ++
    corner (0.0 / 0.0) (0.0 / 0.0) 1.0 ++
    corner 40.0 40.0 Binary32.infinity ++
    corner 15.0 5.0 2.0 ++ corner 41.0 60.0 1.0

/- Three ranges serialize these triangles. -/
theorem split_serializes_crowd :
    crowd.length % 3 = 0 ∧
      crowd.length < 4294967296 ∧
      split crowd = .ok [(0, 6), (6, 15), (15, 21)] ∧
      Serializes crowd [(0, 6), (6, 15), (15, 21)] := by
  have hWhole : crowd.length % 3 = 0 := by decide
  have hWords : crowd.length < 4294967296 := by decide
  have hSplit :
      split crowd = .ok [(0, 6), (6, 15), (15, 21)] := rfl
  rcases split_serializes crowd hWhole hWords with
    ⟨ranges, hRanges, hSerializes⟩
  rw [hSplit] at hRanges
  cases hRanges
  exact ⟨hWhole, hWords, hSplit, hSerializes⟩

end Overlap

end PagedRaster
