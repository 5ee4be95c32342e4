import Mathlib.Order.Bounds.Basic
import PagedRaster.Proofs.Triangle.Serialization

/-
  This file proves that cutting a triangle list at overlaps
  makes as few runs as possible.  Any other way to cut the
  list into groups without overlaps ends its groups no
  later than the runs end, so it needs as many of them.

  Key definitions include:
    * `Overlap.Grouping`

  Key theorems include:
    * `Overlap.runs_append`
    * `Overlap.length_runs_le`
    * `Overlap.exists_grouping`
    * `Overlap.split_fewest`
-/

namespace PagedRaster

namespace Overlap

------------------------------------------------------------
-- Runs Behind a Cut
------------------------------------------------------------

/- An open run takes all boxes that stay separate from it. -/
theorem runs_append
    {openRun group : List Bounds}
    (hSeparate : Separate (openRun ++ group))
    (boxes : List Bounds) :
    runs openRun (group ++ boxes) =
      runs (openRun ++ group) boxes := by
  induction group generalizing openRun with
  | nil => rw [List.nil_append, List.append_nil]
  | cons box rest ih =>
      have hApart :
          ¬(openRun.any fun other =>
            other.overlaps box) = true := by
        intro hCut
        rcases List.any_eq_true.mp hCut with
          ⟨other, hOther, hOverlaps⟩
        have hFalse :=
          (List.pairwise_append.mp hSeparate).2.2 other
            hOther box List.mem_cons_self
        rw [hOverlaps] at hFalse
        cases hFalse
      have hParts :
          openRun ++ box :: rest =
            (openRun ++ [box]) ++ rest := by
        rw [List.append_assoc, List.singleton_append]
      rw [hParts] at hSeparate ⊢
      rw [List.cons_append, runs, if_neg hApart]
      exact ih hSeparate

/- The runs after the open one are those of later boxes. -/
theorem exists_length_runs_eq
    {openRun : List Bounds}
    (hOpen : openRun ≠ [])
    (boxes : List Bounds) :
    ∃ later,
      later <:+ boxes ∧
        (runs openRun boxes).length =
          (runs [] later).length + 1 := by
  induction boxes generalizing openRun with
  | nil =>
      refine ⟨[], List.suffix_refl [], ?_⟩
      simp [runs, hOpen]
  | cons box rest ih =>
      by_cases hCut :
          openRun.any fun other => other.overlaps box
      · refine ⟨box :: rest, List.suffix_refl _, ?_⟩
        rw [runs, if_pos hCut, List.length_cons]
        simp [runs]
      · rcases ih (List.append_ne_nil_of_right_ne_nil
            openRun (List.cons_ne_nil box [])) with
          ⟨later, hLater, hLength⟩
        refine
          ⟨later, hLater.trans (List.suffix_cons box rest),
            ?_⟩
        rw [runs, if_neg hCut, hLength]

/-
  Runs are no more than separate groups that hold the same
  boxes, even if the groups hold other boxes before them.
-/
theorem length_runs_le
    {groups : List (List Bounds)}
    {boxes : List Bounds}
    (hBoxes : boxes <:+ groups.flatten)
    (hGroups : ∀ group ∈ groups, Separate group) :
    (runs [] boxes).length ≤ groups.length := by
  -- The first run reaches as far as the first group, so the
  -- boxes behind it lie in the other groups.
  induction groups generalizing boxes with
  | nil =>
      have hNone : boxes = [] := List.suffix_nil.mp hBoxes
      rw [hNone]
      exact Nat.le_refl 0
  | cons group rest ih =>
      have hRest : ∀ other ∈ rest, Separate other :=
        fun other hOther =>
          hGroups other (List.mem_cons_of_mem group hOther)
      rcases hBoxes with ⟨front, hFront⟩
      rw [List.flatten_cons] at hFront
      rcases List.append_eq_append_iff.mp hFront with
        ⟨behind, hGroup, rfl⟩ | ⟨skipped, -, hSkipped⟩
      · by_cases hOpen : behind = []
        · have hLater := ih (List.suffix_refl _) hRest
          rw [hOpen, List.nil_append, List.length_cons]
          exact Nat.le_succ_of_le hLater
        · have hSeparate : Separate ([] ++ behind) := by
            have hWhole :=
              hGroups group List.mem_cons_self
            rw [hGroup] at hWhole
            exact (List.pairwise_append.mp hWhole).2.1
          rcases exists_length_runs_eq hOpen rest.flatten
            with ⟨later, hLater, hLength⟩
          have hFewer := ih hLater hRest
          rw [runs_append hSeparate, List.nil_append,
            hLength, List.length_cons]
          exact Nat.succ_le_succ hFewer
      · have hLater := ih ⟨skipped, hSkipped.symm⟩ hRest
        rw [List.length_cons]
        exact Nat.le_succ_of_le hLater

------------------------------------------------------------
-- Groups of Triangles
------------------------------------------------------------

/-
  Consecutive groups that triangles are cut into.  The
  bounding boxes of the triangles of a group do not overlap.
-/
structure Grouping
    (triangles : List Triangle)
    (groups : List (List Triangle)) : Prop where
  whole : groups.flatten = triangles
  separate :
    ∀ group ∈ groups,
      group.Pairwise fun t u =>
        (Bounds.ofTriangle t).overlaps
          (Bounds.ofTriangle u) = false

/- The boxes of a group are separate. -/
theorem Grouping.separate_boxes
    {triangles : List Triangle}
    {groups : List (List Triangle)}
    (hGrouping : Grouping triangles groups) :
    ∀ run ∈ groups.map (List.map Bounds.ofTriangle),
      Separate run := by
  intro run hRun
  rcases List.mem_map.mp hRun with ⟨group, hGroup, rfl⟩
  exact List.pairwise_map.mpr
    (hGrouping.separate group hGroup)

/- Groups of images are the images of groups. -/
theorem exists_groups_of_map
    {α β : Type}
    {f : α → β}
    {items : List α}
    {images : List (List β)}
    (hImages : images.flatten = items.map f) :
    ∃ groups : List (List α),
      groups.flatten = items ∧
        groups.map (List.map f) = images := by
  induction images generalizing items with
  | nil =>
      have hNone : items = [] :=
        List.map_eq_nil_iff.mp hImages.symm
      exact ⟨[], hNone.symm, rfl⟩
  | cons first rest ih =>
      rw [List.flatten_cons] at hImages
      rcases List.map_eq_append_iff.mp hImages.symm with
        ⟨front, others, rfl, hFront, hOthers⟩
      rcases ih hOthers.symm with ⟨groups, hWhole, hMap⟩
      refine ⟨front :: groups, ?_, ?_⟩
      · rw [List.flatten_cons, hWhole]
      · rw [List.map_cons, hFront, hMap]

/- The runs of a triangle list group its triangles. -/
theorem exists_grouping
    (vertices : List Vertex) :
    ∃ groups,
      Grouping (Triangle.ofVertices vertices) groups ∧
        groups.length = (triangleRuns vertices).length := by
  rcases exists_groups_of_map
      (flatten_triangleRuns vertices) with
    ⟨groups, hWhole, hRuns⟩
  refine ⟨groups, ⟨hWhole, ?_⟩, ?_⟩
  · intro group hGroup
    have hRun :
        group.map Bounds.ofTriangle ∈
          triangleRuns vertices := by
      rw [← hRuns]
      exact List.mem_map_of_mem hGroup
    exact List.pairwise_map.mp
      (separate_of_mem_runs List.Pairwise.nil hRun)
  · rw [← hRuns, List.length_map]

/- There is one range for each run. -/
theorem length_ranges
    (start : Nat)
    (sizes : List Nat) :
    (ranges start sizes).length = sizes.length := by
  induction sizes generalizing start with
  | nil => rfl
  | cons size rest ih =>
      rw [ranges, List.length_cons, ih, List.length_cons]

/-
  A list of whole triangles is cut into as few ranges as
  any grouping of its triangles has groups.
-/
theorem split_fewest
    (vertices : List Vertex)
    (hWhole : vertices.length % 3 = 0) :
    ∃ ranges,
      split vertices = .ok ranges ∧
        IsLeast
          {passes |
            ∃ groups,
              Grouping (Triangle.ofVertices vertices)
                  groups ∧
                groups.length = passes}
          ranges.length := by
  have hLength :
      (runRanges (triangleRuns vertices)).length =
        (triangleRuns vertices).length := by
    rw [runRanges, length_ranges, List.length_map]
  refine
    ⟨runRanges (triangleRuns vertices), split_eq hWhole,
      ?_⟩
  rw [hLength]
  constructor
  · exact exists_grouping vertices
  · rintro passes ⟨groups, hGrouping, rfl⟩
    have hBoxes :
        (groups.map (List.map Bounds.ofTriangle)).flatten =
          boxes vertices :=
      List.map_flatten.symm.trans
        (congrArg (List.map Bounds.ofTriangle)
          hGrouping.whole)
    have hAll :
        boxes vertices <:+
          (groups.map
            (List.map Bounds.ofTriangle)).flatten :=
      ⟨[], hBoxes.symm⟩
    have hFewest :=
      length_runs_le hAll hGrouping.separate_boxes
    rw [List.length_map] at hFewest
    exact hFewest

/-
  Three groups are the fewest for a crowd in which the third
  triangle overlaps the first, and the last the fifth.
-/
theorem split_fewest_crowd :
    crowd.length % 3 = 0 ∧
      split crowd = .ok [(0, 6), (6, 15), (15, 21)] ∧
      IsLeast
        {passes |
          ∃ groups,
            Grouping (Triangle.ofVertices crowd) groups ∧
              groups.length = passes}
        3 := by
  have hWhole : crowd.length % 3 = 0 := by decide
  have hSplit :
      split crowd = .ok [(0, 6), (6, 15), (15, 21)] := rfl
  rcases split_fewest crowd hWhole with
    ⟨ranges, hRanges, hLeast⟩
  rw [hSplit] at hRanges
  cases hRanges
  exact ⟨hWhole, hSplit, hLeast⟩

end Overlap

end PagedRaster
