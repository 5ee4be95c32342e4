import PagedRaster.Fault
import PagedRaster.Triangle.Basic

/-
  This file defines how a list of triangles is cut into
  runs.  The bounding boxes of the triangles of one run do
  not touch, so the triangles of a run may be drawn in any
  order.

  Key definitions include:
    * `Bounds`
    * `Bounds.overlaps`
    * `Overlap.runs`
    * `Overlap.split`
-/

namespace PagedRaster

------------------------------------------------------------
-- Bounds
------------------------------------------------------------

/- The bounding box of a triangle. -/
structure Bounds where
  minX : Float32
  minY : Float32
  maxX : Float32
  maxY : Float32

namespace Bounds

/- The box that holds nothing. -/
def empty : Bounds where
  minX := Binary32.infinity
  minY := Binary32.infinity
  maxX := -Binary32.infinity
  maxY := -Binary32.infinity

/- The box widened to a vertex; NaN does not widen it. -/
def extend
    (box : Bounds)
    (v : Vertex) : Bounds where
  minX := Binary32.least box.minX v.x
  minY := Binary32.least box.minY v.y
  maxX := Binary32.greatest box.maxX v.x
  maxY := Binary32.greatest box.maxY v.y

/- The bounding box of a triangle. -/
def ofTriangle
    (t : Triangle) : Bounds :=
  t.vertices.foldl extend empty

/- Two boxes have a point in common; edges count. -/
def overlaps
    (box other : Bounds) : Bool :=
  decide (box.minX ≤ other.maxX) &&
    decide (other.minX ≤ box.maxX) &&
    decide (box.minY ≤ other.maxY) &&
    decide (other.minY ≤ box.maxY)

end Bounds

------------------------------------------------------------
-- Runs
------------------------------------------------------------

namespace Overlap

/-
  Cut boxes into runs.  The open run holds the boxes seen
  since the last cut; a box that overlaps one of them opens
  the next run.
-/
def runs
    (openRun : List Bounds) :
    List Bounds → List (List Bounds)
  | [] => if openRun.isEmpty then [] else [openRun]
  | box :: rest =>
      if openRun.any fun other => other.overlaps box then
        openRun :: runs [box] rest
      else
        runs (openRun ++ [box]) rest

/- The runs hold all boxes, in order. -/
theorem flatten_runs
    (openRun boxes : List Bounds) :
    (runs openRun boxes).flatten = openRun ++ boxes := by
  induction boxes generalizing openRun with
  | nil =>
      cases openRun with
      | nil => rfl
      | cons box rest => simp [runs]
  | cons box rest ih =>
      by_cases hCut :
          openRun.any fun other => other.overlaps box
      · simp [runs, hCut, ih]
      · simp [runs, hCut, ih]

/- The ranges of consecutive groups of given sizes. -/
def ranges
    (start : Nat) : List Nat → List (Nat × Nat)
  | [] => []
  | size :: rest =>
      (start, start + size) :: ranges (start + size) rest

/- The ranges of vertices of the runs of a triangle list. -/
def split
    (vertices : List Vertex) :
    Except Fault (List (Nat × Nat)) :=
  if vertices.length % 3 = 0 then
    let boxes :=
      (Triangle.ofVertices vertices).map Bounds.ofTriangle
    .ok (ranges 0
      ((runs [] boxes).map fun run => 3 * run.length))
  else
    .error (.partialTriangleList vertices.length)

end Overlap

end PagedRaster
