import PagedRaster.Vertex

/-
  This file defines triangles and the reading of a vertex
  list as a list of triangles.

  Key definitions include:
    * `Triangle`
    * `Triangle.ofVertices`
-/

namespace PagedRaster

/- Three vertices. -/
structure Triangle where
  a : Vertex
  b : Vertex
  c : Vertex

namespace Triangle

/- The vertices of a triangle in order. -/
def vertices
    (t : Triangle) : List Vertex :=
  [t.a, t.b, t.c]

/- What holds of all vertices holds of each of the three. -/
theorem forall_mem_vertices
    {t : Triangle}
    {P : Vertex → Prop} :
    (∀ v ∈ t.vertices, P v) ↔ P t.a ∧ P t.b ∧ P t.c := by
  simp [vertices]

/- The whole triangles at the front of a vertex list. -/
def ofVertices : List Vertex → List Triangle
  | a :: b :: c :: rest => ⟨a, b, c⟩ :: ofVertices rest
  | _ => []

/- A list of vertices holds a third as many triangles. -/
theorem length_ofVertices
    (vertices : List Vertex) :
    (ofVertices vertices).length =
      vertices.length / 3 := by
  induction vertices using ofVertices.induct with
  | case1 a b c rest ih =>
      simp only [ofVertices, List.length_cons, ih]
      omega
  | case2 vertices hShort =>
      match vertices with
      | [] => rfl
      | [_] => simp [ofVertices]
      | [_, _] => simp [ofVertices]
      | a :: b :: c :: rest =>
          exact (hShort a b c rest rfl).elim

/- Whole triangles in front do not change the others. -/
theorem ofVertices_vertices_append
    (t : Triangle)
    (rest : List Vertex) :
    ofVertices (t.vertices ++ rest) =
      t :: ofVertices rest :=
  rfl

end Triangle

end PagedRaster
