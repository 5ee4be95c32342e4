import PagedRaster.Fragment.Commit
import PagedRaster.Fragment.Texture

/-
  This file defines what a draw program does for one
  fragment, for the fragments of a triangle and for a list
  of triangles.

  Key definitions include:
    * `DrawState.sourceColor`
    * `DrawState.alphaPasses`
    * `DrawState.shade`
    * `DrawState.drawTriangle`
    * `DrawState.drawTriangles`
-/

namespace PagedRaster

namespace DrawState

/- The colour of a fragment before the tests. -/
def sourceColor
    (state : DrawState)
    (memory : Memory)
    (fragment : Fragment) : Color :=
  if state.descriptor.textured then
    state.texturedColor memory fragment
  else
    fragment.color

/- The alpha test of a colour. -/
def alphaPasses
    (state : DrawState)
    (color : Color) : Bool :=
  state.descriptor.alphaTest.passes
    (quantizeAlpha color.a) state.params.alphaReference

/-
  Run a fragment: the colour that its program returns, and
  the memory afterwards.
-/
def shade
    (state : DrawState)
    (memory : Memory)
    (fragment : Fragment) : Color × Memory :=
  let color := state.sourceColor memory fragment
  if state.alphaPasses color then
    state.commit memory color fragment.depthWord
      fragment.x fragment.y
  else
    (color, memory)

/- The fragments of a triangle, in the order they run. -/
def fragments
    (scissor : Scissor)
    (t : Triangle) : List Fragment :=
  (t.hits scissor).map (Fragment.interpolate t)

/- Draw one triangle. -/
def drawTriangle
    (state : DrawState)
    (scissor : Scissor)
    (memory : Memory)
    (t : Triangle) : Memory :=
  (t.hits scissor).foldl
    (fun memory hit =>
      (state.shade memory
        (Fragment.interpolate t hit)).2)
    memory

/- Draw triangles one after the other. -/
def drawTriangles
    (state : DrawState)
    (scissor : Scissor)
    (memory : Memory)
    (triangles : List Triangle) : Memory :=
  triangles.foldl (state.drawTriangle scissor) memory

end DrawState

end PagedRaster
