import PagedRaster.Program.FragmentStage
import PagedRaster.Program.VertexStage

/-
  This file defines the draw program of a descriptor: the
  texts of its two stages.  The text depends only on the
  descriptor.

  Key definitions include:
    * `Program`
    * `Descriptor.program`
-/

namespace PagedRaster

/- The text of the two stages of a draw program. -/
structure Program where
  vertex : String
  fragment : String
  deriving DecidableEq, Repr

/- The program of a descriptor. -/
def Descriptor.program
    (d : Descriptor) : Program where
  vertex := VertexStage.lines.text
  fragment := (FragmentStage.lines d).text

end PagedRaster
