import PagedRaster.Draw.Backend
import PagedRaster.Fragment.Shade

/-
  This file defines the backend that draws in memory.  It
  takes triangles, and the fragments of each of them, in
  the order they come.

  Key definitions include:
    * `Canvas`
    * `Canvas.drawState`
    * `Canvas.recordDraw`
-/

namespace PagedRaster

/- The state of a backend that draws in memory. -/
structure Canvas where
  memory : Memory
  bank : SwizzleBank
  palette : Palette
  framesSubmitted : Nat

namespace Canvas

/- A canvas over blank memory. -/
def create
    (bank : SwizzleBank) : Canvas where
  memory := Memory.empty
  bank := bank
  palette := Palette.blank
  framesSubmitted := 0

/- A message of the canvas. -/
def message
    (level : Log.Level)
    (text : String) : Log.Message :=
  ⟨level, .canvas, text⟩

/- What the fragments of a draw share. -/
def drawState
    (canvas : Canvas)
    (descriptor : Descriptor)
    (params : Params) : DrawState where
  descriptor := descriptor
  params := params
  bank := canvas.bank
  palette := canvas.palette

/- Draw triangles into the memory of the canvas. -/
def draw
    (canvas : Canvas)
    (descriptor : Descriptor)
    (params : Params)
    (scissor : Scissor)
    (triangles : List Triangle) : Canvas :=
  let state := canvas.drawState descriptor params
  match canvas with
  | ⟨memory, bank, palette, framesSubmitted⟩ =>
      ⟨state.drawTriangles scissor memory triangles,
        bank, palette, framesSubmitted⟩

/-
  Draw a pass under the descriptor of its program.  A
  program that looks indices up needs a bound palette, and
  the range must lie in the storage.  Vertices after the
  last whole triangle are not drawn.
-/
def recordDraw
    (canvas : Canvas)
    (pass : Pass Descriptor (List Binding)) :
    Outcome Canvas :=
  if pass.program.usesPalette &&
      !pass.resources.contains .palette then
    .stopped canvas .missingPalette
  else if pass.InStorage then
    .done
      (canvas.draw pass.program pass.params pass.scissor
        (Triangle.ofVertices pass.vertices))
  else
    .stopped canvas .outOfBounds

instance : Backend Canvas Descriptor (List Binding) where
  interlock _ := .native
  makeProgram canvas descriptor _ :=
    ⟨(descriptor, canvas),
      [message .debug
        ("software pipeline for " ++ descriptor.text)]⟩
  makeResources canvas key bindings :=
    ⟨(bindings, canvas),
      [message .debug
        ("software resource set for " ++ key.text ++
          ": " ++
          Record.listText (bindings.map Binding.name))]⟩
  recordDraw := recordDraw
  submitFrame canvas :=
    let number := canvas.framesSubmitted + 1
    ⟨{ canvas with framesSubmitted := number },
      [message .trace
        ("software frame " ++ toString number ++
          " submitted")]⟩

end Canvas

end PagedRaster
