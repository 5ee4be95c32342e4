import PagedRaster.Draw.Backend

/-
  This file defines a backend that draws nothing and keeps
  a journal of what it is asked to do.  It numbers programs,
  resource sets and frames from one.

  Key definitions include:
    * `Journal.Entry`
    * `Journal`
    * `Journal.since`
-/

namespace PagedRaster

/- One request to a journal. -/
inductive Journal.Entry where
  | program
      (handle : Nat)
      (descriptor : Descriptor)
      (program : Program)
  | resources
      (handle : Nat)
      (key : ResourceKey)
      (bindings : List Binding)
  | draw
      (pass : Pass Nat Nat)
  | frame
      (number : Nat)

/-
  A journal: its entries, newest first, and how many
  programs, resource sets and frames there are in it.
-/
structure Journal where
  entries : List Journal.Entry := []
  programs : Nat := 0
  resourceSets : Nat := 0
  frames : Nat := 0

namespace Journal

/- Write an entry. -/
def write
    (journal : Journal)
    (entry : Entry) : Journal :=
  { journal with entries := entry :: journal.entries }

/- The entries since an earlier state, in order. -/
def since
    (journal earlier : Journal) : List Entry :=
  (journal.entries.take
    (journal.entries.length -
      earlier.entries.length)).reverse

instance : Backend Journal Nat Nat where
  interlock _ := .serializedOverlaps
  makeProgram journal descriptor program :=
    let handle := journal.programs + 1
    ⟨(handle,
      { journal with programs := handle }.write
        (.program handle descriptor program)), []⟩
  makeResources journal key bindings :=
    let handle := journal.resourceSets + 1
    ⟨(handle,
      { journal with resourceSets := handle }.write
        (.resources handle key bindings)), []⟩
  recordDraw journal pass :=
    .done (journal.write (.draw pass))
  submitFrame journal :=
    let number := journal.frames + 1
    ⟨{ journal with frames := number }.write
      (.frame number), []⟩

end Journal

end PagedRaster
