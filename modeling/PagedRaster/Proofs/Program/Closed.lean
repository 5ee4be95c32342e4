import Mathlib.Data.List.Nodup
import PagedRaster.Proofs.Program.Bindings
import PagedRaster.Proofs.Program.Callees

/-
  This file proves that fragment programs are closed.  What
  a program calls is built in or defined by it, no name is
  defined twice, there is one entry point, and brackets are
  balanced.

  Key definitions include:
    * `FragmentStage.definitions`
    * `FragmentStage.names`

  Key theorems include:
    * `FragmentStage.lines_outline`
    * `Descriptor.body_program`
    * `Descriptor.program_closed`
-/

namespace PagedRaster

namespace FragmentStage

------------------------------------------------------------
-- Programs
------------------------------------------------------------

/- What a program declares before its shared functions. -/
def declarations : Lines :=
  Shared.comment ++ [""] ++ Shared.constants ++ [""] ++
    Shared.paramsStruct ++ [""] ++ Shared.inputStruct ++
    [""] ++ Shared.globals ++ [""]

set_option maxRecDepth 4000 in
/- Declarations call nothing. -/
theorem declarations_calls :
    declarations.Calls [] [] := by
  decide

/- The shared functions call what is built in or shared. -/
theorem shared_calls :
    ∀ f ∈ Shared.functions,
      f.Reads none
        ((builtins ++
          Shared.functions.map
            ProgramFunction.name).map Text.bytes) := by
  have hHeadings :
      ∀ f ∈ Shared.functions,
        ProgramFunction.ReadsHeading none f.name
          f.signature := by
    decide
  have hBodies :
      ∀ f ∈ Shared.functions,
        f.body.Calls
          ((builtins ++
            Shared.functions.map
              ProgramFunction.name).map Text.bytes) [] := by
    decide
  exact fun f hMem =>
    { heading := hHeadings f hMem
      body := hBodies f hMem }

/- Images are declared without a call. -/
theorem images_calls
    (d : Descriptor) :
    Lines.Calls ((images d).map Image.line) [] [] := by
  unfold images
  cases d.usesPalette <;> cases d.textured <;> decide

/- The functions before the entry call no entry or commit. -/
theorem functions_calls
    (d : Descriptor) :
    ∀ f ∈ Shared.functions ++ functions d,
      f.Reads none
        (callable d.textured d.texture.isIndexed) := by
  have hHeading :
      ProgramFunction.ReadsHeading none commitName
        (commit default).signature := by
    decide
  have hCallees :
      ∀ textured indexed,
        commitCallees ⊆ callable textured indexed := by
    decide
  rw [functions_eq, List.forall_mem_append,
    List.forall_mem_append, List.forall_mem_singleton]
  refine ⟨?shared, helpers_calls d, ?commit⟩
  case shared =>
      intro f hMem
      refine (shared_calls f hMem).mono ?_
      unfold callable
      rw [List.map_append]
      exact List.subset_append_left _ _
  case commit =>
      exact
        { heading := hHeading
          body :=
            (commit_calls d).mono (hCallees _ _)
              (List.nil_subset _) }

/- The functions of a program, in order. -/
def definitions
    (d : Descriptor) : List Definition :=
  (Shared.functions ++ functions d).map
      (ProgramFunction.definition none) ++
    [(entryFunction d).definition
      (some (Text.bytes "fragment"))]

/- The outline of a program is that of its functions. -/
theorem lines_outline
    (d : Descriptor) :
    Token.Outline (definitions d) (lines d).tokens := by
  rcases List.forall_mem_append.mp (functions_calls d) with
    ⟨hShared, hFunctions⟩
  have hBlank : Lines.Calls [""] [] [] := by
    decide
  have hAttribute :
      Lines.tokens ["@fragment"] =
        [Token.atSign, Text.bytes "fragment"] := by
    decide
  have hOutline :=
    ((declarations_calls.outline.append
      (ProgramFunction.outline_linesOf hShared)).append
      (((images_calls d).append hBlank).outline.append
        (ProgramFunction.outline_linesOf
          hFunctions))).append
      (entry_calls d).outline
  have hTokens :
      (lines d).tokens =
        (declarations.tokens ++
            (ProgramFunction.linesOf
              Shared.functions).tokens ++
          (Lines.tokens ((images d).map Image.line ++ [""]) ++
            (ProgramFunction.linesOf
              (functions d)).tokens)) ++
          ([Token.atSign, Text.bytes "fragment"] ++
            (entryFunction d).lines.tokens) := by
    unfold lines Shared.lines declarations
    simp only [Lines.tokens_append, hAttribute,
      List.append_assoc]
  rw [hTokens, definitions, List.map_append]
  exact hOutline

/- The names that a program defines, in order. -/
def names
    (textured indexed : Bool) : List Token :=
  (Shared.functions.map ProgramFunction.name ++
    helperNames textured indexed ++
    [commitName, entry]).map Text.bytes

/- The functions of a program have these names. -/
theorem definitions_names
    (d : Descriptor) :
    (definitions d).map Definition.name =
      names d.textured d.texture.isIndexed := by
  have hNames :
      ∀ functions : List ProgramFunction,
        (functions.map
            (ProgramFunction.definition none)).map
            Definition.name =
          (functions.map
            ProgramFunction.name).map Text.bytes := by
    intro functions
    rw [List.map_map, List.map_map]
    rfl
  unfold definitions names
  rw [List.map_append, hNames, functions_eq]
  simp only [List.map_append, helpers_names,
    List.append_assoc]
  rfl

/- No name is defined twice. -/
theorem names_nodup :
    ∀ textured indexed, (names textured indexed).Nodup := by
  decide

/- Only the entry function is an entry point. -/
theorem definitions_entryPoints
    (d : Descriptor) :
    (definitions d).flatMap Definition.entryPoints =
      [(Text.bytes "fragment", Text.bytes entry)] := by
  have hNone :
      ((Shared.functions ++ functions d).map
          (ProgramFunction.definition none)).flatMap
          Definition.entryPoints =
        [] := by
    rw [List.flatMap_eq_nil_iff]
    intro definition hMem
    rcases List.mem_map.mp hMem with ⟨f, _, rfl⟩
    rfl
  rw [definitions, List.flatMap_append, hNone]
  rfl

/- What may be called is built in or defined. -/
theorem callable_defined :
    ∀ textured indexed,
      ∀ name ∈ callable textured indexed ++
          [Text.bytes commitName],
        name ∈ builtins.map Text.bytes ∨
          name ∈ names textured indexed := by
  decide

/- The functions before the entry call what they may call. -/
theorem functions_called
    (d : Descriptor) :
    ((Shared.functions ++ functions d).map
        (ProgramFunction.definition none)).flatMap
        Definition.called ⊆
      callable d.textured d.texture.isIndexed := by
  intro name hName
  rcases List.mem_flatMap.mp hName with
    ⟨definition, hMem, hCalled⟩
  rcases List.mem_map.mp hMem with ⟨f, hFunction, rfl⟩
  exact (functions_calls d f hFunction).body.called_subset
    hCalled

/- The functions of a program call what they may call. -/
theorem definitions_called
    (d : Descriptor) :
    (definitions d).flatMap Definition.called ⊆
      callable d.textured d.texture.isIndexed ++
        [Text.bytes commitName] := by
  rw [definitions, List.flatMap_append,
    List.flatMap_singleton,
    ProgramFunction.called_definition]
  exact List.append_subset.mpr
    ⟨List.subset_append_of_subset_left _
        (functions_called d),
      (entry_calls d).body.called_subset⟩

end FragmentStage

------------------------------------------------------------
-- Texts
------------------------------------------------------------

namespace Descriptor

/- The text of a program is read line by line. -/
theorem tokens_program
    (d : Descriptor) :
    Text.tokens d.program.fragment =
      (FragmentStage.lines d).tokens := by
  rw [fragment_program]
  exact Text.tokens_text (FragmentStage.lines_reads d).1

/- The pieces of a program are those of its lines. -/
theorem pieces_program
    (d : Descriptor) :
    Text.pieces d.program.fragment =
      Token.pieces (FragmentStage.lines d).tokens := by
  rw [fragment_program]
  exact Text.pieces_text (FragmentStage.lines_reads d).1
    (FragmentStage.lines_outline d).whole

/- The names that the text of a program defines. -/
theorem defined_program
    (d : Descriptor) :
    Text.defined d.program.fragment =
      FragmentStage.names d.textured d.texture.isIndexed := by
  rw [Text.defined, pieces_program,
    (FragmentStage.lines_outline d).defined,
    FragmentStage.definitions_names]

/- The names that the text of a program calls. -/
theorem called_program
    (d : Descriptor) :
    Text.called d.program.fragment =
      (FragmentStage.definitions d).flatMap
        Definition.called := by
  rw [Text.called, pieces_program]
  exact (FragmentStage.lines_outline d).called

/- The bodies of functions in the text of a program. -/
theorem body_program
    (d : Descriptor)
    (name : Token) :
    Text.body name d.program.fragment =
      Definition.bodyOf name
        (FragmentStage.definitions d) := by
  rw [Text.body, pieces_program]
  exact (FragmentStage.lines_outline d).body name

/- The body of a function of a program is read back. -/
theorem body_definition
    (d : Descriptor)
    {definition : Definition}
    (hMem : definition ∈ FragmentStage.definitions d) :
    Text.body definition.name d.program.fragment =
      definition.body := by
  have hNames :=
    FragmentStage.names_nodup d.textured
      d.texture.isIndexed
  rw [← FragmentStage.definitions_names] at hNames
  rw [body_program]
  exact Definition.bodyOf_eq hNames hMem

/- The body of a function before the entry is read back. -/
theorem body_function
    (d : Descriptor)
    {f : ProgramFunction}
    (hMem :
      f ∈ Shared.functions ++ FragmentStage.functions d) :
    Text.body (Text.bytes f.name) d.program.fragment =
      Token.pieces f.body.tokens := by
  have hDefinition :
      f.definition none ∈ FragmentStage.definitions d := by
    unfold FragmentStage.definitions
    exact List.mem_append_left _ (List.mem_map_of_mem hMem)
  have hBody := d.body_definition hDefinition
  exact hBody

/-
  The text of a program is closed.  Each name that it calls
  is built in or defined once; no name is defined twice; the
  one entry point is `fs_main`, defined once for the
  fragment stage; and brackets are balanced.
-/
theorem program_closed
    (d : Descriptor) :
    (∀ name ∈ Text.called d.program.fragment,
        name ∈ FragmentStage.builtins.map Text.bytes ∨
          (Text.defined d.program.fragment).count name =
            1) ∧
      (Text.defined d.program.fragment).Nodup ∧
      Text.entryPoints d.program.fragment =
        [(Text.bytes "fragment", Text.bytes "fs_main")] ∧
      (Text.defined d.program.fragment).count
          (Text.bytes "fs_main") =
        1 ∧
      Text.Balanced d.program.fragment := by
  have hOutline := FragmentStage.lines_outline d
  have hNodup :=
    FragmentStage.names_nodup d.textured
      d.texture.isIndexed
  rw [defined_program, called_program]
  refine ⟨?called, hNodup, ?entryPoints, ?main, ?balanced⟩
  case called =>
      intro name hName
      refine
        (FragmentStage.callable_defined _ _ _
          (FragmentStage.definitions_called d hName)).imp_right
            fun hDefined => ?_
      exact List.count_eq_one_of_mem hNodup hDefined
  case entryPoints =>
      rw [Text.entryPoints, pieces_program,
        hOutline.entryPoints]
      exact FragmentStage.definitions_entryPoints d
  case main =>
      refine List.count_eq_one_of_mem hNodup ?_
      rw [← FragmentStage.definitions_names]
      exact List.mem_map.mpr
        ⟨_, List.mem_append_right _ List.mem_cons_self, rfl⟩
  case balanced =>
      rw [Text.Balanced, tokens_program]
      exact hOutline.whole.1

end Descriptor

end PagedRaster
