import PagedRaster.Program.Basic
import PagedRaster.Proofs.Program.Vocabulary

/-
  This file proves that the text of a program and the
  resources that a host binds for it agree: the text
  declares exactly the bound resources at their slots, and
  it loads only from images that it declares.

  Key definitions include:
    * `Binding.variableName`
    * `Declaration.isResource`, `Declaration.isImage`

  Key theorems include:
    * `Descriptor.declared_program`
    * `Descriptor.program_bindings`
-/

namespace PagedRaster

/- The name that programs give to a resource. -/
def Binding.variableName : Binding → String
  | .memory => "gs_memory"
  | .palette => "clut_image"
  | .textureSwizzle => "tex_swizzle"
  | .frameSwizzle => "fb_swizzle"
  | .depthSwizzle => "depth_swizzle"

namespace Declaration

/- The variable is bound in the resource group. -/
def isResource
    (declaration : Declaration) : Bool :=
  declaration.group == resourceGroup

/- The variable is an image in the resource group. -/
def isImage
    (declaration : Declaration) : Bool :=
  declaration.isResource &&
    declaration.type == "texture_2d<u32>"

end Declaration

namespace Descriptor

/- The declarations of a program, in order. -/
def declarations
    (d : Descriptor) : List Declaration :=
  FragmentStage.sharedDeclarations ++
    (FragmentStage.images d).map FragmentStage.declarationOf

/- The fragment text is that of the fragment stage. -/
theorem fragment_program
    (d : Descriptor) :
    d.program.fragment = (FragmentStage.lines d).text := by
  rw [program]

/- The text of a program holds exactly its declarations. -/
theorem declared_program
    (d : Descriptor) :
    Text.declared d.program.fragment =
      d.declarations.map some := by
  rw [fragment_program]
  exact (FragmentStage.lines_reads d).declared_text

/- The text of a program loads what its functions load. -/
theorem loaded_program
    (d : Descriptor) :
    Text.loaded d.program.fragment =
      FragmentStage.loads d := by
  rw [fragment_program]
  exact (FragmentStage.lines_reads d).loaded_text

/- The resources among the declarations are the bound ones. -/
theorem resources_declarations
    (d : Descriptor) :
    (d.declarations.filter Declaration.isResource).map
        (fun x => (x.slot, x.name)) =
      d.resourceKey.bindings.map
        (fun binding =>
          (binding.slot, binding.variableName)) := by
  unfold declarations FragmentStage.images
    ResourceKey.bindings
  rw [usesPalette_resourceKey]
  have hTextured : d.resourceKey.textured = d.textured := rfl
  rw [hTextured]
  cases d.usesPalette <;> cases d.textured <;> rfl

/- Bound resources have slots of their own. -/
theorem nodup_slots
    (key : ResourceKey) :
    (key.bindings.map Binding.slot).Nodup := by
  unfold ResourceKey.bindings
  cases key.usesPalette <;> cases key.textured <;> decide

/- Only the parameters are declared outside of the group. -/
theorem parameters_declarations
    (d : Descriptor) :
    d.declarations.filter (!·.isResource) =
      [{ group := paramsGroup
         slot := 0
         name := "params"
         type := "DrawParams" }] := by
  unfold declarations FragmentStage.images
  cases d.usesPalette <;> cases d.textured <;> rfl

/- Every image that a program loads from is declared. -/
theorem loads_declared
    (d : Descriptor) :
    ∀ name ∈ FragmentStage.loads d,
      ∃ image ∈ d.declarations,
        image.isImage = true ∧ image.name = name := by
  unfold declarations FragmentStage.loads
    FragmentStage.images usesPalette
  cases d.textured <;> cases d.texture.isIndexed <;>
    cases d.palette <;> decide

/-
  Text and resources agree.  Every mark of a bound variable
  in the text is a declaration that can be read; in order of
  appearance, the ones of the resource group are the bound
  resources with their slots and names, each slot once; the
  only other one is that of the parameters; and every load
  is from a declared image.
-/
theorem program_bindings
    (d : Descriptor) :
    ∃ found : List Declaration,
      Text.declared d.program.fragment = found.map some ∧
        (found.filter Declaration.isResource).map
            (fun x => (x.slot, x.name)) =
          d.resourceKey.bindings.map
            (fun binding =>
              (binding.slot, binding.variableName)) ∧
        (d.resourceKey.bindings.map Binding.slot).Nodup ∧
        found.filter (!·.isResource) =
          [{ group := paramsGroup
             slot := 0
             name := "params"
             type := "DrawParams" }] ∧
        ∀ name ∈ Text.loaded d.program.fragment,
          ∃ image ∈ found,
            image.isImage = true ∧ image.name = name := by
  refine ⟨d.declarations, declared_program d,
    resources_declarations d, nodup_slots d.resourceKey,
    parameters_declarations d, ?_⟩
  rw [loaded_program]
  exact loads_declared d

end Descriptor

end PagedRaster
