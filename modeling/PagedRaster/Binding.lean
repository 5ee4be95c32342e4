import PagedRaster.Descriptor.Basic

/-
  This file defines the resources that a draw program binds
  and the slots it binds them to.

  Key definitions include:
    * `Binding`
    * `Binding.slot`
    * `ResourceKey.bindings`
-/

namespace PagedRaster

/- A resource of a draw program. -/
inductive Binding where
  | memory
  | palette
  | textureSwizzle
  | frameSwizzle
  | depthSwizzle
  deriving DecidableEq, Repr, Inhabited

namespace Binding

/- Every resource. -/
def all : List Binding :=
  [.memory, .palette, .textureSwizzle, .frameSwizzle,
    .depthSwizzle]

/- The written name of a resource. -/
def name : Binding → String
  | .memory => "Memory"
  | .palette => "Clut"
  | .textureSwizzle => "TextureSwizzle"
  | .frameSwizzle => "FramebufferSwizzle"
  | .depthSwizzle => "DepthSwizzle"

/- The slot of a resource in the resource group. -/
def slot : Binding → Nat
  | .memory => 0
  | .palette => 1
  | .textureSwizzle => 2
  | .frameSwizzle => 3
  | .depthSwizzle => 4

end Binding

/- The bind group that holds the resources. -/
def resourceGroup : Nat :=
  0

/- The bind group that holds the parameters. -/
def paramsGroup : Nat :=
  1

/- The resources that a key asks for, by rising slot. -/
def ResourceKey.bindings
    (key : ResourceKey) : List Binding :=
  [.memory] ++
    (if key.usesPalette then [.palette] else []) ++
    (if key.textured then [.textureSwizzle] else []) ++
    [.frameSwizzle, .depthSwizzle]

end PagedRaster
