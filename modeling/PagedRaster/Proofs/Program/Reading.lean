import PagedRaster.Proofs.Program.Text

/-
  This file reads program text as a device does that binds
  resources to it: the variables that a text declares with
  a group and a slot, and the images that it loads from.

  Key definitions include:
    * `Declaration`, `Declaration.read`
    * `Text.declared`, `Text.loaded`
    * `Lines.Reads`

  Key theorems include:
    * `Lines.Reads.append`
    * `Text.declared_text`
    * `Text.loaded_text`
-/

namespace PagedRaster

------------------------------------------------------------
-- Parts of Lines
------------------------------------------------------------

namespace Text

/- The text of bytes below 128. -/
def ofBytes
    (bytes : List UInt8) : String :=
  String.ofList
    (bytes.map fun byte => Char.ofNat byte.toNat)

/- The bytes in front of a byte, and those behind it. -/
def upTo
    (stop : UInt8)
    (bytes : List UInt8) :
    Option (List UInt8 × List UInt8) :=
  match bytes.span (· != stop) with
  | (_, []) => none
  | (before, _ :: after) => some (before, after)

/- The byte of a decimal digit. -/
def isDigit
    (byte : UInt8) : Bool :=
  48 ≤ byte && byte ≤ 57

/- The number that bytes write in decimal digits. -/
def number
    (bytes : List UInt8) : Option Nat :=
  if bytes ≠ [] ∧ bytes.all isDigit then
    some (bytes.foldl
      (fun value byte => 10 * value + (byte.toNat - 48)) 0)
  else
    none

end Text

------------------------------------------------------------
-- Declarations
------------------------------------------------------------

/- A variable with the group and the slot it is bound to. -/
structure Declaration where
  group : Nat
  slot : Nat
  name : String
  type : String
  deriving DecidableEq, Repr

namespace Declaration

/- The mark that declarations of bound variables start with. -/
def mark : String :=
  "@group("

/- The byte that the mark starts with. -/
def atSign : UInt8 :=
  64

/- The byte belongs to the mark. -/
theorem atSign_mem_mark :
    atSign ∈ Text.bytes mark := by
  decide

/-
  The declaration behind a mark: group, slot, the name as
  the last word in front of a colon, and the type.
-/
def read
    (line : List UInt8) : Option Declaration := do
  let (group, line) ← Text.upTo 41 line
  let line ← line.dropPrefix? (Text.bytes " @binding(")
  let (slot, line) ← Text.upTo 41 line
  let line ← line.dropPrefix? (Text.bytes " var")
  let (named, line) ← Text.upTo 58 line
  let (type, _) ← Text.upTo 59 line
  let name ← (named.splitOn 32).getLast?
  return {
    group := ← Text.number group
    slot := ← Text.number slot
    name := Text.ofBytes name
    type := Text.ofBytes (type.drop 1) }

/- The address space of a variable is not read. -/
example :
    read
        (Text.bytes
          "1) @binding(0) var<uniform> params: DrawParams;") =
      some
        { group := 1
          slot := 0
          name := "params"
          type := "DrawParams" } := by
  decide

end Declaration

/- The mark that loads from an image start with. -/
def Text.loadMark : String :=
  "textureLoad("

/- A byte of that mark that is rare elsewhere. -/
def Text.upperL : UInt8 :=
  76

/- The byte belongs to the mark. -/
theorem Text.upperL_mem_loadMark :
    upperL ∈ bytes loadMark := by
  decide

/- The name of the image that is loaded from. -/
def Text.loadedName
    (line : List UInt8) : String :=
  ofBytes (line.takeWhile (· != 44))

/-
  The declarations of a text in order of appearance; `none`
  stands for one that cannot be read.
-/
def Text.declared
    (text : String) : List (Option Declaration) :=
  (mentions Declaration.mark text).map Declaration.read

/- The names of the images that a text loads from. -/
def Text.loaded
    (text : String) : List String :=
  (mentions loadMark text).map loadedName

------------------------------------------------------------
-- Reading Lines
------------------------------------------------------------

namespace Lines

/-
  Lines without line breaks that hold declarations and load
  from images.
-/
def Reads
    (lines : Lines)
    (declarations : List (Option Declaration))
    (images : List String) : Prop :=
  lines.Free Text.lineBreak ∧
    (mentions Declaration.mark lines).map
        Declaration.read =
      declarations ∧
    (mentions Text.loadMark lines).map Text.loadedName =
      images

instance
    (lines : Lines)
    (declarations : List (Option Declaration))
    (images : List String) :
    Decidable (lines.Reads declarations images) := by
  unfold Reads
  infer_instance

/- Lines after lines hold what both hold. -/
theorem Reads.append
    {lines others : Lines}
    {declarations otherDeclarations :
      List (Option Declaration)}
    {images otherImages : List String}
    (hLines : lines.Reads declarations images)
    (hOthers :
      others.Reads otherDeclarations otherImages) :
    Reads (lines ++ others)
      (declarations ++ otherDeclarations)
      (images ++ otherImages) := by
  rcases hLines with ⟨hFree, rfl, rfl⟩
  rcases hOthers with ⟨hOtherFree, rfl, rfl⟩
  refine ⟨free_append.mpr ⟨hFree, hOtherFree⟩, ?_, ?_⟩
  · rw [mentions_append, List.map_append]
  · rw [mentions_append, List.map_append]

end Lines

/- A text declares what its lines do. -/
theorem Lines.Reads.declared_text
    {lines : Lines}
    {declarations : List (Option Declaration)}
    {images : List String}
    (hReads : lines.Reads declarations images) :
    Text.declared lines.text = declarations := by
  rw [Text.declared,
    Text.mentions_text hReads.1 Declaration.atSign_mem_mark]
  exact hReads.2.1

/- A text loads from the images that its lines do. -/
theorem Lines.Reads.loaded_text
    {lines : Lines}
    {declarations : List (Option Declaration)}
    {images : List String}
    (hReads : lines.Reads declarations images) :
    Text.loaded lines.text = images := by
  rw [Text.loaded,
    Text.mentions_text hReads.1 Text.upperL_mem_loadMark]
  exact hReads.2.2

end PagedRaster
