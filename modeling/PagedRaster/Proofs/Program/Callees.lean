import PagedRaster.Proofs.Program.Calls
import PagedRaster.Program.FragmentStage

/-
  This file tells what the parts of a fragment program call.
  The parts are read one by one, so that only the choices
  that a part depends on are told apart.

  Key definitions include:
    * `FragmentStage.builtins`
    * `FragmentStage.helpers`
    * `FragmentStage.callable`
    * `FragmentStage.commitCallees`

  Key theorems include:
    * `FragmentStage.helpers_calls`
    * `FragmentStage.commit_calls`
    * `FragmentStage.coloring_calls`
    * `FragmentStage.entry_calls`
-/

namespace PagedRaster

namespace FragmentStage

------------------------------------------------------------
-- Names
------------------------------------------------------------

/- The functions and types that need no definition. -/
def builtins : List String :=
  ["atomicLoad", "atomicStore", "atomicAnd", "atomicOr",
    "textureLoad", "clamp", "min", "max", "mix", "vec2",
    "vec3", "vec4", "f32", "u32", "i32"]

/- The functions before the commit of a pixel. -/
def helpers
    (d : Descriptor) : List ProgramFunction :=
  [addressFunction "fb_pixel_address" "fb_swizzle"
      d.frame.pixelFormat.storage,
    addressFunction "depth_pixel_address" "depth_swizzle"
      d.depth.pixelFormat.storage] ++
    (if d.textured then textureFunctions d else [])

/- The functions before the entry are helpers and commit. -/
theorem functions_eq
    (d : Descriptor) :
    functions d = helpers d ++ [commit d] :=
  rfl

/- The names of the functions before the commit. -/
def helperNames
    (textured indexed : Bool) : List String :=
  ["fb_pixel_address", "depth_pixel_address"] ++
    (if textured then
      ["tex_pixel_address", "clamp_u", "clamp_v"] ++
        (if indexed then ["clut_color"] else []) ++
        ["texture_color"]
    else [])

/- Helpers depend on the descriptor, their names hardly. -/
theorem helpers_names
    (d : Descriptor) :
    (helpers d).map ProgramFunction.name =
      helperNames d.textured d.texture.isIndexed := by
  unfold helpers helperNames textureFunctions
  cases d.textured
  · rfl
  · cases d.texture.isIndexed <;> rfl

/- What may be called before the commit of a pixel. -/
def callable
    (textured indexed : Bool) : List Token :=
  (builtins ++ Shared.functions.map ProgramFunction.name ++
    helperNames textured indexed).map Text.bytes

/- The name of the function that commits a pixel. -/
def commitName : String :=
  "commit_pixel"

/- The variable that holds the memory. -/
def memoryName : Token :=
  Text.bytes "gs_memory"

------------------------------------------------------------
-- Helpers
------------------------------------------------------------

/- Addresses are computed with what is built in. -/
theorem addressFunction_calls
    {name table : String}
    (hName :
      name ∈ ["fb_pixel_address", "depth_pixel_address",
        "tex_pixel_address"])
    (hTable :
      table ∈ ["fb_swizzle", "depth_swizzle",
        "tex_swizzle"])
    (storage : Storage) :
    (addressFunction name table storage).Reads none
      (builtins.map Text.bytes) := by
  have hHeading :
      ∀ name ∈ ["fb_pixel_address", "depth_pixel_address",
          "tex_pixel_address"],
        ProgramFunction.ReadsHeading none name
          (addressFunction "" "" .ct32).signature := by
    decide
  have hBody :
      ∀ storage ∈ Storage.all,
        ∀ table ∈ ["fb_swizzle", "depth_swizzle",
            "tex_swizzle"],
          (addressFunction "" table storage).body.Calls
            (builtins.map Text.bytes) [] := by
    decide
  have hStorage : storage ∈ Storage.all := by
    cases storage <;> decide
  exact
    { heading := hHeading name hName
      body := hBody storage hStorage table hTable }

/- A coordinate is wrapped with what is built in. -/
theorem wrapFunction_calls
    {name : String}
    (hName : name ∈ ["clamp_u", "clamp_v"])
    (mode : WrapMode) :
    (wrapFunction name mode).Reads none
      (builtins.map Text.bytes) := by
  have hHeading :
      ∀ name ∈ ["clamp_u", "clamp_v"],
        ProgramFunction.ReadsHeading none name
          (wrapFunction "" .wrap).signature := by
    decide
  have hBody :
      (wrapFunction "" mode).body.Calls
        (builtins.map Text.bytes) [] := by
    cases mode <;> decide
  exact
    { heading := hHeading name hName
      body := hBody }

/- A palette entry is unpacked by a shared function. -/
theorem paletteFunction_calls
    (d : Descriptor) :
    (paletteFunction d).Reads none
      (callable true true) := by
  have hHeading :
      ProgramFunction.ReadsHeading none "clut_color"
        (paletteFunction default).signature := by
    decide
  have hBody :
      (paletteFunction d).body.Calls
        (callable true true) [] := by
    unfold paletteFunction paletteLookup
    cases d.texture.hasByteIndex <;> cases d.palette <;>
      decide
  exact { heading := hHeading, body := hBody }

/- A texel is looked up only if the texture has indices. -/
theorem texelFunction_calls
    (format : TextureFormat) :
    (texelFunction format).Reads none
      (callable true format.isIndexed) := by
  have hHeading :
      ProgramFunction.ReadsHeading none "texture_color"
        (texelFunction .ct32).signature := by
    decide
  have hBody :
      (texelFunction format).body.Calls
        (callable true format.isIndexed) [] := by
    cases format <;> decide
  exact { heading := hHeading, body := hBody }

/- What is built in may always be called. -/
theorem builtins_callable
    (textured indexed : Bool) :
    builtins.map Text.bytes ⊆ callable textured indexed := by
  unfold callable
  rw [List.append_assoc, List.map_append]
  exact List.subset_append_left _ _

/- The functions of a texture call what they may call. -/
theorem textureFunctions_calls
    (d : Descriptor) :
    ∀ f ∈ textureFunctions d,
      f.Reads none (callable true d.texture.isIndexed) := by
  have hBuiltins :=
    builtins_callable true d.texture.isIndexed
  unfold textureFunctions
  rw [List.forall_mem_append, List.forall_mem_append]
  refine ⟨⟨?sampling, ?palette⟩, ?texel⟩
  case sampling =>
      simp only [List.forall_mem_cons]
      exact
        ⟨(addressFunction_calls (by decide) (by decide)
            _).mono hBuiltins,
          (wrapFunction_calls (by decide) _).mono hBuiltins,
          (wrapFunction_calls (by decide) _).mono hBuiltins,
          List.forall_mem_nil _⟩
  case palette =>
      cases d.texture.isIndexed with
      | false => exact List.forall_mem_nil _
      | true =>
          rw [if_pos rfl, List.forall_mem_singleton]
          exact paletteFunction_calls d
  case texel =>
      rw [List.forall_mem_singleton]
      exact texelFunction_calls d.texture

/- Helpers call what is built in, shared, or a helper. -/
theorem helpers_calls
    (d : Descriptor) :
    ∀ f ∈ helpers d,
      f.Reads none
        (callable d.textured d.texture.isIndexed) := by
  have hBuiltins :=
    builtins_callable d.textured d.texture.isIndexed
  unfold helpers
  rw [List.forall_mem_append]
  constructor
  · simp only [List.forall_mem_cons]
    exact
      ⟨(addressFunction_calls (by decide) (by decide)
          _).mono hBuiltins,
        (addressFunction_calls (by decide) (by decide)
          _).mono hBuiltins,
        List.forall_mem_nil _⟩
  · cases d.textured with
    | false => exact List.forall_mem_nil _
    | true => exact textureFunctions_calls d

------------------------------------------------------------
-- Commit
------------------------------------------------------------

/- What the commit calls besides functions on memory. -/
def pureCallees : List Token :=
  (["clamp", "vec3", "vec4", "f32", "u32"] ++
    Shared.colorFunctions.map
      ProgramFunction.name).map Text.bytes

/- What the commit may call. -/
def commitCallees : List Token :=
  pureCallees ++
    Shared.memoryFunctions.map fun f => Text.bytes f.name

/- The stored colour is read by shared functions. -/
theorem colorRead_calls
    (d : Descriptor) :
    (colorRead d).Calls commitCallees [memoryName] := by
  unfold colorRead
  cases d.readsColor with
  | false => exact Lines.calls_nil _ _
  | true => cases d.frame <;> decide

/- The stored depth is read by a shared function. -/
theorem depthTest_calls
    (d : Descriptor) :
    (depthTest d).Calls commitCallees [memoryName] := by
  unfold depthTest
  cases d.depthTest <;> cases d.depth <;> decide

/- The equation that blends, by its operands. -/
def blendEquation
    (a b : BlendInput)
    (c : BlendFactor)
    (e : BlendInput) : String :=
  "let blended = (" ++ blendInput a ++ " - " ++
    blendInput b ++ ") * " ++ blendFactor c ++
    " * 2.0 + " ++ blendInput e ++ ";"

/- The bytes of the equation, operand by operand. -/
def blendBytes
    (a b : BlendInput)
    (c : BlendFactor)
    (e : BlendInput) : List UInt8 :=
  Text.bytes "let blended = (" ++
    Text.bytes (blendInput a) ++ Text.bytes " - " ++
    Text.bytes (blendInput b) ++ Text.bytes ") * " ++
    Text.bytes (blendFactor c) ++ Text.bytes " * 2.0 + " ++
    Text.bytes (blendInput e) ++ Text.bytes ";"

/- No operand calls more than conversions. -/
theorem blendEquation_calls
    (a b : BlendInput)
    (c : BlendFactor)
    (e : BlendInput) :
    Lines.Calls [blendEquation a b c e] pureCallees
      [memoryName] := by
  have hBytes :
      Text.bytes (blendEquation a b c e) =
        blendBytes a b c e := by
    unfold blendEquation blendBytes
    simp only [Text.bytes_append]
  -- One computation for all operands reads each of them once.
  have hAll :
      ∀ a ∈ BlendInput.all, ∀ b ∈ BlendInput.all,
        ∀ c ∈ BlendFactor.all, ∀ e ∈ BlendInput.all,
          Token.Whole (Text.words (blendBytes a b c e)) ∧
            ∀ piece ∈
                Token.pieces
                  (Text.words (blendBytes a b c e)),
              piece.Plain pureCallees [memoryName] := by
    decide
  have hInput : ∀ input, input ∈ BlendInput.all := by
    intro input
    cases input <;> decide
  have hFactor : c ∈ BlendFactor.all := by
    cases c <;> decide
  unfold Lines.Calls
  rw [Lines.tokens_singleton, Text.read, hBytes]
  exact hAll a (hInput a) b (hInput b) c hFactor e (hInput e)

/- Blending calls no more than conversions. -/
theorem blending_calls
    (d : Descriptor) :
    (blending d).Calls pureCallees [memoryName] := by
  unfold blending
  cases d.blends with
  | false =>
      rw [if_neg Bool.false_ne_true]
      decide
  | true =>
      have hClamp :
          Lines.Calls
            ["let out_color = clamp(" ++
              "vec4<f32>(blended, src_color.a), " ++
              "vec4<f32>(0.0), vec4<f32>(1.0));"]
            pureCallees [memoryName] := by
        decide
      exact (blendEquation_calls _ _ _ _).append hClamp

/- The lines that start a commit. -/
def commitStart : Lines :=
  ["var dst_pixel = 0u;",
    "var dst_color = vec4<f32>(0.0);"]

/- The line that cuts a depth to the bits of its format. -/
def depthLine
    (format : DepthFormat) : String :=
  "let depth = src_depth & " ++
    hexLiteral format.mask.toNat ++ ";"

/- The line that guards what is written. -/
def guardLine : String :=
  "if depth_pass"

/- The parts of the commit, in order. -/
theorem commit_body
    (d : Descriptor) :
    (commit d).body =
      commitStart ++ colorRead d ++ [depthLine d.depth] ++
        depthTest d ++ blending d ++
        Lines.block guardLine (writes d) ++
        ["return out_color;"] :=
  rfl

/- The start of a commit reads no memory. -/
theorem commitStart_calls :
    commitStart.Calls pureCallees [memoryName] := by
  decide

/- Nor does the line that cuts a depth. -/
theorem depthLine_calls
    (format : DepthFormat) :
    Lines.Calls [depthLine format] pureCallees
      [memoryName] := by
  cases format <;> decide

/- Nor does the end of a commit. -/
theorem commitEnd_calls :
    Lines.Calls ["return out_color;"] pureCallees
      [memoryName] := by
  decide

/- The lines that pack and write a colour. -/
def colorWrite
    (format : FrameFormat) : Lines :=
  ["let write_mask = params.alpha_fb.x;",
    "let pixel = (" ++ encodeName format ++
      "(out_color) & write_mask) | " ++
      "(dst_pixel & ~write_mask);",
    writeName format.width ++ "(fb_address, pixel);"]

/- A colour is packed and written by shared functions. -/
theorem colorWrite_calls
    (format : FrameFormat) :
    (colorWrite format).Calls commitCallees
      [memoryName] := by
  cases format <;> decide

/- A depth is written after the colour, if asked for. -/
theorem writes_eq
    (d : Descriptor) :
    writes d =
      colorWrite d.frame ++
        (if d.writesDepth then
          [writeName d.depth.width ++
            "(depth_address, depth);"]
        else []) :=
  rfl

/- What passes is written by shared functions. -/
theorem writes_calls
    (d : Descriptor) :
    (writes d).Calls commitCallees [memoryName] := by
  rw [writes_eq]
  refine (colorWrite_calls d.frame).append ?_
  cases d.writesDepth with
  | false => exact Lines.calls_nil _ _
  | true => cases d.depth <;> decide

/- The guard calls nothing itself. -/
theorem guarded_calls
    (d : Descriptor) :
    Lines.Calls (Lines.block guardLine (writes d))
      commitCallees [memoryName] :=
  Lines.Calls.block (by decide) (by decide) (by decide)
    (writes_calls d)

/- The commit calls only shared functions and conversions. -/
theorem commit_calls
    (d : Descriptor) :
    (commit d).body.Calls commitCallees [memoryName] := by
  have hPure :
      ∀ {lines : Lines},
        lines.Calls pureCallees [memoryName] →
          lines.Calls commitCallees [memoryName] :=
    fun hLines =>
      hLines.mono (List.subset_append_left _ _)
        (List.Subset.refl _)
  rw [commit_body]
  exact
    ((((((hPure commitStart_calls).append
      (colorRead_calls d)).append
      (hPure (depthLine_calls d.depth))).append
      (depthTest_calls d)).append
      (hPure (blending_calls d))).append
      (guarded_calls d)).append (hPure commitEnd_calls)

------------------------------------------------------------
-- Entry
------------------------------------------------------------

/- The words of the alpha test and of what follows it. -/
def exitWords : List Token :=
  ["alpha_pass", "return", commitName].map Text.bytes

/- What colouring calls in programs with a texture. -/
def coloringCallees : List Token :=
  ["clamp", "mix", "vec2", "vec4", "f32", "clamp_u",
    "clamp_v", "texture_color"].map Text.bytes

set_option maxRecDepth 4000 in
/- A texel is taken at coordinates that are wrapped. -/
theorem sampling_calls :
    sampling.Calls coloringCallees exitWords := by
  decide

/- Colouring ends no fragment. -/
theorem coloring_calls
    (d : Descriptor) :
    (coloring d).Calls
      (if d.textured then coloringCallees else [])
      exitWords := by
  unfold coloring
  cases d.textured with
  | false =>
      simp only [if_neg Bool.false_ne_true]
      decide
  | true =>
      have hAlpha :
          (alphaExpansion d).Calls coloringCallees
            exitWords := by
        unfold alphaExpansion
        cases d.expandsAlpha with
        | false => exact Lines.calls_nil _ _
        | true =>
            cases d.blackIsTransparent <;> decide
      have hCombination :
          (combination d).Calls coloringCallees
            exitWords := by
        unfold combination scaling
        cases d.textureFunction <;>
          cases d.textureHasAlpha <;> decide
      exact (sampling_calls.append hAlpha).append hCombination

/- What the entry function calls besides colouring. -/
def entryCallees : List Token :=
  ["u32", "vec2", "quantize_alpha", "fb_pixel_address",
    "depth_pixel_address"].map Text.bytes

/- The line that takes the depth of a fragment. -/
def depthInput : Lines :=
  ["let src_depth = u32(input.depth * DEPTH_MAX);"]

/- The lines that leave a fragment that fails. -/
def failure : Lines :=
  Lines.block "if !alpha_pass" ["return color;"]

/- The lines that find the addresses of a pixel. -/
def addressing : Lines :=
  ["let screen_pos = vec2<i32>(input.position.xy);",
    "let fb_address = fb_pixel_address(" ++
      "params.fb_depth.x, params.fb_depth.y, " ++
      "screen_pos);",
    "let depth_address = depth_pixel_address(" ++
      "params.fb_depth.z, params.fb_depth.w, " ++
      "screen_pos);"]

/- The line that hands a pixel to the commit. -/
def success : Lines :=
  ["return commit_pixel(color, src_depth, " ++
    "fb_address, depth_address);"]

/- The parts of the entry function, in order. -/
theorem entry_body
    (d : Descriptor) :
    (entryFunction d).body =
      depthInput ++ coloring d ++ [alphaTest d.alphaTest] ++
        failure ++ (addressing ++ success) :=
  rfl

/- The depth of a fragment is taken and nothing else. -/
theorem depthInput_calls :
    depthInput.Calls entryCallees exitWords := by
  decide

/- Alpha is quantized before it is compared. -/
theorem alphaTest_calls
    (test : AlphaTest) :
    Lines.Calls [alphaTest test] entryCallees [] := by
  cases test <;> decide

/- A fragment that fails calls nothing more. -/
theorem failure_calls :
    failure.Calls entryCallees [] := by
  decide

/- The addresses of a pixel come from helpers. -/
theorem addressing_calls :
    addressing.Calls entryCallees exitWords := by
  decide

/- A fragment that passes is committed. -/
theorem success_calls :
    success.Calls [Text.bytes commitName] [] := by
  decide

/- The entry function calls helpers and the commit. -/
theorem entry_calls
    (d : Descriptor) :
    (entryFunction d).Reads (some (Text.bytes "fragment"))
      (callable d.textured d.texture.isIndexed ++
        [Text.bytes commitName]) := by
  have hHeading :
      ProgramFunction.ReadsHeading
        (some (Text.bytes "fragment")) entry
        (entryFunction default).signature := by
    decide
  refine { heading := hHeading, body := ?_ }
  have hEntry :
      ∀ textured indexed,
        entryCallees ⊆
          callable textured indexed ++
            [Text.bytes commitName] := by
    decide
  have hColoring :
      ∀ textured indexed,
        (if textured then coloringCallees else []) ⊆
          callable textured indexed ++
            [Text.bytes commitName] := by
    decide
  have hMore :
      ∀ {lines : Lines} {hidden : List Token},
        lines.Calls entryCallees hidden →
          lines.Calls
            (callable d.textured d.texture.isIndexed ++
              [Text.bytes commitName])
            [] :=
    fun hLines =>
      hLines.mono (hEntry _ _) (List.nil_subset _)
  rw [entry_body]
  exact
    ((((hMore depthInput_calls).append
      ((coloring_calls d).mono (hColoring _ _)
        (List.nil_subset _))).append
      (hMore (alphaTest_calls _))).append
      (hMore failure_calls)).append
      ((hMore addressing_calls).append
        (success_calls.mono
          (List.subset_append_right _ _)
          (List.nil_subset _)))

end FragmentStage

end PagedRaster
