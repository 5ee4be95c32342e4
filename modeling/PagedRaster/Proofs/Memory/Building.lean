import PagedRaster.Memory.Swizzle

/-
  This file proves how a bank of tables is built.  A builder
  may keep a state from one call to the next.  It is called
  for the formats in their order, up to the first table with
  another page layout, and a bank that is built hands out
  the table of the call for each format, also to the formats
  of a role.

  Key definitions include:
    * `BuilderCall`
    * `SwizzleBank.record`
    * `SwizzleBank.Asks`, `SwizzleBank.StopsAt`
    * `SwizzleBank.Lists`
    * `SwizzleBank.Converts`
    * `SwizzleBank.FoundThrough`

  Key theorems include:
    * `SwizzleBank.exists_calls_buildList`
    * `SwizzleBank.exists_calls_build`
    * `SwizzleBank.get_of_mem_calls`
    * `SwizzleBank.Converts.foundThrough`
-/

namespace PagedRaster

------------------------------------------------------------
-- Calls
------------------------------------------------------------

/- A format that a builder is asked for, and its answer. -/
structure BuilderCall where
  format : PixelFormat
  table : Swizzle

namespace BuilderCall

/- The answer has the page layout of the format. -/
def Fits
    (call : BuilderCall) : Prop :=
  call.table.storage = call.format.storage

instance decidableFits
    (call : BuilderCall) : Decidable call.Fits :=
  inferInstanceAs
    (Decidable (call.table.storage = call.format.storage))

end BuilderCall

namespace SwizzleBank

variable {σ : Type}
variable {builder : PixelFormat → StateM σ Swizzle}

/- Ask a builder for formats, each after the one before. -/
def record
    (builder : PixelFormat → StateM σ Swizzle)
    (formats : List PixelFormat) :
    StateM σ (List BuilderCall) :=
  formats.mapM fun format => do
    let table ← builder format
    return ⟨format, table⟩

/-
  The calls of some work on a list of formats.  They are for
  first formats of the list, in order, and asking for just
  these leads from the first state to the last one.
-/
structure Asks
    (builder : PixelFormat → StateM σ Swizzle)
    (formats : List PixelFormat)
    (s : σ)
    (calls : List BuilderCall)
    (last : σ) : Prop where
  inOrder : calls.map BuilderCall.format <+: formats
  recorded :
    (record builder (calls.map BuilderCall.format)).run s =
      (calls, last)

/-
  The last call is for this format.  Its table is the only
  one with another page layout than its format's.
-/
def StopsAt
    (calls : List BuilderCall)
    (format : PixelFormat) : Prop :=
  ∃ before last,
    calls = before ++ [last] ∧
      (∀ call ∈ before, call.Fits) ∧
      ¬ last.Fits ∧
      last.format = format

/- Without a call, the state does not change. -/
theorem Asks.nil
    (formats : List PixelFormat)
    (s : σ) :
    Asks builder formats s [] s where
  inOrder := List.nil_prefix
  recorded := rfl

/- A table of another layout stops at once. -/
theorem stopsAt_singleton
    {call : BuilderCall}
    (hMisfit : ¬ call.Fits) :
    StopsAt [call] call.format :=
  ⟨[], call, rfl, List.forall_mem_nil _, hMisfit, rfl⟩

/- A table that fits does not stop. -/
theorem StopsAt.cons
    {call : BuilderCall}
    {calls : List BuilderCall}
    {format : PixelFormat}
    (hFits : call.Fits)
    (hStop : StopsAt calls format) :
    StopsAt (call :: calls) format := by
  rcases hStop with ⟨before, last, rfl, hBefore, hLast⟩
  refine ⟨call :: before, last, rfl, ?_, hLast⟩
  exact List.forall_mem_cons.mpr ⟨hFits, hBefore⟩

/- Some call of those that stop does not fit. -/
theorem StopsAt.exists_misfit
    {calls : List BuilderCall}
    {format : PixelFormat}
    (hStop : StopsAt calls format) :
    ∃ call ∈ calls, ¬ call.Fits := by
  rcases hStop with ⟨before, last, rfl, -, hMisfit, -⟩
  exact ⟨last, List.mem_concat_self, hMisfit⟩

------------------------------------------------------------
-- Building
------------------------------------------------------------

/- A table that fits is put before tables that fit. -/
theorem fits_cons
    {format : PixelFormat}
    {formats : List PixelFormat}
    {table : Swizzle}
    {tables : List Swizzle}
    (hTable : table.storage = format.storage)
    (hTables : Fits formats tables) :
    Fits (format :: formats) (table :: tables) := by
  unfold Fits
  rw [List.map_cons, List.map_cons, hTable, hTables]

section FirstCall

variable {format : PixelFormat}
variable {formats : List PixelFormat}
variable {table : Swizzle}
variable {s next : σ}
variable (hBuild : (builder format).run s = (table, next))

include hBuild

/- The other calls go on where the first one ended. -/
theorem Asks.cons
    {calls : List BuilderCall}
    {last : σ}
    (hRest : Asks builder formats next calls last) :
    Asks builder (format :: formats) s
      (⟨format, table⟩ :: calls) last where
  inOrder :=
    List.cons_prefix_cons.mpr ⟨rfl, hRest.inOrder⟩
  recorded := by
    have hCons (rest : List PixelFormat) :
        (record builder (format :: rest)).run s =
          (⟨format, ((builder format).run s).1⟩ ::
              ((record builder rest).run
                ((builder format).run s).2).1,
            ((record builder rest).run
              ((builder format).run s).2).2) := by
      unfold record
      rw [List.mapM_cons]
      rfl
    rw [List.map_cons, hCons, hBuild, hRest.recorded]

/- A table of another layout ends the work. -/
theorem run_buildList_of_not_fits
    (hMisfit : table.storage ≠ format.storage) :
    (buildList builder (format :: formats)).run s =
      (.error (.wrongPageLayout format), next) := by
  unfold buildList
  rw [StateT.run_bind, hBuild]
  change StateT.run (dite _ _ _) _ = _
  rw [dif_neg hMisfit]
  rfl

/- A table that fits is kept, and the others follow. -/
theorem run_buildList_of_fits
    (hFits : table.storage = format.storage) :
    (buildList builder (format :: formats)).run s =
      match (buildList builder formats).run next with
      | (.ok tables, last) =>
          (.ok
            ⟨table :: tables.val,
              fits_cons hFits tables.property⟩,
            last)
      | (.error fault, last) => (.error fault, last) := by
  conv => lhs; unfold buildList
  rw [StateT.run_bind, hBuild]
  change StateT.run (dite _ _ _) _ = _
  rw [dif_pos hFits, StateT.run_bind]
  change bind ((buildList builder formats).run next) _ = _
  generalize (buildList builder formats).run next = rest
  rcases rest with ⟨fault | tables, last⟩
  · rfl
  · rfl

end FirstCall

/-
  Building calls the builder for formats in order, and it
  ends in the state that these calls leave.  It yields their
  tables if all formats were asked for, and stops otherwise.
-/
theorem exists_calls_buildList
    (builder : PixelFormat → StateM σ Swizzle)
    (formats : List PixelFormat)
    (s : σ) :
    ∃ calls,
      Asks builder formats s calls
          ((buildList builder formats).run s).2 ∧
        match ((buildList builder formats).run s).1 with
        | .ok tables =>
            calls.map BuilderCall.format = formats ∧
              calls.map BuilderCall.table = tables.val
        | .error fault =>
            ∃ format,
              fault = .wrongPageLayout format ∧
                StopsAt calls format := by
  induction formats generalizing s with
  | nil => exact ⟨[], Asks.nil [] s, rfl, rfl⟩
  | cons format formats ih =>
      rcases hBuild : (builder format).run s with
        ⟨table, next⟩
      by_cases hFits : table.storage = format.storage
      · rcases ih next with ⟨calls, hAsks, hEnd⟩
        refine ⟨⟨format, table⟩ :: calls, ?_⟩
        rw [run_buildList_of_fits hBuild hFits]
        generalize
          (buildList builder formats).run next =
            rest at hAsks hEnd
        rcases rest with ⟨fault | tables, last⟩
        · rcases hEnd with ⟨misfit, hFault, hStop⟩
          exact ⟨hAsks.cons hBuild, misfit, hFault,
            hStop.cons hFits⟩
        · rcases hEnd with ⟨hFormats, hTables⟩
          exact ⟨hAsks.cons hBuild,
            congrArg (List.cons format) hFormats,
            congrArg (List.cons table) hTables⟩
      · refine ⟨[⟨format, table⟩], ?_⟩
        rw [run_buildList_of_not_fits hBuild hFits]
        exact ⟨(Asks.nil formats next).cons hBuild, format,
          rfl, stopsAt_singleton hFits⟩

/- The list has the tables of the bank in their places. -/
def Lists
    (bank : SwizzleBank)
    (tables : List Swizzle) : Prop :=
  ∀ format : PixelFormat,
    tables[format.index.val]? = some (bank.get format)

/- A bank keeps the places of the tables it is made of. -/
theorem lists_ofTables
    {tables : List Swizzle}
    (hFits : Fits PixelFormat.all tables) :
    (ofTables tables hFits).Lists tables := by
  intro format
  have hLength : tables.length = 13 := by
    simpa [PixelFormat.all] using
      congrArg List.length hFits
  have hLt : format.index.val < tables.length := by
    rw [hLength]
    exact format.index.isLt
  rw [List.getElem?_eq_getElem hLt]
  rfl

/- A bank is made of the tables that were built for it. -/
theorem run_build
    (builder : PixelFormat → StateM σ Swizzle)
    (s : σ) :
    (build builder).run s =
      match (buildList builder PixelFormat.all).run s with
      | (.ok tables, last) =>
          (.ok (ofTables tables.val tables.property), last)
      | (.error fault, last) => (.error fault, last) := by
  unfold build
  rw [StateT.run_bind]
  generalize
    (buildList builder PixelFormat.all).run s = built
  rcases built with ⟨fault | tables, last⟩
  · rfl
  · rfl

/-
  Building a bank calls the builder for the formats in
  order.  It succeeds if all were asked for; the bank lists
  their tables then.
-/
theorem exists_calls_build
    (builder : PixelFormat → StateM σ Swizzle)
    (s : σ) :
    ∃ calls,
      Asks builder PixelFormat.all s calls
          ((build builder).run s).2 ∧
        match ((build builder).run s).1 with
        | .ok bank =>
            calls.map BuilderCall.format =
                PixelFormat.all ∧
              (∀ call ∈ calls, call.Fits) ∧
              bank.Lists (calls.map BuilderCall.table)
        | .error fault =>
            ∃ format,
              fault = .wrongPageLayout format ∧
                StopsAt calls format := by
  rcases exists_calls_buildList builder PixelFormat.all s
    with ⟨calls, hAsks, hEnd⟩
  refine ⟨calls, ?_⟩
  rw [run_build]
  generalize
    (buildList builder PixelFormat.all).run s =
      built at hAsks hEnd
  rcases built with ⟨fault | tables, last⟩
  · exact ⟨hAsks, hEnd⟩
  · rcases hEnd with ⟨hFormats, hTables⟩
    refine ⟨hAsks, hFormats, ?_, ?_⟩
    · have hLayouts := tables.property
      rw [Fits, ← hTables, ← hFormats, List.map_map,
        List.map_map] at hLayouts
      exact List.map_inj_left.mp hLayouts
    · rw [hTables]
      exact lists_ofTables tables.property

------------------------------------------------------------
-- Finding Tables
------------------------------------------------------------

/- No format is listed twice. -/
theorem nodup_all : PixelFormat.all.Nodup := by
  decide

section Places

variable {bank : SwizzleBank}
variable {calls : List BuilderCall}
variable (hFormats :
  calls.map BuilderCall.format = PixelFormat.all)

include hFormats

/- The call for a format is at the place of the format. -/
theorem getElem?_index_of_mem_calls
    {call : BuilderCall}
    (hCall : call ∈ calls) :
    calls[call.format.index.val]? = some call := by
  rcases List.mem_iff_getElem?.mp hCall with ⟨i, hGet⟩
  have hFormat : PixelFormat.all[i]? = some call.format := by
    rw [← hFormats, List.getElem?_map, hGet]
    rfl
  have hLt : i < PixelFormat.all.length :=
    (List.getElem?_eq_some_iff.mp hFormat).1
  have hIndex : i = call.format.index.val :=
    (List.getElem?_inj hLt nodup_all).mp
      (hFormat.trans call.format.all_getElem?_index.symm)
  rw [← hIndex, hGet]

/- Calls for one format are one call. -/
theorem eq_of_format_eq
    {call other : BuilderCall}
    (hCall : call ∈ calls)
    (hOther : other ∈ calls)
    (hFormat : other.format = call.format) :
    other = call := by
  have hHere := getElem?_index_of_mem_calls hFormats hCall
  have hThere := getElem?_index_of_mem_calls hFormats hOther
  rw [hFormat, hHere] at hThere
  exact (Option.some.inj hThere).symm

/- The table at the place of a call is that of the call. -/
theorem get_of_mem_calls
    (hLists : bank.Lists (calls.map BuilderCall.table))
    {call : BuilderCall}
    (hCall : call ∈ calls) :
    bank.get call.format = call.table := by
  have hPlace := hLists call.format
  rw [List.getElem?_map,
    getElem?_index_of_mem_calls hFormats hCall] at hPlace
  exact (Option.some.inj hPlace).symm

end Places

------------------------------------------------------------
-- Roles
------------------------------------------------------------

/-
  The formats of a role are storage formats, in their order,
  and each of these is read back as the format that is
  stored in it.
-/
structure Converts
    {ρ : Type}
    (formats : List ρ)
    (store : ρ → PixelFormat)
    (role : PixelFormat → Except UnknownFormat ρ) :
    Prop where
  listed : ∀ f, f ∈ formats
  inOrder : (formats.map store).Sublist PixelFormat.all
  stored : ∀ f, role (store f) = .ok f
  read :
    ∀ format f, role format = .ok f → store f = format

/- Frame buffer formats convert to storage formats. -/
theorem converts_frame :
    Converts FrameFormat.all FrameFormat.pixelFormat
      FrameFormat.ofPixelFormat where
  listed f := by cases f <;> decide
  inOrder := by decide
  stored f := by cases f <;> rfl
  read format f hRole := by
    cases format <;> cases hRole <;> rfl

/- Depth formats convert to storage formats. -/
theorem converts_depth :
    Converts DepthFormat.all DepthFormat.pixelFormat
      DepthFormat.ofPixelFormat where
  listed f := by cases f <;> decide
  inOrder := by decide
  stored f := by cases f <;> rfl
  read format f hRole := by
    cases format <;> cases hRole <;> rfl

/- Texture formats convert to storage formats. -/
theorem converts_texture :
    Converts TextureFormat.all TextureFormat.pixelFormat
      TextureFormat.ofPixelFormat where
  listed f := by cases f <;> decide
  inOrder := by decide
  stored f := by cases f <;> rfl
  read format f hRole := by
    cases format <;> cases hRole <;> rfl

/- Palette formats convert to storage formats. -/
theorem converts_palette :
    Converts PaletteFormat.all PaletteFormat.pixelFormat
      PaletteFormat.ofPixelFormat where
  listed f := by cases f <;> decide
  inOrder := by decide
  stored f := by cases f <;> rfl
  read format f hRole := by
    cases format <;> cases hRole <;> rfl

/-
  A bank hands out the tables of calls through a role.  All
  formats of the role were asked for in their order, and
  each finds the table of the one call for it.
-/
structure FoundThrough
    {ρ : Type}
    (bank : SwizzleBank)
    (calls : List BuilderCall)
    (formats : List ρ)
    (store : ρ → PixelFormat)
    (role : PixelFormat → Except UnknownFormat ρ) :
    Prop where
  listed : ∀ f, f ∈ formats
  inOrder :
    (formats.map store).Sublist
      (calls.map BuilderCall.format)
  found :
    ∀ f, ∃ call ∈ calls,
      bank.get (store f) = call.table ∧
        ∀ other ∈ calls,
          role other.format = .ok f ↔ other = call

/- A role that converts finds the tables of all calls. -/
theorem Converts.foundThrough
    {ρ : Type}
    {formats : List ρ}
    {store : ρ → PixelFormat}
    {role : PixelFormat → Except UnknownFormat ρ}
    (hConverts : Converts formats store role)
    {bank : SwizzleBank}
    {calls : List BuilderCall}
    (hFormats :
      calls.map BuilderCall.format = PixelFormat.all)
    (hTables :
      ∀ call ∈ calls, bank.get call.format = call.table) :
    FoundThrough bank calls formats store role where
  listed := hConverts.listed
  inOrder := by
    rw [hFormats]
    exact hConverts.inOrder
  found f := by
    have hMem : store f ∈ calls.map BuilderCall.format := by
      rw [hFormats]
      exact PixelFormat.mem_all _
    rcases List.mem_map.mp hMem with ⟨call, hCall, hStore⟩
    refine ⟨call, hCall, ?_, ?_⟩
    · rw [← hStore]
      exact hTables call hCall
    · intro other hOther
      constructor
      · intro hRole
        have hRead := hConverts.read _ f hRole
        exact eq_of_format_eq hFormats hCall hOther
          (hRead.symm.trans hStore.symm)
      · rintro rfl
        rw [hStore]
        exact hConverts.stored f

end SwizzleBank

end PagedRaster
