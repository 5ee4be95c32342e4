import PagedRaster.Proofs.Fragment.Commute

/-
  This file proves what depth-tested fragments leave behind
  when they overlap: at every position the greatest depth,
  and, without blending, the colour of the fragment that
  the depth test lets win.

  Key definitions include:
    * `DrawState.depthAt`, `DrawState.pixelAt`
    * `DrawState.offered`
    * `DrawState.visible`
    * `DrawState.Separate`

  Key theorems include:
    * `DrawState.visible_cons`
    * `DrawState.depthAt_shadeAll`
    * `DrawState.pixelAt_shadeAll`
    * `DrawState.hiddenSurface_removal`
-/

namespace PagedRaster

------------------------------------------------------------
-- Greatest Words
------------------------------------------------------------

/- The greater of two words is their maximum. -/
instance lawfulMaxWord :
    Std.LawfulOrderLeftLeaningMax UInt32 := by
  apply Std.LawfulOrderLeftLeaningMax.of_eq
  intro first second
  simp only [max]
  by_cases hUp : first ≤ second
  · by_cases hDown : second ≤ first
    · rw [if_pos hUp, if_pos hDown]
      exact Std.le_antisymm hDown hUp
    · rw [if_pos hUp, if_neg hDown]
  · have hDown : second ≤ first :=
      Std.le_of_not_ge hUp
    rw [if_neg hUp, if_pos hDown]

namespace DepthTest

/- A depth test that keeps greater depths. -/
def KeepsGreater
    (test : DepthTest) : Prop :=
  test = .greaterEqual ∨ test = .greater

/- A passed depth test stores the greater of two depths. -/
theorem KeepsGreater.stored_eq_max
    {test : DepthTest}
    (hKeeps : test.KeepsGreater)
    (depth stored : UInt32) :
    (if test.passes depth fun _ => stored then
        depth
      else
        stored) =
      max stored depth := by
  rcases hKeeps with rfl | rfl
  · simp only [passes, decide_eq_true_eq, max]
  · simp only [passes, decide_eq_true_eq, Std.max_eq_if,
      ← Std.not_le, ite_not]

end DepthTest

namespace DrawState

/- The greatest of a depth and the depths of fragments. -/
def greatestDepth
    (state : DrawState)
    (before : UInt32)
    (offered : List Fragment) : UInt32 :=
  (offered.map state.shadedDepth).foldl max before

/- No depth lies above the greatest one. -/
theorem le_greatestDepth
    (state : DrawState)
    (before : UInt32)
    (offered : List Fragment) :
    before ≤ state.greatestDepth before offered ∧
      ∀ fragment ∈ offered,
        state.shadedDepth fragment ≤
          state.greatestDepth before offered := by
  have hGreatest :
      (before :: offered.map state.shadedDepth).max? =
        some (state.greatestDepth before offered) :=
    rfl
  have hAll := (List.max?_eq_some_iff.mp hGreatest).2
  constructor
  · exact hAll before List.mem_cons_self
  · intro fragment hFragment
    apply hAll
    apply List.mem_cons_of_mem
    exact List.mem_map_of_mem hFragment

/- The greatest depth is the first one or a fragment's. -/
theorem greatestDepth_mem
    (state : DrawState)
    (before : UInt32)
    (offered : List Fragment) :
    state.greatestDepth before offered = before ∨
      ∃ fragment ∈ offered,
        state.shadedDepth fragment =
          state.greatestDepth before offered := by
  have hGreatest :
      (before :: offered.map state.shadedDepth).max? =
        some (state.greatestDepth before offered) :=
    rfl
  have hMem := (List.max?_eq_some_iff.mp hGreatest).1
  rcases List.mem_cons.mp hMem with hSame | hMapped
  · exact Or.inl hSame
  · exact Or.inr (List.mem_map.mp hMapped)

/- More fragments leave no smaller depth. -/
theorem greatestDepth_mono
    {state : DrawState}
    {offered others : List Fragment}
    (hSubset : offered ⊆ others)
    (before : UInt32) :
    state.greatestDepth before offered ≤
      state.greatestDepth before others := by
  have hAll := state.le_greatestDepth before others
  rcases state.greatestDepth_mem before offered with
    hSame | ⟨fragment, hFragment, hDepth⟩
  · rw [hSame]
    exact hAll.1
  · rw [← hDepth]
    exact hAll.2 fragment (hSubset hFragment)

------------------------------------------------------------
-- Visible Fragments
------------------------------------------------------------

/- The fragments that have a depth. -/
def attaining
    (state : DrawState)
    (depth : UInt32)
    (offered : List Fragment) : List Fragment :=
  offered.filter fun fragment =>
    state.shadedDepth fragment == depth

/-
  The fragment that is seen in the end, above a stored
  depth: of those that attain the greatest depth the last
  one if equal depths pass, and else the first one.
-/
def visible
    (state : DrawState)
    (before : UInt32)
    (offered : List Fragment) : Option Fragment :=
  let most := state.greatestDepth before offered
  if state.descriptor.depthTest.passes most
      fun _ => before then
    if state.descriptor.depthTest = .greaterEqual then
      (state.attaining most offered).getLast?
    else
      (state.attaining most offered).head?
  else
    none

/- Some fragment attains a depth that has grown. -/
theorem attaining_ne_nil
    {state : DrawState}
    {before : UInt32}
    {offered : List Fragment}
    (hGrown :
      before ≠ state.greatestDepth before offered) :
    state.attaining (state.greatestDepth before offered)
      offered ≠ [] := by
  rcases state.greatestDepth_mem before offered with
    hSame | ⟨fragment, hFragment, hDepth⟩
  · exact absurd hSame.symm hGrown
  · apply List.ne_nil_of_mem (a := fragment)
    apply List.mem_filter.mpr
    exact ⟨hFragment, beq_iff_eq.mpr hDepth⟩

/- What is seen if equal depths pass. -/
theorem visible_of_greaterEqual
    {state : DrawState}
    (hTest : state.descriptor.depthTest = .greaterEqual)
    (before : UInt32)
    (offered : List Fragment) :
    state.visible before offered =
      (state.attaining
        (state.greatestDepth before offered)
        offered).getLast? := by
  have hBefore := (state.le_greatestDepth before offered).1
  unfold visible
  simp only [hTest, DepthTest.passes, hBefore,
    decide_true, if_true]

/- What is seen if only greater depths pass. -/
theorem visible_of_greater
    {state : DrawState}
    (hTest : state.descriptor.depthTest = .greater)
    (before : UInt32)
    (offered : List Fragment) :
    state.visible before offered =
      if before < state.greatestDepth before offered then
        (state.attaining
          (state.greatestDepth before offered)
          offered).head?
      else
        none := by
  unfold visible
  simp only [hTest, DepthTest.passes, decide_eq_true_eq,
    reduceCtorEq, if_false]

/- Where nothing is offered, nothing is seen. -/
@[simp]
theorem visible_nil
    (state : DrawState)
    (before : UInt32) :
    state.visible before [] = none := by
  simp [visible, attaining]

/- A fragment counts if it attains the depth. -/
theorem attaining_cons
    (state : DrawState)
    (depth : UInt32)
    (fragment : Fragment)
    (rest : List Fragment) :
    state.attaining depth (fragment :: rest) =
      if state.shadedDepth fragment = depth then
        fragment :: state.attaining depth rest
      else
        state.attaining depth rest := by
  unfold attaining
  rw [List.filter_cons]
  simp only [beq_iff_eq]

/-
  Where equal depths pass, a fragment that passes is seen
  unless a later one hides it.
-/
theorem visible_cons_of_greaterEqual
    {state : DrawState}
    (hTest : state.descriptor.depthTest = .greaterEqual)
    (before : UInt32)
    (fragment : Fragment)
    (rest : List Fragment) :
    state.visible before (fragment :: rest) =
      (state.visible
          (max before (state.shadedDepth fragment))
          rest).or
        (if before ≤ state.shadedDepth fragment then
          some fragment
        else
          none) := by
  have hMost :
      state.greatestDepth before (fragment :: rest) =
        state.greatestDepth
          (max before (state.shadedDepth fragment)) rest :=
    rfl
  have hLe := (state.le_greatestDepth before
    (fragment :: rest)).1
  rw [visible_of_greaterEqual hTest,
    visible_of_greaterEqual hTest, attaining_cons]
  rw [hMost] at hLe ⊢
  by_cases hAttains :
      state.shadedDepth fragment =
        state.greatestDepth
          (max before (state.shadedDepth fragment)) rest
  · rw [← hAttains] at hLe ⊢
    rw [if_pos rfl, if_pos hLe, List.getLast?_cons,
      Option.or_some]
  · rw [if_neg hAttains]
    by_cases hPasses :
        before ≤ state.shadedDepth fragment
    · have hMax :
          max before (state.shadedDepth fragment) =
            state.shadedDepth fragment :=
        if_pos hPasses
      rw [hMax] at hAttains ⊢
      have hLast :=
        List.getLast?_isSome.mpr (attaining_ne_nil hAttains)
      rw [Option.or_of_isSome hLast]
    · rw [if_neg hPasses, Option.or_none]

/-
  Where only greater depths pass, a fragment that passes is
  seen unless a later one hides it.
-/
theorem visible_cons_of_greater
    {state : DrawState}
    (hTest : state.descriptor.depthTest = .greater)
    (before : UInt32)
    (fragment : Fragment)
    (rest : List Fragment) :
    state.visible before (fragment :: rest) =
      (state.visible
          (max before (state.shadedDepth fragment))
          rest).or
        (if before < state.shadedDepth fragment then
          some fragment
        else
          none) := by
  have hMost :
      state.greatestDepth before (fragment :: rest) =
        state.greatestDepth
          (max before (state.shadedDepth fragment)) rest :=
    rfl
  rw [visible_of_greater hTest, visible_of_greater hTest,
    attaining_cons, hMost]
  by_cases hPasses : before < state.shadedDepth fragment
  · have hMax :
        max before (state.shadedDepth fragment) =
          state.shadedDepth fragment :=
      if_pos (Std.le_of_lt hPasses)
    have hLe :=
      (state.le_greatestDepth
        (state.shadedDepth fragment) rest).1
    rw [hMax, if_pos hPasses,
      if_pos (Std.lt_of_lt_of_le hPasses hLe)]
    by_cases hAttains :
        state.shadedDepth fragment =
          state.greatestDepth
            (state.shadedDepth fragment) rest
    · rw [if_pos hAttains, ← hAttains,
        if_neg Std.lt_irrefl]
      rfl
    · rw [if_neg hAttains,
        if_pos (Std.lt_of_le_of_ne hLe hAttains)]
      have hFirst :=
        List.isSome_head?.mpr (attaining_ne_nil hAttains)
      rw [Option.or_of_isSome hFirst]
  · have hLe : state.shadedDepth fragment ≤ before :=
      Std.not_lt.mp hPasses
    have hMax :
        max before (state.shadedDepth fragment) =
          before := by
      rw [Std.max_eq_if, if_pos hLe]
    rw [hMax, if_neg hPasses, Option.or_none]
    by_cases hGrows :
        before < state.greatestDepth before rest
    · have hBelow :
          state.shadedDepth fragment ≠
            state.greatestDepth before rest := by
        intro hSame
        rw [← hSame] at hGrows
        exact hPasses hGrows
      rw [if_pos hGrows, if_pos hGrows, if_neg hBelow]
    · rw [if_neg hGrows, if_neg hGrows]

/-
  A fragment that passes the test is seen unless a later
  one hides it.
-/
theorem visible_cons
    {state : DrawState}
    (hKeeps : state.descriptor.depthTest.KeepsGreater)
    (before : UInt32)
    (fragment : Fragment)
    (rest : List Fragment) :
    state.visible before (fragment :: rest) =
      (state.visible
          (max before (state.shadedDepth fragment))
          rest).or
        (if state.descriptor.depthTest.passes
            (state.shadedDepth fragment) fun _ => before then
          some fragment
        else
          none) := by
  rcases hKeeps with hTest | hTest
  · rw [visible_cons_of_greaterEqual hTest, hTest]
    simp only [DepthTest.passes, decide_eq_true_eq]
  · rw [visible_cons_of_greater hTest, hTest]
    simp only [DepthTest.passes, decide_eq_true_eq]

end DrawState

------------------------------------------------------------
-- Positions
------------------------------------------------------------

/- The position of a fragment. -/
def Fragment.place
    (fragment : Fragment) : Int32 × Int32 :=
  (fragment.x, fragment.y)

namespace DrawState

/- The depth stored at a position. -/
def depthAt
    (state : DrawState)
    (memory : Memory)
    (place : Int32 × Int32) : UInt32 :=
  memory.read state.descriptor.depth.width
    (state.depthAddress place.1 place.2)

/- The pixel stored at a position. -/
def pixelAt
    (state : DrawState)
    (memory : Memory)
    (place : Int32 × Int32) : UInt32 :=
  memory.read state.descriptor.frame.width
    (state.frameAddress place.1 place.2)

/-
  The fragments at a position that pass the alpha test, by
  their own colour.
-/
def offered
    (state : DrawState)
    (fragments : List Fragment)
    (place : Int32 × Int32) : List Fragment :=
  fragments.filter fun fragment =>
    decide (fragment.place = place) &&
      state.alphaPasses fragment.color

/-
  The cells of different positions share no bit, and no
  pixel shares a bit with a depth.
-/
structure Separate
    (state : DrawState)
    (places : List (Int32 × Int32)) : Prop where
  planes :
    ∀ place ∈ places, ∀ other ∈ places, ∀ i,
      state.InFrame place.1 place.2 i →
        ¬state.InDepth other.1 other.2 i
  depths :
    ∀ place ∈ places, ∀ other ∈ places, place ≠ other →
      ∀ i, state.InDepth place.1 place.2 i →
        ¬state.InDepth other.1 other.2 i
  frames :
    ∀ place ∈ places, ∀ other ∈ places, place ≠ other →
      ∀ i, state.InFrame place.1 place.2 i →
        ¬state.InFrame other.1 other.2 i

/- Tables that pack separate the positions of buffers. -/
theorem Packs.separate
    {state : DrawState}
    {places : List (Int32 × Int32)}
    (hPacks : state.Packs)
    (hFrame :
      ∀ place ∈ places,
        InBuffer state.descriptor.frame.pixelFormat.storage
          state.params.frameWidth place.1 place.2)
    (hDepth :
      ∀ place ∈ places,
        InBuffer state.descriptor.depth.pixelFormat.storage
          state.params.depthWidth place.1 place.2)
    (hPlanes :
      ∀ place ∈ places, ∀ other ∈ places, ∀ i,
        state.InFrame place.1 place.2 i →
          ¬state.InDepth other.1 other.2 i) :
    state.Separate places where
  planes := hPlanes
  depths := by
    intro place hPlace other hOther hNe
    exact hPacks.depth_apart (hDepth place hPlace)
      (hDepth other hOther) hNe
  frames := by
    intro place hPlace other hOther hNe
    exact hPacks.frame_apart (hFrame place hPlace)
      (hFrame other hOther) hNe

/-
  Draws without a texture that keep the greater depth and
  store it.
-/
structure HidesSurfaces
    (state : DrawState) : Prop where
  untextured : state.descriptor.textured = false
  keepsGreater : state.descriptor.depthTest.KeepsGreater
  writesDepth : state.descriptor.writesDepth = true

/- Draws that replace the whole pixel. -/
structure Opaque
    (state : DrawState) : Prop where
  unblended : state.descriptor.blends = false
  unmasked : state.params.writeMask = 0xFFFFFFFF

/- The pixel that holds the colour of a fragment. -/
def encodedPixel
    (state : DrawState)
    (fragment : Fragment) : UInt32 :=
  state.descriptor.frame.encode fragment.color &&&
    state.descriptor.frame.width.mask

/- The pixel of a fragment, or else a background. -/
def shown
    (state : DrawState)
    (background : UInt32) : Option Fragment → UInt32
  | some fragment => state.encodedPixel fragment
  | none => background

/- What is hidden by nothing shows through. -/
theorem shown_or
    (state : DrawState)
    (background : UInt32)
    (front back : Option Fragment) :
    state.shown background (front.or back) =
      state.shown (state.shown background back) front := by
  cases front with
  | none => rfl
  | some fragment => rfl

/- The fragments offered to a position, one at a time. -/
theorem offered_cons
    (state : DrawState)
    (fragment : Fragment)
    (rest : List Fragment)
    (place : Int32 × Int32) :
    state.offered (fragment :: rest) place =
      if fragment.place = place ∧
          state.alphaPasses fragment.color = true then
        fragment :: state.offered rest place
      else
        state.offered rest place := by
  unfold offered
  rw [List.filter_cons]
  simp only [Bool.and_eq_true, decide_eq_true_eq]

------------------------------------------------------------
-- One Fragment
------------------------------------------------------------

section Step

variable {state : DrawState}
variable {fragment : Fragment}
variable {places : List (Int32 × Int32)}
variable {place : Int32 × Int32}

/- Which fragments pass both tests. -/
theorem commits_eq
    (hHides : state.HidesSurfaces)
    (memory : Memory)
    (fragment : Fragment) :
    state.commits memory fragment =
      (state.alphaPasses fragment.color &&
        state.descriptor.depthTest.passes
          (state.shadedDepth fragment)
          fun _ => state.depthAt memory fragment.place) := by
  unfold commits sourceColor
  rw [hHides.untextured]
  rfl

/- What a fragment stores, the pixel first. -/
theorem snd_shade
    (hHides : state.HidesSurfaces)
    (memory : Memory)
    (fragment : Fragment) :
    (state.shade memory fragment).2 =
      if state.commits memory fragment then
        (memory.write state.descriptor.frame.width
            (state.frameAddress fragment.x fragment.y)
            (state.shadedPixel memory fragment)).write
          state.descriptor.depth.width
          (state.depthAddress fragment.x fragment.y)
          (state.shadedDepth fragment)
      else
        memory := by
  rw [shade_eq]
  simp only [store, hHides.writesDepth, if_true]

/- A fragment leaves the depths of other positions. -/
theorem depthAt_shade_of_ne
    (hSeparate : state.Separate places)
    (hFragment : fragment.place ∈ places)
    (hPlace : place ∈ places)
    (hOther : fragment.place ≠ place)
    (memory : Memory) :
    state.depthAt (state.shade memory fragment).2 place =
      state.depthAt memory place := by
  apply Memory.read_congr
  apply agreeOn_shade
  intro i hWrites hDepth
  rcases hWrites with hFrame | ⟨_, hWritten⟩
  · exact hSeparate.planes fragment.place hFragment place
      hPlace i hFrame hDepth
  · exact hSeparate.depths fragment.place hFragment place
      hPlace hOther i hWritten hDepth

/- A fragment leaves the pixels of other positions. -/
theorem pixelAt_shade_of_ne
    (hSeparate : state.Separate places)
    (hFragment : fragment.place ∈ places)
    (hPlace : place ∈ places)
    (hOther : fragment.place ≠ place)
    (memory : Memory) :
    state.pixelAt (state.shade memory fragment).2 place =
      state.pixelAt memory place := by
  apply Memory.read_congr
  apply agreeOn_shade
  intro i hWrites hFrame
  rcases hWrites with hWritten | ⟨_, hDepth⟩
  · exact hSeparate.frames fragment.place hFragment place
      hPlace hOther i hWritten hFrame
  · exact hSeparate.planes place hPlace fragment.place
      hFragment i hFrame hDepth

/- A fragment leaves the greatest depth at its position. -/
theorem depthAt_shade_self
    (hHides : state.HidesSurfaces)
    (memory : Memory)
    (fragment : Fragment) :
    state.depthAt (state.shade memory fragment).2
        fragment.place =
      if state.alphaPasses fragment.color then
        max (state.depthAt memory fragment.place)
          (state.shadedDepth fragment)
      else
        state.depthAt memory fragment.place := by
  have hMax :=
    hHides.keepsGreater.stored_eq_max
      (state.shadedDepth fragment)
      (state.depthAt memory fragment.place)
  rw [snd_shade hHides, commits_eq hHides, ← hMax]
  by_cases hAlpha : state.alphaPasses fragment.color = true
  · by_cases hPasses :
        (state.descriptor.depthTest.passes
          (state.shadedDepth fragment) fun _ =>
            state.depthAt memory fragment.place) = true
    · simp only [hAlpha, hPasses, Bool.and_self, if_true]
      exact (Memory.read_write_self _ _ _ _).trans
        (state.shadedDepth_and_mask fragment)
    · simp only [hAlpha, hPasses, Bool.and_false, if_true,
        Bool.false_eq_true, if_false]
  · simp only [hAlpha, Bool.false_and, Bool.false_eq_true,
      if_false]

/- A fragment that passes both tests leaves its pixel. -/
theorem pixelAt_shade_self
    (hHides : state.HidesSurfaces)
    (hOpaque : state.Opaque)
    (hSeparate : state.Separate places)
    (hFragment : fragment.place ∈ places)
    (memory : Memory) :
    state.pixelAt (state.shade memory fragment).2
        fragment.place =
      if state.commits memory fragment then
        state.encodedPixel fragment
      else
        state.pixelAt memory fragment.place := by
  have hPixel :
      state.shadedPixel memory fragment =
        state.descriptor.frame.encode fragment.color := by
    rw [state.shadedPixel_of_unblended memory fragment
      hOpaque.unblended hOpaque.unmasked]
    unfold sourceColor
    rw [hHides.untextured, if_neg Bool.false_ne_true]
  have hApart :
      Apart state.descriptor.frame.width
        (state.frameAddress fragment.x fragment.y)
        state.descriptor.depth.width
        (state.depthAddress fragment.x fragment.y) :=
    hSeparate.planes fragment.place hFragment
      fragment.place hFragment
  rw [snd_shade hHides, hPixel]
  by_cases hCommits : state.commits memory fragment = true
  · rw [if_pos hCommits, if_pos hCommits]
    exact (Memory.read_write_of_apart hApart _ _).trans
      (Memory.read_write_self _ _ _ _)
  · rw [if_neg hCommits, if_neg hCommits]

/- What a fragment does to the depth of any position. -/
theorem depthAt_shade
    (hHides : state.HidesSurfaces)
    (hSeparate : state.Separate places)
    (hFragment : fragment.place ∈ places)
    (hPlace : place ∈ places)
    (memory : Memory) :
    state.depthAt (state.shade memory fragment).2 place =
      if fragment.place = place ∧
          state.alphaPasses fragment.color = true then
        max (state.depthAt memory place)
          (state.shadedDepth fragment)
      else
        state.depthAt memory place := by
  by_cases hSame : fragment.place = place
  · subst place
    rw [depthAt_shade_self hHides]
    simp only [true_and]
  · rw [depthAt_shade_of_ne hSeparate hFragment hPlace
      hSame, if_neg (fun hBoth => hSame hBoth.1)]

/- What a fragment does to the pixel of any position. -/
theorem pixelAt_shade
    (hHides : state.HidesSurfaces)
    (hOpaque : state.Opaque)
    (hSeparate : state.Separate places)
    (hFragment : fragment.place ∈ places)
    (hPlace : place ∈ places)
    (memory : Memory) :
    state.pixelAt (state.shade memory fragment).2 place =
      if fragment.place = place ∧
          state.alphaPasses fragment.color = true then
        if state.descriptor.depthTest.passes
            (state.shadedDepth fragment)
            fun _ => state.depthAt memory place then
          state.encodedPixel fragment
        else
          state.pixelAt memory place
      else
        state.pixelAt memory place := by
  by_cases hSame : fragment.place = place
  · subst place
    rw [pixelAt_shade_self hHides hOpaque hSeparate
      hFragment, commits_eq hHides]
    by_cases hAlpha :
        state.alphaPasses fragment.color = true
    · simp only [hAlpha, Bool.true_and, and_self, if_true]
    · simp only [hAlpha, Bool.false_and,
        Bool.false_eq_true, and_false, if_false]
  · rw [pixelAt_shade_of_ne hSeparate hFragment hPlace
      hSame, if_neg (fun hBoth => hSame hBoth.1)]

end Step

------------------------------------------------------------
-- Whole Runs
------------------------------------------------------------

section Run

variable {state : DrawState}
variable {places : List (Int32 × Int32)}
variable {fragments : List Fragment}
variable {place : Int32 × Int32}

/- A run leaves the greatest depth at every position. -/
theorem depthAt_shadeAll
    (hHides : state.HidesSurfaces)
    (hSeparate : state.Separate places)
    (hFragments :
      ∀ fragment ∈ fragments, fragment.place ∈ places)
    (hPlace : place ∈ places)
    (memory : Memory) :
    state.depthAt (state.shadeAll memory fragments).2
        place =
      state.greatestDepth (state.depthAt memory place)
        (state.offered fragments place) := by
  induction fragments generalizing memory with
  | nil => rfl
  | cons fragment rest ih =>
      rcases List.forall_mem_cons.mp hFragments with
        ⟨hFragment, hRest⟩
      refine (ih hRest _).trans ?_
      rw [depthAt_shade hHides hSeparate hFragment hPlace,
        offered_cons]
      by_cases hOffered :
          fragment.place = place ∧
            state.alphaPasses fragment.color = true
      · rw [if_pos hOffered, if_pos hOffered]
        rfl
      · rw [if_neg hOffered, if_neg hOffered]

/-
  A run of opaque fragments leaves the visible one at every
  position.
-/
theorem pixelAt_shadeAll
    (hHides : state.HidesSurfaces)
    (hOpaque : state.Opaque)
    (hSeparate : state.Separate places)
    (hFragments :
      ∀ fragment ∈ fragments, fragment.place ∈ places)
    (hPlace : place ∈ places)
    (memory : Memory) :
    state.pixelAt (state.shadeAll memory fragments).2
        place =
      state.shown (state.pixelAt memory place)
        (state.visible (state.depthAt memory place)
          (state.offered fragments place)) := by
  induction fragments generalizing memory with
  | nil =>
      have hNone : state.offered [] place = [] := rfl
      rw [hNone, visible_nil]
      rfl
  | cons fragment rest ih =>
      rcases List.forall_mem_cons.mp hFragments with
        ⟨hFragment, hRest⟩
      refine (ih hRest _).trans ?_
      rw [depthAt_shade hHides hSeparate hFragment hPlace,
        pixelAt_shade hHides hOpaque hSeparate hFragment
          hPlace,
        offered_cons]
      by_cases hOffered :
          fragment.place = place ∧
            state.alphaPasses fragment.color = true
      · rw [if_pos hOffered, if_pos hOffered,
          if_pos hOffered, visible_cons hHides.keepsGreater,
          shown_or]
        by_cases hPasses :
            (state.descriptor.depthTest.passes
              (state.shadedDepth fragment) fun _ =>
                state.depthAt memory place) = true
        · rw [if_pos hPasses, if_pos hPasses]
          rfl
        · rw [if_neg hPasses, if_neg hPasses]
          rfl
      · rw [if_neg hOffered, if_neg hOffered,
          if_neg hOffered]

/-
  Hidden surfaces are removed.  At every position the
  greatest of the stored depth and the offered depths is
  left; it never falls along the run, and the order of the
  fragments does not matter to it.  Opaque fragments also
  leave the visible one, or the pixel that was there.
-/
theorem hiddenSurface_removal
    (hHides : state.HidesSurfaces)
    (hSeparate : state.Separate places)
    (hFragments :
      ∀ fragment ∈ fragments, fragment.place ∈ places)
    (hPlace : place ∈ places)
    (memory : Memory) :
    (state.depthAt memory place ::
          (state.offered fragments place).map
            state.shadedDepth).max? =
        some
          (state.depthAt (state.shadeAll memory fragments).2
            place) ∧
      (∀ m n, m ≤ n →
        state.depthAt
            (state.shadeAll memory (fragments.take m)).2
            place ≤
          state.depthAt
            (state.shadeAll memory (fragments.take n)).2
            place) ∧
      (∀ order, order.Perm fragments →
        state.depthAt (state.shadeAll memory order).2
            place =
          state.depthAt (state.shadeAll memory fragments).2
            place) ∧
      (state.Opaque →
        state.pixelAt (state.shadeAll memory fragments).2
            place =
          state.shown (state.pixelAt memory place)
            (state.visible (state.depthAt memory place)
              (state.offered fragments place))) := by
  refine ⟨?_, ?_, ?_, ?_⟩
  · rw [depthAt_shadeAll hHides hSeparate hFragments
      hPlace]
    rfl
  · intro m n hPrefix
    have hTaken :
        ∀ k, ∀ fragment ∈ fragments.take k,
          fragment.place ∈ places := by
      intro k fragment hFragment
      exact hFragments fragment
        (List.mem_of_mem_take hFragment)
    rw [depthAt_shadeAll hHides hSeparate (hTaken m) hPlace,
      depthAt_shadeAll hHides hSeparate (hTaken n) hPlace]
    apply greatestDepth_mono
    exact List.filter_subset _
      (List.take_subset_take_left fragments hPrefix)
  · intro order hOrder
    have hOrdered :
        ∀ fragment ∈ order, fragment.place ∈ places := by
      intro fragment hFragment
      exact hFragments fragment (hOrder.mem_iff.mp hFragment)
    rw [depthAt_shadeAll hHides hSeparate hOrdered hPlace,
      depthAt_shadeAll hHides hSeparate hFragments hPlace]
    apply Std.le_antisymm
    · exact greatestDepth_mono
        (List.filter_subset _ hOrder.subset) _
    · exact greatestDepth_mono
        (List.filter_subset _ hOrder.symm.subset) _
  · intro hOpaque
    exact pixelAt_shadeAll hHides hOpaque hSeparate
      hFragments hPlace memory

end Run

------------------------------------------------------------
-- Overdrawn Neighbours
------------------------------------------------------------

/- An opaque draw into the same buffers as `halfWords`. -/
def overdraw : DrawState :=
  { halfWords with
    descriptor :=
      { frame := .ct16
        depth := .z16
        alphaTest := .greaterEqual
        depthTest := .greater
        writesDepth := true } }

/- Every neighbour twice, nearer the second time. -/
def overdrawn : List Fragment :=
  neighbours ++
    neighbours.reverse.map fun fragment =>
      { fragment with depth := 0.75 }

/- The positions of the neighbours are separate. -/
theorem separate_neighbours :
    overdraw.Separate (neighbours.map Fragment.place) := by
  have hPacks : overdraw.Packs :=
    ⟨packs_halfWords.frame, packs_halfWords.depth⟩
  apply hPacks.separate
  · intro place hPlace
    rcases List.mem_map.mp hPlace with
      ⟨fragment, hFragment, rfl⟩
    exact nonOverlapping_neighbours.inFrame fragment
      hFragment
  · intro place hPlace
    rcases List.mem_map.mp hPlace with
      ⟨fragment, hFragment, rfl⟩
    exact nonOverlapping_neighbours.inDepth fragment
      hFragment
  · intro place hPlace other hOther
    rcases List.mem_map.mp hPlace with
      ⟨fragment, hFragment, rfl⟩
    rcases List.mem_map.mp hOther with
      ⟨fragment', hFragment', rfl⟩
    exact halfWords_planes hFragment hFragment'

/- Overdrawn neighbours that share a word keep apart. -/
theorem hiddenSurface_overdrawn :
    overdraw.HidesSurfaces ∧
      overdraw.Separate (neighbours.map Fragment.place) ∧
      (∀ fragment ∈ overdrawn,
        fragment.place ∈ neighbours.map Fragment.place) ∧
      (1, 0) ∈ neighbours.map Fragment.place ∧
      overdraw.Opaque ∧
      overdraw.pixelAt
          (overdraw.shadeAll Memory.empty overdrawn).2
          (1, 0) =
        overdraw.shown
          (overdraw.pixelAt Memory.empty (1, 0))
          (overdraw.visible
            (overdraw.depthAt Memory.empty (1, 0))
            (overdraw.offered overdrawn (1, 0))) := by
  have hHides : overdraw.HidesSurfaces :=
    ⟨rfl, Or.inr rfl, rfl⟩
  have hFragments :
      ∀ fragment ∈ overdrawn,
        fragment.place ∈ neighbours.map Fragment.place := by
    decide
  have hPlace :
      (1, 0) ∈ neighbours.map Fragment.place := by
    decide
  have hOpaque : overdraw.Opaque := ⟨rfl, rfl⟩
  have hRemoved :=
    hiddenSurface_removal hHides separate_neighbours
      hFragments hPlace Memory.empty
  exact ⟨hHides, separate_neighbours, hFragments, hPlace,
    hOpaque, hRemoved.2.2.2 hOpaque⟩

end DrawState

end PagedRaster
