import PagedRaster.Proofs.Program.Text

/-
  This file describes parts of lists that can be peeled off:
  whenever two lists agree that start with one part and with
  another, the parts are related and the rest agrees.  Text
  that is put together from such parts is taken apart from
  front to back.

  Key definitions include:
    * `Peels`

  Key theorems include:
    * `Peels.append`
    * `Peels.optional`
    * `Peels.indent`
    * `peels_of_neither_starts`
-/

namespace PagedRaster

/-
  Lists that start with the two parts agree only if the
  parts are related, and then in what follows them.
-/
def Peels
    {α : Type}
    (part other : List α)
    (Related : Prop) : Prop :=
  ∀ rest otherRest,
    part ++ rest = other ++ otherRest →
      Related ∧ rest = otherRest

section

variable {α : Type}
variable {part other next otherNext : List α}
variable {R S : Prop}

/- A part is peeled off itself. -/
theorem peels_refl
    (part : List α) :
    Peels part part True :=
  fun _ _ hEq => ⟨trivial, List.append_cancel_left hEq⟩

/- Parts of one length are equal where lists agree. -/
theorem peels_of_length
    (hLength : part.length = other.length)
    (hRelated : part = other → R) :
    Peels part other R := by
  intro rest otherRest hEq
  rcases List.append_inj hEq hLength with ⟨hPart, hRest⟩
  exact ⟨hRelated hPart, hRest⟩

/- Parts none of which is the start of the other. -/
theorem peels_of_neither_starts
    (hPart : ¬ part <+: other)
    (hOther : ¬ other <+: part) :
    Peels part other R := by
  intro rest otherRest hEq
  have hPrefix : part <+: other ++ otherRest := ⟨rest, hEq⟩
  rcases List.prefix_or_prefix_of_prefix hPrefix
      (List.prefix_append other otherRest) with h | h
  · exact absurd h hPart
  · exact absurd h hOther

/- Parts with different heads. -/
theorem peels_of_head_ne
    {x y : α}
    (hHead : x ≠ y) :
    Peels (x :: part) (y :: other) R := by
  intro rest otherRest hEq
  rw [List.cons_append, List.cons_append] at hEq
  exact absurd (List.head_eq_of_cons_eq hEq) hHead

/- What is related may be weakened. -/
theorem Peels.mono
    (hPeels : Peels part other R)
    (hWeaken : R → S) :
    Peels part other S := by
  intro rest otherRest hEq
  rcases hPeels rest otherRest hEq with ⟨hR, hRest⟩
  exact ⟨hWeaken hR, hRest⟩

/- Parts are peeled off in either direction. -/
theorem Peels.symm
    (hPeels : Peels part other R) :
    Peels other part R := by
  intro rest otherRest hEq
  rcases hPeels otherRest rest hEq.symm with ⟨hR, hRest⟩
  exact ⟨hR, hRest.symm⟩

/-
  Parts are peeled off one after the other; what the first
  ones show may be used for the next ones.
-/
theorem Peels.append
    (hFirst : Peels part other R)
    (hNext : R → Peels next otherNext S) :
    Peels (part ++ next) (other ++ otherNext) (R ∧ S) := by
  intro rest otherRest hEq
  rw [List.append_assoc, List.append_assoc] at hEq
  rcases hFirst _ _ hEq with ⟨hR, hRest⟩
  rcases hNext hR _ _ hRest with ⟨hS, hEnd⟩
  exact ⟨⟨hR, hS⟩, hEnd⟩

/- Elements in front of two parts. -/
theorem Peels.cons
    (hPeels : Peels part other R)
    (x y : α) :
    Peels (x :: part) (y :: other) R := by
  intro rest otherRest hEq
  exact hPeels rest otherRest (List.tail_eq_of_cons_eq hEq)

/- An equal part behind two parts. -/
theorem Peels.append_same
    (hPeels : Peels part other R)
    (same : List α) :
    Peels (part ++ same) (other ++ same) R :=
  (hPeels.append fun _ => peels_refl same).mono
    fun hBoth => hBoth.1

/-
  A part that one list may have and the other may lack is
  seen if it is told apart from what comes next.
-/
theorem Peels.optional
    {c d : Bool}
    (hPart : c = true → d = true → Peels part other R)
    (hNext : c = d → Peels next otherNext S)
    (hFirst : Peels part otherNext False)
    (hSecond : Peels next other False) :
    Peels ((if c then part else []) ++ next)
      ((if d then other else []) ++ otherNext)
      (c = d ∧ (c = true → R) ∧ S) := by
  intro rest otherRest hEq
  cases c with
  | true =>
      cases d with
      | true =>
          have hBoth :=
            (hPart rfl rfl).append fun _ => hNext rfl
          rcases hBoth rest otherRest hEq with
            ⟨⟨hR, hS⟩, hRest⟩
          exact ⟨⟨rfl, fun _ => hR, hS⟩, hRest⟩
      | false =>
          have hApart :=
            hFirst (next ++ rest) otherRest
              (by simpa using hEq)
          exact hApart.1.elim
  | false =>
      cases d with
      | true =>
          have hApart :=
            hSecond rest (otherNext ++ otherRest)
              (by simpa using hEq)
          exact hApart.1.elim
      | false =>
          rcases hNext rfl rest otherRest
              (by simpa using hEq) with
            ⟨hS, hRest⟩
          exact ⟨⟨rfl, nofun, hS⟩, hRest⟩

/- Whole lists that agree are related. -/
theorem Peels.related
    (hPeels : Peels part other R)
    (hEq : part = other) :
    R :=
  (hPeels [] [] (congrArg (· ++ []) hEq)).1

end

------------------------------------------------------------
-- Lines and Texts
------------------------------------------------------------

/- Indenting is undone. -/
theorem Lines.indent_inj
    {lines others : Lines}
    (hIndent : Lines.indent lines = Lines.indent others) :
    lines = others := by
  have hBlank :
      Function.Injective
        fun line : String => "    " ++ line :=
    fun _ _ hEq => (String.append_right_inj _).mp hEq
  exact List.map_injective_iff.mpr hBlank hIndent

/-
  An indented part that starts another one is not longer
  where the parts are peeled off.
-/
theorem Peels.indent_front
    {part other more : Lines}
    {R : Prop}
    (hPeels : Peels part other R)
    (hMore :
      Lines.indent other = Lines.indent part ++ more) :
    R ∧ more = [] := by
  rcases List.map_eq_append_iff.mp hMore with
    ⟨front, back, hSplit, hFront, hBack⟩
  have hPart : front = part := Lines.indent_inj hFront
  have hEq : part ++ back = other ++ [] := by
    rw [hSplit, hPart, List.append_nil]
  rcases hPeels back [] hEq with ⟨hR, hNone⟩
  rw [hNone] at hBack
  exact ⟨hR, hBack.symm⟩

/- Indented parts are peeled off as the parts are. -/
theorem Peels.indent
    {part other : Lines}
    {R : Prop}
    (hPeels : Peels part other R) :
    Peels (Lines.indent part) (Lines.indent other) R := by
  intro rest otherRest hEq
  rcases List.append_eq_append_iff.mp hEq with
    ⟨more, hMore, hRest⟩ | ⟨more, hMore, hRest⟩
  · rcases hPeels.indent_front hMore with ⟨hR, rfl⟩
    exact ⟨hR, hRest⟩
  · rcases hPeels.symm.indent_front hMore with ⟨hR, rfl⟩
    exact ⟨hR, hRest.symm⟩

end PagedRaster
