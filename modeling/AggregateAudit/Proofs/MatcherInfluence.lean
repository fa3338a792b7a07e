import AggregateAudit.Proofs.DecisionTree
import Mathlib.Data.List.Count

/-!
# What a matcher can change

An engine hands its matcher to every rule, and whether a type derives from an aggregate root
is a matter of judgement: the textual matcher can be exchanged for any other one.  This file
says how far such an exchange reaches.  The matcher is asked about a type only for the sake of
a method named `Apply` that the type declares itself and that is not public
(`TypeDeclaration.HasHiddenApply`), and all it decides there is whether AG0003 is reported.

Two runs are compared, one under a matcher that accepts less than the other where it is asked.
`LacksOnly` is the relation between their findings: the first row is the second one with some
findings under a single code left out and nothing moved.  It holds of what one rule finds in
one declaration, and it is kept when rows are put one behind the other, so it holds of a whole
forest (`Engine.lacksOnly_visitAll`).  Two matchers that agree where they are asked stand in
this relation both ways, and then nothing can be left out.
-/

namespace AggregateAudit

/-! ## Rows that lack findings under one code -/

/-- The first row of findings is the second one without some findings under a code. -/
inductive LacksOnly (code : String) : List Finding → List Finding → Prop where
  | nil : LacksOnly code [] []
  /-- A finding that both rows have. -/
  | keep (f : Finding) {part whole : List Finding} (h : LacksOnly code part whole) :
      LacksOnly code (f :: part) (f :: whole)
  /-- A finding under the code that the first row lacks. -/
  | lack {f : Finding} (hf : f.code = code) {part whole : List Finding}
      (h : LacksOnly code part whole) : LacksOnly code part (f :: whole)

namespace LacksOnly

variable {code : String} {part whole : List Finding}

theorem refl (code : String) (fs : List Finding) : LacksOnly code fs fs := by
  induction fs with
  | nil => exact nil
  | cons f fs ih => exact keep f ih

theorem append (h : LacksOnly code part whole) {part' whole' : List Finding}
    (h' : LacksOnly code part' whole') : LacksOnly code (part ++ part') (whole ++ whole') := by
  induction h with
  | nil => exact h'
  | keep f _ ih => exact keep f ih
  | lack hf _ ih => exact lack hf ih

theorem flatMap {α : Type} {l : List α} {g k : α → List Finding}
    (h : ∀ a ∈ l, LacksOnly code (g a) (k a)) : LacksOnly code (l.flatMap g) (l.flatMap k) := by
  induction l with
  | nil => exact nil
  | cons a l ih =>
    obtain ⟨ha, hl⟩ := List.forall_mem_cons.mp h
    exact ha.append (ih hl)

theorem sublist (h : LacksOnly code part whole) : part.Sublist whole := by
  induction h with
  | nil => exact .slnil
  | keep f _ ih => exact ih.cons_cons f
  | lack _ _ ih => exact ih.cons _

/-- Of a finding under another code both rows have the same number. -/
theorem count_eq (h : LacksOnly code part whole) {f : Finding} (hf : f.code ≠ code) :
    part.count f = whole.count f := by
  induction h with
  | nil => rfl
  | keep g _ ih => rw [List.count_cons, List.count_cons, ih]
  | lack hg _ ih =>
    rw [List.count_cons_of_ne (by rintro rfl; exact hf hg), ih]

/-- What is left of the second row when the first one is taken away bears the code. -/
theorem code_of_mem_diff (h : LacksOnly code part whole) {f : Finding} (hf : f ∈ whole.diff part) :
    f.code = code := by
  by_contra hne
  have hcount : 0 < (whole.diff part).count f := List.count_pos_iff.mpr hf
  rw [List.count_diff, h.count_eq hne, Nat.sub_self] at hcount
  exact Nat.lt_irrefl 0 hcount

end LacksOnly

/-! ## Where a matcher is asked -/

/-- A type declares a method named `Apply` itself that is not public. -/
def TypeDeclaration.HasHiddenApply (t : TypeDeclaration) : Prop :=
  ∃ m, .method m ∈ t.members ∧ m.name = "Apply" ∧ .publicAccess ∉ m.modifiers

/-- The type that a matcher is asked about for the sake of a declaration. -/
def Declaration.AsksAbout (t : TypeDeclaration) : Declaration → Prop
  | .constructor _ => False
  | .method m owner => t = owner ∧ m.name = "Apply" ∧ .publicAccess ∉ m.modifiers

/-- What is asked about in a forest are types of the forest with an `Apply` that is not public. -/
theorem Declaration.AsksAbout.hasHiddenApply {forest : List TypeDeclaration} {d : Declaration}
    {t : TypeDeclaration} (h : d.AsksAbout t) (hd : d ∈ TypeDeclaration.listingAll forest) :
    t.IsIn forest ∧ t.HasHiddenApply := by
  cases d with
  | constructor c => exact h.elim
  | method m owner =>
    obtain ⟨rfl, hname, hhidden⟩ := h
    obtain ⟨hin, hm⟩ := TypeDeclaration.method_mem_listingAll_iff.mp hd
    exact ⟨hin, m, hm, hname, hhidden⟩

/-! ## Two matchers -/

section TwoMatchers

variable {narrow wide : Matcher}

/-- Three of the four rules do not ask the matcher, and the fourth one lets it decide. -/
theorem Rule.lacksOnly_check {r : Rule} (hr : r ∈ Rule.all) {d : Declaration}
    (h : ∀ t, d.AsksAbout t → narrow t = true → wide t = true) :
    LacksOnly "AG0003" (r.check narrow d) (r.check wide d) := by
  simp only [Rule.all, List.mem_cons, List.not_mem_nil, or_false] at hr
  rcases hr with rfl | rfl | rfl | rfl
  · exact .refl _ (publicDefaultConstructor.check wide d)
  · exact .refl _ (emptyConstructor.check wide d)
  · exact .refl _ (privateParameterizedConstructor.check wide d)
  · cases d with
    | constructor c => exact .nil
    | method m owner =>
      have hcheck (accepts : Matcher) : publicApplyMethod.check accepts (.method m owner) =
          if m.name = "Apply" ∧ accepts owner = true ∧ .publicAccess ∉ m.modifiers then
            [publicApplyMethod.info.finding m.location]
          else [] := by
        simp [publicApplyMethod, RuleInfo.against, Method.isPublic, Declaration.location, and_assoc]
      rw [hcheck, hcheck]
      split
      · next hn =>
        obtain ⟨hname, hnarrow, hhidden⟩ := hn
        rw [if_pos ⟨hname, h owner ⟨rfl, hname, hhidden⟩ hnarrow, hhidden⟩]
        exact .refl _ _
      · split
        · have hcode : (publicApplyMethod.info.finding m.location).code = "AG0003" := rfl
          exact .lack hcode .nil
        · exact .nil

/-- A forest in which the first matcher accepts less where it is asked. -/
theorem Engine.lacksOnly_visitAll {rules : List Rule} (hrules : ∀ r ∈ rules, r ∈ Rule.all)
    {forest : List TypeDeclaration}
    (h : ∀ t, t.IsIn forest → t.HasHiddenApply → narrow t = true → wide t = true) :
    LacksOnly "AG0003" (Engine.visitAll { rules, matcher := narrow } forest)
      (Engine.visitAll { rules, matcher := wide } forest) := by
  rw [visitAll_eq_flatMap, visitAll_eq_flatMap]
  refine .flatMap fun d hd => .flatMap fun r hr => Rule.lacksOnly_check (hrules r hr) ?_
  intro t ht
  obtain ⟨hin, happly⟩ := ht.hasHiddenApply hd
  exact h t hin happly

/-- **The matcher decides about AG0003, where it is asked, and about nothing else.**  Let one
matcher accept no type of a forest that another one does not accept, of those types that
declare an `Apply` that is not public.  Whichever rules of the catalogue are asked, the findings
under the first matcher are findings under the second one, in the same order; what they lack
are findings of AG0003; and if the matchers agree on those types then they lack nothing,
whatever the matchers make of all other types. -/
theorem Engine.visitAll_sublist_visitAll {rules : List Rule} (hrules : ∀ r ∈ rules, r ∈ Rule.all)
    {forest : List TypeDeclaration}
    (h : ∀ t, t.IsIn forest → t.HasHiddenApply → narrow t = true → wide t = true) :
    let findings (accepts : Matcher) := Engine.visitAll { rules, matcher := accepts } forest
    (findings narrow).Sublist (findings wide)
      ∧ (∀ f ∈ (findings wide).diff (findings narrow), f.code = "AG0003")
      ∧ ((∀ t, t.IsIn forest → t.HasHiddenApply → narrow t = wide t) →
        findings narrow = findings wide) := by
  intro findings
  have hlacks : LacksOnly "AG0003" (findings narrow) (findings wide) :=
    lacksOnly_visitAll hrules h
  refine ⟨hlacks.sublist, fun f hf => hlacks.code_of_mem_diff hf, fun hagree => ?_⟩
  have hback : LacksOnly "AG0003" (findings wide) (findings narrow) :=
    lacksOnly_visitAll hrules fun t hin happly hwide => (hagree t hin happly).trans hwide
  exact hlacks.sublist.antisymm hback.sublist

end TwoMatchers

/-- Three types, of which the last one has no method.  What the matchers make of it makes no
difference.  On the nested type the first two differ, and there an `Apply` that is not public is
found under the second one only. -/
theorem Engine.visitAll_sublist_visitAll_of_nested :
    let apply (line : Nat) : Method := ⟨"", "Apply", [.privateAccess], ⟨"Order.cs", line, 5, 0, 0⟩⟩
    let forest : List TypeDeclaration :=
      [⟨{ name := "Order" }, [.method (apply 2), .type { name := "Line" } [.method (apply 4)]]⟩,
        ⟨{ name := "Total" }, []⟩]
    let narrow : Matcher := fun t => t.name != "Line"
    let wide : Matcher := fun t => t.name != "Total"
    let alike : Matcher := fun t => t.name == "Order"
    let findings (accepts : Matcher) :=
      Engine.visitAll { rules := Rule.all, matcher := accepts } forest
    (∀ t, t.IsIn forest → t.HasHiddenApply →
        (narrow t = true → wide t = true) ∧ narrow t = alike t)
      ∧ (findings narrow).map (·.location.line) = [2]
      ∧ (findings wide).map (·.location.line) = [2, 4]
      ∧ (findings narrow).Sublist (findings wide)
      ∧ (∀ f ∈ (findings wide).diff (findings narrow), f.code = "AG0003")
      ∧ findings narrow = findings alike := by
  intro apply forest narrow wide alike findings
  have hasked : ∀ t : TypeDeclaration, t.IsIn forest → t.HasHiddenApply →
      t.name = "Order" ∨ t.name = "Line" := by
    rintro t ⟨top, htop, hin⟩ ⟨m, hm, -⟩
    rcases List.mem_cons.mp htop with rfl | htop
    · rcases hin with rfl | hin
      · exact .inl rfl
      · rcases (Member.holds_cons_iff _ _ t).mp hin with hin | hin
        · exact absurd hin (Member.not_holds_of_ne_type (by simp) t)
        · rcases Member.holds_type_iff.mp hin with rfl | hin
          · exact .inr rfl
          · exact absurd hin (Member.not_holds_of_ne_type (by simp) t)
    · cases List.mem_singleton.mp htop
      rcases hin with rfl | hin
      · cases hm
      · exact absurd hin (Member.not_holds_nil t)
  have hwide : ∀ t, t.IsIn forest → t.HasHiddenApply → narrow t = true → wide t = true := by
    intro t hin happly _
    rcases hasked t hin happly with hname | hname <;> simp [wide, hname]
  have halike : ∀ t, t.IsIn forest → t.HasHiddenApply → narrow t = alike t := by
    intro t hin happly
    rcases hasked t hin happly with hname | hname <;> simp [narrow, alike, hname]
  have hrules : ∀ r ∈ Rule.all, r ∈ Rule.all := fun _ hr => hr
  obtain ⟨hsublist, hcodes, -⟩ := visitAll_sublist_visitAll hrules hwide
  obtain ⟨-, -, hsame⟩ := visitAll_sublist_visitAll hrules fun t hin happly hnarrow =>
    (halike t hin happly).symm.trans hnarrow
  exact ⟨fun t hin happly => ⟨hwide t hin happly, halike t hin happly⟩, by decide +kernel,
    by decide +kernel, hsublist, hcodes, hsame halike⟩

end AggregateAudit
