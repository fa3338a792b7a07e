import AggregateAudit.Proofs.PreOrder
import AggregateAudit.Rule.Catalog
import Mathlib.Data.List.Nodup

/-!
# The rules as one decision tree

The catalogue holds four rules that know nothing of each other, each with its own gate
and its own negated condition.  What they are meant to say together is one procedure
with branches:

* a constructor whose name does not speak of an aggregate is left alone; without
  parameters it has to be public and empty; with parameters it has to be private;
* a method is looked at only if it is called `Apply` and its own type derives from an
  aggregate root, and then it has to be public.

`Constructor.verdict` and `Method.verdict` are that procedure.  They name rules by
their codes and look at modifiers, parameters and bodies directly, so they share no
condition with the rules.  `Engine.check_all` says that the four rules, asked one
after the other, come to the verdict, and `visitAll_all_eq_verdicts` says it of a whole
forest.
-/

namespace AggregateAudit

/-! ## The procedure -/

/-- The finding of the rule with a code. -/
def findingOf (code : String) (at_ : Location) : List Finding :=
  (Rule.all.filter fun r => r.info.code == code).map fun r => r.info.finding at_

/-- What is wrong with a constructor. -/
def Constructor.verdict (c : Constructor) : List Finding :=
  if isAggregateName c.name then
    if c.parameterCount = 0 then
      (if .publicAccess ∈ c.modifiers then [] else findingOf "AG0004" c.location)
        ++ (match c.body with
          | .block (_ + 1) => findingOf "AG0001" c.location
          | _ => [])
    else if .privateAccess ∈ c.modifiers then [] else findingOf "AG0002" c.location
  else []

/-- What is wrong with a method of a type. -/
def Method.verdict (accepts : Matcher) (owner : TypeDeclaration) (m : Method) : List Finding :=
  if m.name = "Apply" ∧ accepts owner = true ∧ .publicAccess ∉ m.modifiers then
    findingOf "AG0003" m.location
  else []

/-- What is wrong with a declaration. -/
def Declaration.verdict (accepts : Matcher) : Declaration → List Finding
  | .constructor c => c.verdict
  | .method m owner => m.verdict accepts owner

/-! ## Codes and findings -/

/-- No two rules share a code. -/
theorem Rule.eq_of_code_eq {r s : Rule} (hr : r ∈ Rule.all) (hs : s ∈ Rule.all)
    (h : r.info.code = s.info.code) : r = s := by
  have hcodes : (Rule.all.map fun r => r.info.code).Nodup := by decide
  exact List.inj_on_of_nodup_map hcodes hr hs h

/-- A code stands for one rule, so there is one finding with it. -/
theorem findingOf_code {r : Rule} (hr : r ∈ Rule.all) (at_ : Location) :
    findingOf r.info.code at_ = [r.info.finding at_] := by
  simp only [Rule.all, List.mem_cons, List.not_mem_nil, or_false] at hr
  rcases hr with rfl | rfl | rfl | rfl <;> rfl

/-- A rule of the catalogue has one thing to say about a declaration, if anything: its
own finding at the place of the declaration. -/
theorem Rule.eq_finding_of_mem_check {r : Rule} (hr : r ∈ Rule.all) {accepts : Matcher}
    {d : Declaration} {f : Finding} (hf : f ∈ r.check accepts d) :
    f = r.info.finding d.location := by
  simp only [Rule.all, List.mem_cons, List.not_mem_nil, or_false] at hr
  rcases hr with rfl | rfl | rfl | rfl <;>
    exact List.eq_of_mem_singleton ((List.mem_ite_nil_right.mp hf).2)

/-! ## Single declarations

The rules come in the order of the catalogue.  On a constructor the first two are the
branch without parameters and the third is the branch with parameters; at most one of
the two branches says anything, because the gates exclude each other. -/

namespace Constructor

/-- Only a block with something in it has statements. -/
theorem if_hasStatements (c : Constructor) (fs : List Finding) :
    (if c.hasStatements = true then fs else []) =
      match c.body with
      | .block (_ + 1) => fs
      | _ => [] := by
  rw [hasStatements]
  cases c.body with
  | block n => cases n <;> simp [Body.hasStatements]
  | expression => rfl
  | absent => rfl

/-- What the two rules about constructors without parameters find. -/
theorem check_default (accepts : Matcher) (c : Constructor) :
    Rule.publicDefaultConstructor.check accepts (.constructor c)
        ++ Rule.emptyConstructor.check accepts (.constructor c) =
      if isAggregateName c.name = true ∧ c.parameterCount = 0 then
        (if .publicAccess ∈ c.modifiers then [] else findingOf "AG0004" c.location)
          ++ (if c.hasStatements = true then findingOf "AG0001" c.location else [])
      else [] := by
  have h₄ : findingOf "AG0004" c.location = [_] :=
    findingOf_code (r := Rule.publicDefaultConstructor) (by simp [Rule.all]) c.location
  have h₁ : findingOf "AG0001" c.location = [_] :=
    findingOf_code (r := Rule.emptyConstructor) (by simp [Rule.all]) c.location
  rw [h₄, h₁]
  by_cases hgate : isAggregateName c.name = true ∧ c.parameterCount = 0
  · simp [Rule.publicDefaultConstructor, Rule.emptyConstructor, RuleInfo.against, hgate,
      hasParameters, isPublic, Declaration.location]
  · simp [Rule.publicDefaultConstructor, Rule.emptyConstructor, RuleInfo.against, hgate,
      hasParameters]

/-- What the rule about constructors with parameters finds. -/
theorem check_parameterized (accepts : Matcher) (c : Constructor) :
    Rule.privateParameterizedConstructor.check accepts (.constructor c) =
      if isAggregateName c.name = true ∧ c.parameterCount ≠ 0 then
        if .privateAccess ∈ c.modifiers then [] else findingOf "AG0002" c.location
      else [] := by
  have h₂ : findingOf "AG0002" c.location = [_] :=
    findingOf_code (r := Rule.privateParameterizedConstructor) (by simp [Rule.all]) c.location
  rw [h₂]
  by_cases hgate : isAggregateName c.name = true ∧ c.parameterCount ≠ 0
  · simp [Rule.privateParameterizedConstructor, RuleInfo.against, hgate, hasParameters, isPrivate,
      Declaration.location, Nat.pos_iff_ne_zero]
  · simp [Rule.privateParameterizedConstructor, RuleInfo.against, hgate, hasParameters]
    grind

theorem check_all (accepts : Matcher) (c : Constructor) :
    Engine.check { rules := Rule.all, matcher := accepts } (.constructor c) = c.verdict := by
  have happly : Rule.publicApplyMethod.check accepts (.constructor c) = [] := rfl
  have hsplit : Engine.check { rules := Rule.all, matcher := accepts } (.constructor c) =
      (Rule.publicDefaultConstructor.check accepts (.constructor c)
          ++ Rule.emptyConstructor.check accepts (.constructor c))
        ++ Rule.privateParameterizedConstructor.check accepts (.constructor c) := by
    simp [Engine.check, Rule.all, happly]
  rw [hsplit, check_default, check_parameterized, if_hasStatements, verdict]
  by_cases hname : isAggregateName c.name = true
  · by_cases hparams : c.parameterCount = 0
    · simp [hname, hparams]
    · simp [hname, hparams]
  · simp [hname]

end Constructor

/-- Of the four rules only the last one has a say in methods. -/
theorem Method.check_all (accepts : Matcher) (owner : TypeDeclaration) (m : Method) :
    Engine.check { rules := Rule.all, matcher := accepts } (.method m owner) =
      m.verdict accepts owner := by
  have h₃ : findingOf "AG0003" m.location = [_] :=
    findingOf_code (r := Rule.publicApplyMethod) (by simp [Rule.all]) m.location
  have hsplit : Engine.check { rules := Rule.all, matcher := accepts } (.method m owner) =
      Rule.publicApplyMethod.check accepts (.method m owner) := by
    simp [Engine.check, Rule.all, Rule.publicDefaultConstructor, Rule.emptyConstructor,
      Rule.privateParameterizedConstructor, RuleInfo.against]
  rw [hsplit, verdict, h₃]
  simp [Rule.publicApplyMethod, RuleInfo.against, isPublic, Declaration.location, and_assoc]

/-- **The four rules, asked one after the other, come to the verdict.** -/
theorem Engine.check_all (accepts : Matcher) (d : Declaration) :
    Engine.check { rules := Rule.all, matcher := accepts } d = d.verdict accepts := by
  cases d with
  | constructor c => exact c.check_all accepts
  | method m owner => exact m.check_all accepts owner

/-! ## Forests -/

/-- A finding of the catalogue is the finding of one of its rules about the declaration
it is found in. -/
theorem Engine.eq_finding_of_mem_check_all {accepts : Matcher} {d : Declaration} {f : Finding}
    (h : f ∈ Engine.check { rules := Rule.all, matcher := accepts } d) :
    ∃ r ∈ Rule.all, f = r.info.finding d.location := by
  obtain ⟨r, hr, hf⟩ := List.mem_flatMap.mp h
  exact ⟨r, hr, Rule.eq_finding_of_mem_check hr hf⟩

/-- **The catalogue refines the decision tree.**  What an engine with all four rules
finds in a forest is the verdict on each of its constructors and methods, in
pre-order; every method is judged with the type that declares it; and every finding is
word for word the finding of one rule, which its code singles out, at the place of a
declaration of the forest. -/
theorem Engine.visitAll_all_eq_verdicts (accepts : Matcher) (forest : List TypeDeclaration) :
    Engine.visitAll { rules := Rule.all, matcher := accepts } forest =
        (TypeDeclaration.listingAll forest).flatMap (Declaration.verdict accepts)
      ∧ (∀ m owner, Declaration.method m owner ∈ TypeDeclaration.listingAll forest ↔
          owner.IsIn forest ∧ .method m ∈ owner.members)
      ∧ ∀ f ∈ Engine.visitAll { rules := Rule.all, matcher := accepts } forest,
          ∃ d ∈ TypeDeclaration.listingAll forest, ∃ r ∈ Rule.all,
            f = r.info.finding d.location ∧ ∀ s ∈ Rule.all, s.info.code = f.code → s = r := by
  rw [visitAll_eq_flatMap]
  refine ⟨?_, fun _ _ => TypeDeclaration.method_mem_listingAll_iff, ?_⟩
  · congr 1
    funext d
    exact check_all accepts d
  · intro f hf
    obtain ⟨d, hd, hfd⟩ := List.mem_flatMap.mp hf
    obtain ⟨r, hr, rfl⟩ := eq_finding_of_mem_check_all hfd
    exact ⟨d, hd, r, hr, rfl, fun s hs hcode => Rule.eq_of_code_eq hs hr hcode⟩

end AggregateAudit
