import AggregateAudit.Inheritance
import Mathlib.Logic.Basic
import Mathlib.Order.Basic

/-!
# The aggregate root as a whole word

Whether a written base type mentions the aggregate root is a search for an expression,
`\bAggregateRoot(?:<[^;]+>|\b)`: the name between two boundaries of words, or behind one and in
front of type arguments.  `rootExpression` is that expression and `Text.Expression.Matches` says
what expressions of its kind match, with all the ways there are to repeat and to choose; an
expression is found in a text if it matches some stretch of it.

The type arguments make no difference.  They begin with `<`, which is no word character, so
where they follow the name there is a boundary behind the name as well.  What remains is a plain
question about the text, `Text.StandsAsWord`: whether the name occurs with no word character
next to it.  It does not ask which occurrence is tried first, and an occurrence that fails does
not keep a later one from being found.

`matchesReference` looks for the name from left to right, and it answers the same question
(`Inheritance.matchesReference_iff_standsAsWord`), so the search and the expression agree on
every text.
-/

namespace AggregateAudit

namespace Text

/-! ## Expressions to search for -/

/-- An expression to search for. -/
inductive Expression where
  /-- `\b`: nothing, where a word begins or ends. -/
  | boundary
  | literal (text : List Char)
  /-- One character of a class. -/
  | oneOf (admits : Char → Bool)
  | both (first second : Expression)
  | either (first second : Expression)
  | oneOrMore (e : Expression)

/-- Whether a row ends in a word character. -/
def EndsInWord (s : List Char) : Prop := ∃ c ∈ s.getLast?, isWordChar c = true

/-- Whether a row begins with a word character. -/
def BeginsWithWord (s : List Char) : Prop := ∃ c ∈ s.head?, isWordChar c = true

namespace Expression

/-- Whether an expression matches the second row where it stands between the other two. -/
inductive Matches : Expression → List Char → List Char → List Char → Prop
  | boundary {before after : List Char} (h : Xor (EndsInWord before) (BeginsWithWord after)) :
      Matches .boundary before [] after
  | literal (before text after : List Char) : Matches (.literal text) before text after
  | oneOf (before after : List Char) {admits : Char → Bool} {c : Char} (h : admits c = true) :
      Matches (.oneOf admits) before [c] after
  | both {e f : Expression} {before s t after : List Char} (he : Matches e before s (t ++ after))
      (hf : Matches f (before ++ s) t after) : Matches (.both e f) before (s ++ t) after
  | first {e f : Expression} {before s after : List Char} (h : Matches e before s after) :
      Matches (.either e f) before s after
  | second {e f : Expression} {before s after : List Char} (h : Matches f before s after) :
      Matches (.either e f) before s after
  | once {e : Expression} {before s after : List Char} (h : Matches e before s after) :
      Matches (.oneOrMore e) before s after
  | more {e : Expression} {before s t after : List Char} (h : Matches e before s (t ++ after))
      (hmore : Matches (.oneOrMore e) (before ++ s) t after) :
      Matches (.oneOrMore e) before (s ++ t) after

/-- Whether an expression matches some stretch of a text. -/
def FoundIn (e : Expression) (text : List Char) : Prop :=
  ∃ before stretch after, text = before ++ stretch ++ after ∧ e.Matches before stretch after

theorem matches_boundary_iff {before s after : List Char} :
    Matches .boundary before s after ↔
      s = [] ∧ Xor (EndsInWord before) (BeginsWithWord after) := by
  constructor
  · intro h
    cases h with
    | boundary h => exact ⟨rfl, h⟩
  · rintro ⟨rfl, h⟩
    exact .boundary h

theorem matches_literal_iff {text before s after : List Char} :
    Matches (.literal text) before s after ↔ s = text := by
  constructor
  · intro h
    cases h
    rfl
  · rintro rfl
    exact .literal before s after

theorem matches_both_iff {e f : Expression} {before s after : List Char} :
    Matches (.both e f) before s after ↔
      ∃ s₁ s₂, s = s₁ ++ s₂ ∧ e.Matches before s₁ (s₂ ++ after)
        ∧ f.Matches (before ++ s₁) s₂ after := by
  constructor
  · intro h
    cases h with
    | both he hf => exact ⟨_, _, rfl, he, hf⟩
  · rintro ⟨s₁, s₂, rfl, he, hf⟩
    exact .both he hf

theorem matches_either_iff {e f : Expression} {before s after : List Char} :
    Matches (.either e f) before s after ↔ e.Matches before s after ∨ f.Matches before s after := by
  constructor
  · intro h
    cases h with
    | first h => exact .inl h
    | second h => exact .inr h
  · exact fun h => h.elim .first .second

end Expression

/-- Whether a row occurs in a text with no word character next to it. -/
def StandsAsWord (word text : List Char) : Prop :=
  ∃ before after, text = before ++ word ++ after ∧ ¬ EndsInWord before ∧ ¬ BeginsWithWord after

end Text

/-! ## The name of the aggregate root -/

namespace Inheritance

open Text (EndsInWord BeginsWithWord StandsAsWord)
open Text.Expression

/-- `<[^;]+>` -/
def argumentsExpression : Text.Expression :=
  .both (.literal ['<']) (.both (.oneOrMore (.oneOf (· ≠ ';'))) (.literal ['>']))

/-- `\bAggregateRoot(?:<[^;]+>|\b)` -/
def rootExpression : Text.Expression :=
  .both .boundary (.both (.literal rootName) (.either argumentsExpression .boundary))

/-- `\bAggregateRoot\b` -/
def bareExpression : Text.Expression := .both .boundary (.both (.literal rootName) .boundary)

theorem beginsWithWord_rootName (rest : List Char) : BeginsWithWord (rootName ++ rest) :=
  ⟨'A', rfl, by decide⟩

theorem endsInWord_rootName (before : List Char) : EndsInWord (before ++ rootName) := by
  refine ⟨'t', ?_, by decide⟩
  rw [List.getLast?_append]
  rfl

/-- Type arguments do not go on a word. -/
theorem not_beginsWithWord_angle (rest : List Char) : ¬ BeginsWithWord ('<' :: rest) := by
  rintro ⟨c, hc, hword⟩
  cases hc
  have hangle : Text.isWordChar '<' = false := by decide +kernel
  rw [hangle] at hword
  cases hword

/-- In front of the name there is a boundary exactly if no word ends there. -/
theorem matches_boundary_rootName_iff {before s rest : List Char} :
    Matches .boundary before s (rootName ++ rest) ↔ s = [] ∧ ¬ EndsInWord before := by
  rw [matches_boundary_iff, xor_comm, eq_true (beginsWithWord_rootName rest), xor_true]

/-- Behind the name there is a boundary exactly if no word begins there. -/
theorem rootName_matches_boundary_iff {before s rest : List Char} :
    Matches .boundary (before ++ rootName) s rest ↔ s = [] ∧ ¬ BeginsWithWord rest := by
  rw [matches_boundary_iff, eq_true (endsInWord_rootName before), xor_true]

/-- An expression that asks for the name at the beginning of a word and something behind it. -/
theorem foundIn_behind_name_iff {e : Text.Expression} {text : List Char} :
    FoundIn (.both .boundary (.both (.literal rootName) e)) text ↔
      ∃ before s after, text = before ++ rootName ++ s ++ after ∧ ¬ EndsInWord before
        ∧ e.Matches (before ++ rootName) s after := by
  simp only [FoundIn, matches_both_iff, matches_literal_iff]
  constructor
  · rintro ⟨before, _, after, rfl, _, _, rfl, hstart, _, s, rfl, rfl, he⟩
    rw [List.append_assoc, matches_boundary_rootName_iff] at hstart
    obtain ⟨rfl, hword⟩ := hstart
    rw [List.append_nil] at he
    exact ⟨before, s, after, by simp, hword, he⟩
  · rintro ⟨before, s, after, rfl, hword, he⟩
    refine ⟨before, rootName ++ s, after, by simp, [], rootName ++ s, rfl, ?_, rootName, s, rfl,
      rfl, by rwa [List.append_nil]⟩
    rw [List.append_assoc]
    exact matches_boundary_rootName_iff.mpr ⟨rfl, hword⟩

/-- The name between two boundaries is a whole word. -/
theorem foundIn_bareExpression_iff {text : List Char} :
    bareExpression.FoundIn text ↔ StandsAsWord rootName text := by
  rw [bareExpression, foundIn_behind_name_iff, StandsAsWord]
  simp only [rootName_matches_boundary_iff]
  constructor
  · rintro ⟨before, _, after, rfl, hbefore, rfl, hafter⟩
    exact ⟨before, after, by simp, hbefore, hafter⟩
  · rintro ⟨before, after, rfl, hbefore, hafter⟩
    exact ⟨before, [], after, by simp, hbefore, rfl, hafter⟩

/-- **Type arguments make no difference**: where they follow, there is a boundary too. -/
theorem foundIn_rootExpression_iff {text : List Char} :
    rootExpression.FoundIn text ↔ StandsAsWord rootName text := by
  constructor
  · intro h
    obtain ⟨before, s, after, rfl, hbefore, he⟩ := foundIn_behind_name_iff.mp h
    refine ⟨before, s ++ after, by simp, hbefore, ?_⟩
    rcases matches_either_iff.mp he with harguments | hboundary
    · obtain ⟨_, rest, rfl, hangle, -⟩ := matches_both_iff.mp harguments
      rw [matches_literal_iff.mp hangle]
      exact not_beginsWithWord_angle _
    · obtain ⟨rfl, hafter⟩ := rootName_matches_boundary_iff.mp hboundary
      exact hafter
  · rintro ⟨before, after, rfl, hbefore, hafter⟩
    exact foundIn_behind_name_iff.mpr ⟨before, [], after, by simp, hbefore,
      .second (rootName_matches_boundary_iff.mpr ⟨rfl, hafter⟩)⟩

/-! ## The search from left to right -/

theorem any_head?_iff {s : List Char} :
    s.head?.any Text.isWordChar = true ↔ BeginsWithWord s := by
  simp [BeginsWithWord, Option.any_eq_true]

theorem any_getLast?_iff {s : List Char} :
    s.getLast?.any Text.isWordChar = true ↔ EndsInWord s := by
  simp [EndsInWord, Option.any_eq_true]

/-- Behind the name type arguments are read only where a boundary lies anyway. -/
theorem startsWithArguments_or_isBoundary_iff {rest : List Char} :
    (startsWithArguments rest || isBoundary rootName.getLast? rest.head?) = true ↔
      ¬ BeginsWithWord rest := by
  have hlast : rootName.getLast?.any Text.isWordChar = true := by decide
  have hboundary : isBoundary rootName.getLast? rest.head? = true ↔ ¬ BeginsWithWord rest := by
    rw [isBoundary, hlast, ← any_head?_iff]
    simp
  rw [Bool.or_eq_true, hboundary]
  refine ⟨fun h => h.elim (fun harguments => ?_) id, .inr⟩
  -- arguments begin with `<`
  cases rest with
  | nil => cases harguments
  | cons c rest =>
    obtain rfl : c = '<' := by
      by_contra hne
      rw [startsWithArguments] at harguments
      · cases harguments
      · rintro _ ⟨⟩
        exact hne rfl
    exact not_beginsWithWord_angle rest

/-- At one place the search finds the name where no word goes on to either side of it. -/
theorem matchesHere_iff {left : Option Char} {cs : List Char} :
    matchesHere left cs = true ↔
      left.any Text.isWordChar = false ∧ ∃ rest, cs = rootName ++ rest ∧ ¬ BeginsWithWord rest := by
  rw [matchesHere, Bool.and_eq_true, Bool.and_eq_true, List.isPrefixOf_iff_prefix,
    startsWithArguments_or_isBoundary_iff]
  constructor
  · rintro ⟨⟨hleft, rest, rfl⟩, hrest⟩
    rw [List.drop_left] at hrest
    refine ⟨?_, rest, rfl, hrest⟩
    rw [isBoundary, any_head?_iff.mpr (beginsWithWord_rootName rest)] at hleft
    simpa using hleft
  · rintro ⟨hleft, rest, rfl, hrest⟩
    refine ⟨⟨?_, List.prefix_append _ _⟩, by rwa [List.drop_left]⟩
    rw [isBoundary, any_head?_iff.mpr (beginsWithWord_rootName rest), hleft]
    rfl

/-- The search goes on to every place, whatever it found before. -/
theorem matchesFrom_iff {left : Option Char} {cs : List Char} :
    matchesFrom left cs = true ↔
      ∃ before after,
        cs = before ++ after ∧ matchesHere (before.getLast?.or left) after = true := by
  induction cs generalizing left with
  | nil =>
    constructor
    · exact fun found => ⟨[], [], rfl, found⟩
    · rintro ⟨before, after, hcs, found⟩
      obtain ⟨rfl, rfl⟩ := List.append_eq_nil_iff.mp hcs.symm
      exact found
  | cons c cs ih =>
    rw [matchesFrom, Bool.or_eq_true, ih]
    constructor
    · rintro (here | ⟨before, after, rfl, later⟩)
      · exact ⟨[], c :: cs, rfl, here⟩
      · refine ⟨c :: before, after, rfl, ?_⟩
        cases before <;> simpa [List.getLast?_cons] using later
    · rintro ⟨before, after, hcs, found⟩
      cases before with
      | nil =>
        rw [List.nil_append] at hcs
        exact .inl (hcs ▸ found)
      | cons b before =>
        obtain ⟨rfl, rfl⟩ := List.cons.inj hcs
        refine .inr ⟨before, after, rfl, ?_⟩
        cases before <;> simpa [List.getLast?_cons] using found

/-- **The search is a search for a whole word.** -/
theorem matchesReference_iff {s : String} :
    matchesReference s = true ↔ StandsAsWord rootName s.toList := by
  simp only [matchesReference, matchesFrom_iff, matchesHere_iff, Option.or_none,
    ← Bool.not_eq_true, any_getLast?_iff]
  constructor
  · rintro ⟨before, _, htext, hbefore, after, rfl, hafter⟩
    exact ⟨before, after, by rw [htext, List.append_assoc], hbefore, hafter⟩
  · rintro ⟨before, after, htext, hbefore, hafter⟩
    exact ⟨before, _, by rw [htext, List.append_assoc], hbefore, after, rfl, hafter⟩

/-- The matcher asks every written base type, and a type without a base list has none. -/
theorem textual_iff {t : TypeDeclaration} :
    textual t = true ↔
      ∃ bases ∈ t.header.baseTypes,
        ∃ reference ∈ bases, StandsAsWord rootName reference.toList := by
  simp only [textual, List.any_eq_true, matchesReference_iff, TypeDeclaration.baseReferences]
  cases t.header.baseTypes <;> simp

/-- **A reference mentions the aggregate root if the name stands in it as a whole word.**  That is
what the expression finds and what the search answers; the alternative with type arguments never
changes the verdict, and a type derives from the root if one of its base types mentions it. -/
theorem matchesReference_iff_standsAsWord :
    (∀ s, matchesReference s = true ↔ StandsAsWord rootName s.toList)
      ∧ (∀ s, rootExpression.FoundIn s ↔ StandsAsWord rootName s)
      ∧ (∀ s, rootExpression.FoundIn s ↔ bareExpression.FoundIn s)
      ∧ ∀ t, textual t = true ↔ ∃ bases ∈ t.header.baseTypes, ∃ reference ∈ bases,
          StandsAsWord rootName reference.toList :=
  ⟨fun _ => matchesReference_iff, fun _ => foundIn_rootExpression_iff,
    fun _ => foundIn_rootExpression_iff.trans foundIn_bareExpression_iff.symm,
    fun _ => textual_iff⟩

/-- An occurrence that fails does not keep a later one from being found. -/
example : matchesReference "MyAggregateRoot.AggregateRoot" = true := by decide +kernel

end Inheritance
end AggregateAudit
