import AggregateAudit.Exclude
import AggregateAudit.Proofs.WellNamed

/-!
# Literal exclude patterns

Most exclude patterns are the name of a file or a directory, or a few of them with slashes
between, perhaps with `**/` in front and `/**` behind.  Such a pattern is asked three
questions about a path: whether its glob matches the path with the slash in front, whether it
matches the path without it, and whether what is left of the pattern without its `**`s occurs
in the path.  Only the last question matters (`Exclusion.search_decides_literal`).

The reason is one for all patterns of this kind.  The glob of a literal text matches only what
begins with the text (`Literal.stem_prefix_of_matchAll`), and `**/` only moves to places
behind a slash.  A path has a slash in front, so wherever the glob begins to match the text
stands behind a slash, and the fragment is there.

For a single name between `**/` and `/**` the search can be said without searching: the
pattern excludes what lies below a directory of that name, at any depth
(`Exclusion.excludes_iff_mem_directoryNames`).
-/

namespace AggregateAudit

/-! ## Literal globs -/

namespace Glob

/-- Whether a character stands for itself wherever it is in a pattern. -/
def IsPlainChar (c : Char) : Prop := c ≠ '*' ∧ c ≠ '?' ∧ c ≠ '['

instance (c : Char) : Decidable (IsPlainChar c) :=
  inferInstanceAs (Decidable (c ≠ '*' ∧ c ≠ '?' ∧ c ≠ '['))

theorem tokensFrom_plain_cons {c : Char} (h : IsPlainChar c) (position : Nat)
    (before : Option Char) (cs : List Char) :
    tokensFrom position before 0 (c :: cs) =
      (tokensFrom (position + 1) (some c) 0 cs).map (.char c :: ·) := by
  obtain ⟨hstar, hany, hclass⟩ := h
  rw [tokensFrom.eq_def]
  simp [hstar, hany, hclass]

/-- Plain characters are read one by one. -/
theorem tokensFrom_plain_append {cs : List Char} (h : ∀ c ∈ cs, IsPlainChar c) (position : Nat)
    (before : Option Char) (rest : List Char) :
    tokensFrom position before 0 (cs ++ rest) =
      (tokensFrom (position + cs.length) (cs.getLast?.or before) 0 rest).map
        (cs.map .char ++ ·) := by
  induction cs generalizing position before with
  | nil =>
    have hsame : tokensFrom position before 0 rest =
        (tokensFrom position before 0 rest).map ([] ++ ·) := by
      cases tokensFrom position before 0 rest <;> rfl
    exact hsame
  | cons c cs ih =>
    obtain ⟨hc, hcs⟩ := List.forall_mem_cons.mp h
    rw [List.cons_append, tokensFrom_plain_cons hc, ih hcs]
    have hlast : cs.getLast?.or (some c) = (c :: cs).getLast?.or before := by
      rw [List.getLast?_cons]
      cases cs.getLast? <;> rfl
    rw [hlast, List.length_cons, Nat.add_right_comm, Nat.add_assoc]
    cases tokensFrom (position + (cs.length + 1)) ((c :: cs).getLast?.or before) 0 rest <;> rfl

/-- `**/` at the beginning of a pattern. -/
theorem tokensFrom_components_slash (rest : List Char) :
    tokensFrom 0 none 0 ('*' :: '*' :: '/' :: rest) =
      (tokensFrom 3 (some '/') 0 rest).map (.anyComponents :: ·) := rfl

/-- `/**` at the end of a pattern. -/
theorem tokensFrom_slash_components (position : Nat) (before : Option Char) :
    tokensFrom position before 0 ['/', '*', '*'] = .ok [.char '/', .anyComponents] := rfl

theorem matchAll_char_cons {c : Char} {ts : List Token} {s : List Char} :
    matchAll (.char c :: ts) s = true ↔ ∃ t, s = c :: t ∧ matchAll ts t = true := by
  cases s with
  | nil => simp [matchAll]
  | cons d s => simp [matchAll, Token.fits, and_assoc]

/-- What matches literal tokens begins with their characters. -/
theorem matchAll_literal_append {cs : List Char} {ts : List Token} {s : List Char} :
    matchAll (cs.map .char ++ ts) s = true ↔ ∃ t, s = cs ++ t ∧ matchAll ts t = true := by
  induction cs generalizing s with
  | nil => simp
  | cons c cs ih =>
    rw [List.map_cons, List.cons_append, matchAll_char_cons]
    simp only [ih]
    constructor
    · rintro ⟨_, rfl, t, rfl, ht⟩
      exact ⟨t, rfl, ht⟩
    · rintro ⟨t, rfl, ht⟩
      exact ⟨_, rfl, t, rfl, ht⟩

/-- Behind a slash is behind a slash. -/
theorem mem_behindSlashes_iff {s t : List Char} :
    t ∈ behindSlashes s ↔ ∃ before, s = before ++ '/' :: t := by
  induction s with
  | nil => simp [behindSlashes]
  | cons c s ih =>
    have hcons : (∃ before, c :: s = before ++ '/' :: t) ↔
        (c = '/' ∧ s = t) ∨ ∃ before, s = before ++ '/' :: t := by
      constructor
      · rintro ⟨before, h⟩
        cases before with
        | nil => exact .inl (by simpa using h)
        | cons d before => exact .inr ⟨before, (List.cons.inj h).2⟩
      · rintro (⟨rfl, rfl⟩ | ⟨before, rfl⟩)
        · exact ⟨[], rfl⟩
        · exact ⟨c :: before, rfl⟩
    rw [hcons, ← ih, behindSlashes]
    split
    · next hc => simp [hc, eq_comm]
    · next hc => simp [hc]

end Glob

/-! ## Literal patterns -/

/-- A text that a pattern takes as it is: it is not empty, no character of it has a meaning in
globs, and it does not begin with a slash. -/
structure Literal where
  text : String
  notEmpty : text.toList ≠ []
  plain : ∀ c ∈ text.toList, Glob.IsPlainChar c
  noLead : text.toList.head? ≠ some '/'

/-- What may stand around a literal text in a pattern. -/
structure Surroundings where
  /-- `**/` in front of it. -/
  inFront : Bool
  /-- `/**` behind it. -/
  behind : Bool

namespace Literal

variable (x : Literal) (s : Surroundings)

/-- The pattern for a literal text. -/
def pattern : String :=
  (if s.inFront then "**/" else "") ++ x.text ++ if s.behind then "/**" else ""

/-- A literal text and the slash that `/**` begins with. -/
def stem : List Char := x.text.toList ++ if s.behind then ['/'] else []

/-- The pattern without its `**`s. -/
def fragment : List Char := (if s.inFront then ['/'] else []) ++ x.stem s

/-- The tokens of a literal text and what stands behind it. -/
def stemTokens : List Glob.Token :=
  x.text.toList.map .char ++ if s.behind then [.char '/', .anyComponents] else []

/-- The tokens of the pattern. -/
def tokens : List Glob.Token := (if s.inFront then [.anyComponents] else []) ++ x.stemTokens s

theorem tokensFrom_stem (position : Nat) (before : Option Char) :
    Glob.tokensFrom position before 0 (x.text.toList ++ (if s.behind then "/**" else "").toList) =
      .ok (x.stemTokens s) := by
  rw [Glob.tokensFrom_plain_append x.plain, stemTokens]
  cases s.behind with
  | false => rfl
  | true => exact congrArg _ (Glob.tokensFrom_slash_components _ _)

/-- The pattern has no fault. -/
theorem parse_pattern : Glob.parse (x.pattern s) = .ok (x.tokens s) := by
  rw [Glob.parse, pattern, tokens, String.toList_append, String.toList_append, List.append_assoc]
  cases s.inFront with
  | false => exact x.tokensFrom_stem s 0 none
  | true =>
    have hstem := x.tokensFrom_stem s 3 (some '/')
    exact (Glob.tokensFrom_components_slash _).trans (congrArg _ hstem)

/-- Characters other than stars stay. -/
theorem withoutDoubleStars_append {cs : List Char} (h : ∀ c ∈ cs, c ≠ '*') (rest : List Char) :
    Exclusion.withoutDoubleStars (cs ++ rest) = cs ++ Exclusion.withoutDoubleStars rest := by
  induction cs with
  | nil => rfl
  | cons c cs ih =>
    obtain ⟨hc, hcs⟩ := List.forall_mem_cons.mp h
    rw [List.cons_append, Exclusion.withoutDoubleStars.eq_2 _ _ (by simp [hc]), ih hcs]
    rfl

/-- Without its `**`s the pattern is the fragment. -/
theorem withoutDoubleStars_pattern :
    Exclusion.withoutDoubleStars (x.pattern s).toList = x.fragment s := by
  have hstem : Exclusion.withoutDoubleStars
      (x.text.toList ++ (if s.behind then "/**" else "").toList) = x.stem s := by
    rw [withoutDoubleStars_append fun c hc => (x.plain c hc).1, stem]
    cases s.behind <;> rfl
  rw [pattern, fragment, String.toList_append, String.toList_append, List.append_assoc, ← hstem]
  cases s.inFront <;> rfl

/-- What the part of the pattern from the literal text on matches begins with that text, and
with a slash behind it if the pattern has one there. -/
theorem stem_prefix_of_matchAll {t : List Char} (h : Glob.matchAll (x.stemTokens s) t = true) :
    x.stem s <+: t := by
  obtain ⟨rest, rfl, hrest⟩ := Glob.matchAll_literal_append.mp h
  rw [stem]
  cases hs : s.behind with
  | false => exact ⟨rest, by simp⟩
  | true =>
    rw [hs, if_pos rfl, Glob.matchAll_char_cons] at hrest
    obtain ⟨more, rfl, -⟩ := hrest
    exact ⟨more, by simp⟩

/-- A literal text begins with some character other than a slash, and so does the stem. -/
theorem not_stem_prefix_slash (rest : List Char) : ¬ x.stem s <+: '/' :: rest := by
  rintro ⟨more, h⟩
  have hlead := x.noLead
  rw [stem] at h
  cases htext : x.text.toList with
  | nil => exact x.notEmpty htext
  | cons c cs =>
    rw [htext] at h hlead
    exact hlead (congrArg some (List.cons.inj h).1)

theorem not_stem_prefix_nil : ¬ x.stem s <+: [] := by
  intro h
  rw [stem] at h
  exact x.notEmpty (List.append_eq_nil_iff.mp (List.prefix_nil.mp h)).1

/-- What the pattern matches begins with the stem or has the fragment in it. -/
theorem prefix_or_infix_of_matchAll {t : List Char} (h : Glob.matchAll (x.tokens s) t = true) :
    x.stem s <+: t ∨ x.fragment s <:+: t := by
  rw [tokens] at h
  rw [fragment]
  cases hs : s.inFront with
  | false =>
    rw [hs] at h
    exact .inl (x.stem_prefix_of_matchAll s h)
  | true =>
    rw [hs, if_pos rfl, List.singleton_append, Glob.matchAll, List.any_eq_true] at h
    obtain ⟨t', ht', hmatch⟩ := h
    have hstem := x.stem_prefix_of_matchAll s hmatch
    rw [Glob.behindComponents, List.mem_cons, List.mem_append, List.mem_singleton] at ht'
    rcases ht' with rfl | hslash | rfl
    · exact .inl hstem
    · obtain ⟨before, rfl⟩ := Glob.mem_behindSlashes_iff.mp hslash
      obtain ⟨more, rfl⟩ := hstem
      exact .inr ⟨before, more, by simp⟩
    · exact absurd hstem (x.not_stem_prefix_nil s)

/-- Wherever the stem stands behind a slash the fragment is there. -/
theorem fragment_infix_of_stem {t : List Char} (h : x.stem s <+: t) (before : List Char) :
    x.fragment s <:+: before ++ '/' :: t := by
  obtain ⟨more, rfl⟩ := h
  rw [fragment]
  cases s.inFront with
  | false => exact ⟨before ++ ['/'], more, by simp⟩
  | true => exact ⟨before, more, by simp⟩

end Literal

/-! ## The search decides -/

namespace Exclusion

/-- What a path is without its leading slashes stands behind one of them. -/
theorem exists_slash_before_trimmed (rest : List Char) :
    ∃ before, '/' :: rest = before ++ '/' :: ('/' :: rest).dropWhile (· = '/') := by
  induction rest with
  | nil => exact ⟨[], rfl⟩
  | cons c rest ih =>
    by_cases hc : c = '/'
    · obtain ⟨before, h⟩ := ih
      refine ⟨'/' :: before, ?_⟩
      rw [hc, List.dropWhile_cons_of_pos (by simp), List.cons_append, ← h]
    · exact ⟨[], by simp [hc]⟩

/-- What it means that the search for a text decides whether an exclusion matches a path with
a slash in front. -/
structure SearchesFor (e : Exclusion) (fragment : List Char) : Prop where
  fragment_eq : e.fragment = fragment
  /-- Where the glob matches the path, with its leading slashes or without them, the text
  occurs. -/
  infix_of_isMatch : ∀ rest, Glob.isMatch e.glob ('/' :: rest) = true
    ∨ Glob.isMatch e.glob (('/' :: rest).dropWhile (· = '/')) = true → fragment <:+: '/' :: rest
  matches_iff : ∀ rest, e.matchesSlashed ('/' :: rest) = true ↔ fragment <:+: '/' :: rest

/-- The exclusion for a literal pattern. -/
def ofLiteral (x : Literal) (s : Surroundings) : Exclusion := ⟨x.tokens s, x.fragment s⟩

theorem parse_literal (x : Literal) (s : Surroundings) :
    parse (x.pattern s) = .ok (ofLiteral x s) := by
  rw [parse, x.parse_pattern, x.withoutDoubleStars_pattern]
  rfl

/-- **The search for the fragment decides.**  Wherever the glob matches, the fragment is found
already. -/
theorem searchesFor_ofLiteral (x : Literal) (s : Surroundings) :
    (ofLiteral x s).SearchesFor (x.fragment s) := by
  have hglob : ∀ rest, Glob.isMatch (x.tokens s) ('/' :: rest) = true
      ∨ Glob.isMatch (x.tokens s) (('/' :: rest).dropWhile (· = '/')) = true →
        x.fragment s <:+: '/' :: rest := by
    intro rest h
    rw [Glob.isMatch_eq_matchAll, Glob.isMatch_eq_matchAll] at h
    rcases h with h | h
    · exact (x.prefix_or_infix_of_matchAll s h).resolve_left (x.not_stem_prefix_slash s rest)
    · obtain ⟨before, hbefore⟩ := exists_slash_before_trimmed rest
      generalize ('/' :: rest).dropWhile (· = '/') = trimmed at h hbefore
      rw [hbefore]
      rcases x.prefix_or_infix_of_matchAll s h with hstem | hinfix
      · exact x.fragment_infix_of_stem s hstem before
      · exact hinfix.trans ⟨before ++ ['/'], [], by simp⟩
  refine ⟨rfl, hglob, fun rest => ?_⟩
  have hfragment : (x.fragment s).isEmpty = false := by
    rw [List.isEmpty_eq_false_iff, Literal.fragment, Literal.stem]
    simp [x.notEmpty]
  rw [matchesSlashed, Bool.or_eq_true, Bool.or_eq_true, ofLiteral, hfragment]
  simp only [Bool.not_false, Bool.true_and, Text.occurs_iff_infix]
  exact ⟨fun h => h.elim (hglob rest) id, .inr⟩

end Exclusion

/-! ## Directories of one name -/

/-- The names of the directories on a path, as it is shown: the pieces between slashes but the last
one, where a backslash is as good as a slash. -/
def Path.directoryNames (path : Path) : List (List Char) :=
  (path.display.toList.splitOnP fun c => c = '/' || c = '\\').dropLast

namespace Exclusion

/-- **A single name between `**/` and `/**` excludes what lies below a directory of that
name**, at any depth. -/
theorem excludes_iff_mem_directoryNames {x : Literal} (hx : '/' ∉ x.text.toList) (path : Path) :
    (ofLiteral x ⟨true, true⟩).excludes path = true ↔ x.text.toList ∈ Path.directoryNames path := by
  have hfragment : x.fragment ⟨true, true⟩ = '/' :: x.text.toList ++ ['/'] := rfl
  rw [excludes, slashed, (searchesFor_ofLiteral x ⟨true, true⟩).matches_iff, hfragment,
    ← Text.mem_dropLast_splitOn_iff hx, Text.splitOn_map_slash]
  rfl

/-- **For literal patterns the search for text decides everything.**  A literal text, alone or
with `**/` in front or `/**` behind or both, is a pattern without a fault, and whatever path it
is asked about, written with a slash in front, it matches exactly if the pattern without its
`**`s occurs in the path: where the glob matches, with the leading slashes or without them, the
search has found something already.  In particular, for a text without slashes, the pattern
with both excludes the files that lie below a directory of that name. -/
theorem search_decides_literal (x : Literal) :
    (∀ s, ∃ e, parse (x.pattern s) = .ok e ∧ e.SearchesFor (x.fragment s))
      ∧ ('/' ∉ x.text.toList → ∃ e, parse (x.pattern ⟨true, true⟩) = .ok e
        ∧ ∀ path, e.excludes path = true ↔ x.text.toList ∈ Path.directoryNames path) :=
  ⟨fun s => ⟨ofLiteral x s, parse_literal x s, searchesFor_ofLiteral x s⟩,
    fun hx => ⟨ofLiteral x ⟨true, true⟩, parse_literal x _, excludes_iff_mem_directoryNames hx⟩⟩

/-- The pattern that keeps build output out. -/
theorem search_decides_literal_bin :
    let x : Literal := ⟨"bin", by decide, by simp [Glob.IsPlainChar], by decide⟩
    ('/' ∉ x.text.toList ∧ x.pattern ⟨true, true⟩ = "**/bin/**")
      ∧ ∃ e, parse "**/bin/**" = .ok e
        ∧ ∀ path, e.excludes path = true ↔ "bin".toList ∈ Path.directoryNames path := by
  intro x
  exact ⟨⟨by decide, rfl⟩, (search_decides_literal x).2 (by decide)⟩

end Exclusion
end AggregateAudit
