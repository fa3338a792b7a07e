import AggregateAudit.Rule.Catalog
import Mathlib.Data.List.Infix

/-!
# The gate of names looks at ASCII letters only

Whether a name speaks of an aggregate and not of a test is asked of its lower-case form, and
lower-casing is that of Unicode: a character may become two, a sigma is treated by its neighbours,
and a letter from outside ASCII may become one of ASCII, as the sign of the kelvin becomes `k`.
This file says that for the two words of the gate none of this counts.  The gate is open exactly
if `aggregate` stands somewhere in the name itself, whatever the case of its ASCII letters, and
`test` does not (`isAggregateName_iff_mentions`), and any other character is a wall: no occurrence
reaches across it, and none beside it is lost through it.

What has to be known about Unicode is in `gateLetters_notMem_lowerChar`: from outside ASCII no
letter of the two words is reached.  It is a statement about the runs of the table and not about
single characters.  The rest is about rows: the lower-case form of a text and the text with small
ASCII letters are alike but for stretches without letters of the gate (`Text.AlikeOn`), and a
word made of such letters occurs in both or in none.
-/

namespace AggregateAudit

/-! ## Rows that are alike on some letters -/

namespace Text

/-- Two rows that are alike but for stretches without any of the given letters. -/
inductive AlikeOn (letters : List Char) : List Char → List Char → Prop where
  | nil : AlikeOn letters [] []
  /-- A character that both rows have. -/
  | same (c : Char) {s t : List Char} (h : AlikeOn letters s t) :
      AlikeOn letters (c :: s) (c :: t)
  /-- A stretch in each row, neither of which is empty or has a letter. -/
  | apart {u v s t : List Char} (hu : u ≠ []) (hv : v ≠ []) (hul : u.Disjoint letters)
      (hvl : v.Disjoint letters) (h : AlikeOn letters s t) : AlikeOn letters (u ++ s) (v ++ t)

section Occurrences

variable {letters w u v s t : List Char}

/-- What has a letter begins with nothing that has none. -/
theorem not_prefix_append_of_disjoint (hne : w ≠ []) (hw : w ⊆ letters) (hu : u ≠ [])
    (hul : u.Disjoint letters) : ¬ w <+: u ++ s := by
  intro h
  cases w with
  | nil => exact hne rfl
  | cons a w =>
    cases u with
    | nil => exact hu rfl
    | cons b u =>
      rw [List.cons_append, List.cons_prefix_cons] at h
      exact hul (h.1 ▸ List.mem_cons_self) (hw List.mem_cons_self)

/-- A word of letters occurs behind a stretch without letters, or not at all. -/
theorem infix_append_iff_of_disjoint (hne : w ≠ []) (hw : w ⊆ letters)
    (hul : u.Disjoint letters) : w <:+: u ++ s ↔ w <:+: s := by
  induction u with
  | nil => rfl
  | cons b u ih =>
    have hhead := not_prefix_append_of_disjoint (s := s) hne hw (List.cons_ne_nil b u) hul
    rw [List.cons_append] at hhead ⊢
    rw [List.infix_cons_iff, ih (List.disjoint_of_disjoint_cons_left hul)]
    exact or_iff_right hhead

/-- A stretch without letters between two rows divides them. -/
theorem infix_append_append_iff_of_disjoint (hne : w ≠ []) (hw : w ⊆ letters) (hu : u ≠ [])
    (hul : u.Disjoint letters) : w <:+: s ++ (u ++ t) ↔ w <:+: s ∨ w <:+: t := by
  rw [List.infix_append_iff_ne_nil, infix_append_iff_of_disjoint hne hw hul]
  constructor
  · rintro (h | h | ⟨front, back, -, hback, rfl, -, hprefix⟩)
    · exact .inl h
    · exact .inr h
    · have hletters : back ⊆ letters := fun c hc => hw (List.mem_append_right front hc)
      exact absurd hprefix (not_prefix_append_of_disjoint hback hletters hu hul)
  · rintro (h | h)
    · exact .inl h
    · exact .inr (.inl h)

namespace AlikeOn

theorem prefix_iff (h : AlikeOn letters s t) (hw : w ⊆ letters) : w <+: s ↔ w <+: t := by
  induction h generalizing w with
  | nil => rfl
  | same c _ ih =>
    cases w with
    | nil => simp
    | cons a w =>
      rw [List.cons_prefix_cons, List.cons_prefix_cons, ih (List.subset_of_cons_subset hw)]
  | apart hu hv hul hvl _ _ =>
    by_cases hne : w = []
    · simp [hne]
    · exact iff_of_false (not_prefix_append_of_disjoint hne hw hu hul)
        (not_prefix_append_of_disjoint hne hw hv hvl)

/-- **A word of letters occurs in both of two rows that are alike on them, or in none.** -/
theorem infix_iff (h : AlikeOn letters s t) (hne : w ≠ []) (hw : w ⊆ letters) :
    w <:+: s ↔ w <:+: t := by
  induction h with
  | nil => rfl
  | same c h ih => rw [List.infix_cons_iff, List.infix_cons_iff, (same c h).prefix_iff hw, ih]
  | apart _ _ hul hvl _ ih =>
    rw [infix_append_iff_of_disjoint hne hw hul, infix_append_iff_of_disjoint hne hw hvl, ih]

end AlikeOn

end Occurrences

/-! ## Lower-casing -/

/-- The letters of the words `aggregate` and `test`. -/
def gateLetters : List Char := ['a', 'e', 'g', 'r', 's', 't']

/-- Whether a character is none of ASCII. -/
def IsForeign (c : Char) : Prop := 128 ≤ c.toNat

instance (c : Char) : Decidable (IsForeign c) := inferInstanceAs (Decidable (128 ≤ c.toNat))

/-- The small form of a character of ASCII is its small form in ASCII. -/
theorem lowerChar_of_not_isForeign {c : Char} (h : ¬ IsForeign c) :
    lowerChar c = [c.toLower] := by
  have hall : ∀ n < 128, lowerChar (Char.ofNat n) = [(Char.ofNat n).toLower] := by
    decide +kernel
  have hc := hall c.toNat (Nat.lt_of_not_le h)
  rwa [Char.ofNat_toNat] at hc

theorem toLower_of_isForeign {c : Char} (h : IsForeign c) : c.toLower = c := by
  have hlarge : ¬ c.val ≤ 'Z'.val := fun hle => absurd (Nat.le_trans h hle) (by decide)
  exact dif_neg fun hcapital => hlarge hcapital.2

/-- A number from outside ASCII stands for no letter of the gate, nor does one that stands for no
character. -/
theorem ofNat_notMem_gateLetters {n : Nat} (h : 128 ≤ n) : Char.ofNat n ∉ gateLetters := by
  have hletters : gateLetters.all fun c => c.toNat < 128 := by decide
  by_cases hvalid : n.isValidChar
  · have hn : (Char.ofNat n).toNat = n := by
      rw [Char.ofNat, dif_pos hvalid]
      rfl
    intro hmem
    have hlt := of_decide_eq_true (List.all_eq_true.mp hletters _ hmem)
    exact Nat.not_lt_of_le h (hn ▸ hlt)
  · rw [Char.ofNat, dif_neg hvalid]
    decide

theorem IsForeign.notMem_gateLetters {c : Char} (h : IsForeign c) : c ∉ gateLetters := by
  rw [← Char.ofNat_toNat c]
  exact ofNat_notMem_gateLetters h

/-- **From outside ASCII no letter of the gate is reached.**  A run of the table that begins outside
ASCII stays outside ASCII, but for that of the kelvin sign, which becomes `k`. -/
theorem gateLetters_notMem_lowerChar {c d : Char} (h : IsForeign c) (hd : d ∈ lowerChar c) :
    d ∉ gateLetters := by
  have hruns : ∀ r ∈ caseRuns,
      r.last < 128 ∨ 128 ≤ r.target ∨ (r.first = r.last ∧ r.target = 'k'.toNat) := by
    decide +kernel
  rw [lowerChar] at hd
  split at hd
  · rcases List.mem_pair.mp hd with rfl | rfl <;> decide
  · split at hd
    · next r hfind =>
      rw [List.mem_singleton.mp hd, CaseRun.map]
      have hcovers := List.find?_some hfind
      simp only [CaseRun.covers, Bool.and_eq_true, decide_eq_true_eq] at hcovers
      obtain ⟨⟨hfirst, hlast⟩, -⟩ := hcovers
      rcases hruns r (List.mem_of_find?_eq_some hfind) with hascii | htarget | ⟨hsingle, hkelvin⟩
      · exact absurd (Nat.lt_of_le_of_lt hlast hascii) (Nat.not_lt_of_le h)
      · exact ofNat_notMem_gateLetters (Nat.le_trans htarget (Nat.le_add_right _ _))
      · have hzero : c.toNat - r.first = 0 := by omega
        rw [hzero, hkelvin]
        decide
    · rw [List.mem_singleton.mp hd]
      exact h.notMem_gateLetters

theorem lowerChar_ne_nil (c : Char) : lowerChar c ≠ [] := by
  rw [lowerChar]
  split
  · simp
  · split <;> simp

/-- The two small sigmas. -/
theorem lowerSigma_notMem_gateLetters (before after : List Char) :
    lowerSigma before after ∉ gateLetters := by
  rw [lowerSigma]
  split <;> decide

/-- **Lower-casing with all of Unicode and lower-casing ASCII alone come to the same on the letters
of the gate.** -/
theorem alikeOn_lowercaseFrom (before s : List Char) :
    AlikeOn gateLetters (lowercaseFrom before s) (s.map Char.toLower) := by
  induction s generalizing before with
  | nil => exact .nil
  | cons c s ih =>
    rw [lowercaseFrom, List.map_cons]
    by_cases hc : IsForeign c
    · rw [toLower_of_isForeign hc]
      refine .apart (v := [c]) ?_ (List.cons_ne_nil c []) ?_ ?_ (ih (c :: before))
      · split
        · simp
        · exact lowerChar_ne_nil c
      · intro d hd
        split at hd
        · rw [List.mem_singleton.mp hd]
          exact lowerSigma_notMem_gateLetters before s
        · exact gateLetters_notMem_lowerChar hc hd
      · intro d hd
        rw [List.mem_singleton.mp hd]
        exact hc.notMem_gateLetters
    · have hsigma : c.toNat ≠ 0x3A3 := fun heq => hc (by rw [IsForeign, heq]; decide)
      rw [if_neg hsigma, lowerChar_of_not_isForeign hc]
      exact .same _ (ih (c :: before))

/-! ## Words in a text -/

/-- Whether a stretch of a text is a word, whatever the case of its ASCII letters. -/
def Mentions (word s : String) : Prop :=
  ∃ front stretch back, s = front ++ stretch ++ back ∧ eqIgnoringCase stretch word = true

/-- A word in small letters is mentioned where it occurs among small letters. -/
theorem mentions_iff {word s : String} (hword : word.toList ⊆ gateLetters) :
    Mentions word s ↔ word.toList <:+: s.toList.map Char.toLower := by
  have hsmall : word.toList.map Char.toLower = word.toList := by
    have hall : gateLetters.all fun c => c.toLower = c := by decide
    have hletters : ∀ c ∈ word.toList, c.toLower = c := fun c hc =>
      of_decide_eq_true (List.all_eq_true.mp hall c (hword hc))
    rw [List.map_congr_left hletters, List.map_id']
  rw [List.infix_map_iff]
  constructor
  · rintro ⟨front, stretch, back, rfl, heq⟩
    refine ⟨stretch.toList, ⟨front.toList, back.toList, by simp⟩, ?_⟩
    rw [← hsmall, beq_iff_eq.mp heq]
  · rintro ⟨stretch, ⟨front, back, hs⟩, heq⟩
    refine ⟨String.ofList front, String.ofList stretch, String.ofList back, ?_, ?_⟩
    · apply String.toList_injective
      simp [← hs]
    · rw [eqIgnoringCase, String.toList_ofList, hsmall, ← heq]
      exact beq_self_eq_true _

/-- **A word of the gate occurs in the lower-case form of a text exactly if the text mentions
it.** -/
theorem occurs_lowercase_iff {word s : String} (hne : word.toList ≠ [])
    (hword : word.toList ⊆ gateLetters) :
    occurs word.toList (lowercase s.toList) = true ↔ Mentions word s := by
  rw [mentions_iff hword, occurs_iff_infix]
  exact (alikeOn_lowercaseFrom [] s.toList).infix_iff hne hword

/-- A character from outside ASCII is a wall between what stands on its two sides. -/
theorem mentions_append_iff {word front back : String} {c : Char} (hc : IsForeign c)
    (hne : word.toList ≠ []) (hword : word.toList ⊆ gateLetters) :
    Mentions word (front ++ String.singleton c ++ back) ↔
      Mentions word front ∨ Mentions word back := by
  have hwall : [c].Disjoint gateLetters := List.singleton_disjoint.mpr hc.notMem_gateLetters
  have hsplit : (front ++ String.singleton c ++ back).toList.map Char.toLower =
      front.toList.map Char.toLower ++ ([c] ++ back.toList.map Char.toLower) := by
    simp [toLower_of_isForeign hc]
  rw [mentions_iff hword, mentions_iff hword, mentions_iff hword, hsplit]
  exact infix_append_append_iff_of_disjoint hne hword (List.cons_ne_nil c []) hwall

end Text

open Text (Mentions IsForeign)

/-- **The gate of names is a gate of ASCII.**  A name speaks of an aggregate and not of a test
exactly if some stretch of it is `aggregate` and none is `test`, whatever the case of their ASCII
letters.  A character from outside ASCII has no part in this, wherever it stands: the name is
judged as if its two sides were searched one by one, so no occurrence is made through it and none
is broken that stands beside it. -/
theorem isAggregateName_iff_mentions (name : String) :
    (isAggregateName name = true ↔ Mentions "aggregate" name ∧ ¬ Mentions "test" name)
      ∧ ∀ front c back, IsForeign c → name = front ++ String.singleton c ++ back →
        (isAggregateName name = true ↔
          (Mentions "aggregate" front ∨ Mentions "aggregate" back)
            ∧ ¬ Mentions "test" front ∧ ¬ Mentions "test" back) := by
  have hspeaks : "aggregate".toList ⊆ Text.gateLetters := by decide
  have htest : "test".toList ⊆ Text.gateLetters := by decide
  have hiff : isAggregateName name = true ↔ Mentions "aggregate" name ∧ ¬ Mentions "test" name := by
    rw [isAggregateName, Bool.and_eq_true, Bool.not_eq_true',
      Text.occurs_lowercase_iff (by decide) hspeaks, ← Bool.not_eq_true,
      Text.occurs_lowercase_iff (by decide) htest]
  refine ⟨hiff, ?_⟩
  rintro front c back hc rfl
  rw [hiff, Text.mentions_append_iff hc (by decide) hspeaks,
    Text.mentions_append_iff hc (by decide) htest, not_or]

/-- The sign of the kelvin behind an aggregate, and a long s in what would be a test. -/
theorem isAggregateName_iff_mentions_of_kelvin :
    let name := "AGGREGATE" ++ String.singleton (Char.ofNat 0x212A) ++ "te\u017ft"
    IsForeign (Char.ofNat 0x212A)
      ∧ isAggregateName name = true
      ∧ Mentions "aggregate" name ∧ ¬ Mentions "test" name
      ∧ ¬ Mentions "test" "te\u017ft" := by
  intro name
  have hc : IsForeign (Char.ofNat 0x212A) := by decide
  have hname : isAggregateName name = true := by decide +kernel
  obtain ⟨hiff, hwall⟩ := isAggregateName_iff_mentions name
  exact ⟨hc, hname, (hiff.mp hname).1, (hiff.mp hname).2, ((hwall _ _ _ hc rfl).mp hname).2.2⟩

end AggregateAudit
