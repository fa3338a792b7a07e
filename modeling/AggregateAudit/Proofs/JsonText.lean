import AggregateAudit.Json.Reader
import Mathlib.Data.List.Basic
import Mathlib.Data.Nat.Digits.Lemmas

/-!
# Reading what was written

A JSON value that is written, in either layout and at any depth, is read back as it was,
whatever text follows it (`Json.readsBack`).  The one thing that the text behind a value must
not do is to continue a number, and nothing that is written behind a value does.

The reader is told how often it may look for a value.  More often than the value has
characters is enough, because every item of an array and every member of an object has a
character of its own in front of it or behind it; that is the arithmetic in
`Json.readItems_write` and `Json.readMembers_write`.  It is also what a reader of a whole text
is told, so a written value is the value of its text (`Json.read?_write`).

Only numbers that are written as digits are kept as numbers, so the values that are meant
here have no others (`Json.IsNatural`).
-/

namespace AggregateAudit
namespace Json

/-! ## Numbers -/

theorem digits_eq (n : Nat) : digits n = Nat.toDigits 10 n := by
  rw [digits, Nat.toString_eq_ofList_toDigits, String.toList_ofList]

theorem isDigit_of_mem_digits {n : Nat} {c : Char} (h : c ∈ digits n) : c.isDigit = true := by
  rw [digits_eq] at h
  exact Nat.isDigit_of_mem_toDigits (by decide) (by decide) h

theorem digits_ne_nil (n : Nat) : digits n ≠ [] := by
  rw [digits_eq]
  exact Nat.toDigits_ne_nil

/-- The digits of a number stand for it. -/
theorem valueOfDigits_digits (n : Nat) : valueOfDigits (digits n) = n := by
  have hfold : valueOfDigits (digits n) = Nat.ofDigitChars 10 (digits n) 0 := by
    rw [valueOfDigits, Nat.ofDigitChars_eq_foldl]
    congr 1
    funext sofar c
    rw [Nat.mul_comm]
    rfl
  rw [hfold, digits_eq, Nat.ofDigitChars_ten_toDigits]

/-- Only zero begins with a zero. -/
theorem head?_digits_ne (n : Nat) (hn : 0 < n) : (digits n).head? ≠ some '0' := by
  rw [digits_eq]
  induction n using Nat.strongRecOn with
  | ind n ih =>
    by_cases hsmall : n < 10
    · rw [Nat.toDigits_of_lt_base hsmall, List.head?_cons]
      interval_cases n <;> decide
    · have hlarge : 10 ≤ n := Nat.le_of_not_lt hsmall
      have hfront := ih (n / 10) (Nat.div_lt_self hn (by decide)) (Nat.div_pos hlarge (by decide))
      rw [Nat.toDigits_of_base_le (by decide) hlarge,
        List.head?_append_of_ne_nil _ Nat.toDigits_ne_nil]
      exact hfront

theorem length_digits_of_zero_first {n : Nat} (h : (digits n).head? = some '0') :
    (digits n).length = 1 := by
  rcases Nat.eq_zero_or_pos n with rfl | hn
  · decide
  · exact absurd h (head?_digits_ne n hn)

/-- Whether a text does not continue a number that stands in front of it. -/
def EndsNumber (rest : List Char) : Prop :=
  ∀ c ∈ rest.head?, c.isDigit = false ∧ c ≠ '.' ∧ c ≠ 'e' ∧ c ≠ 'E'

theorem endsNumber_cons {c : Char} (h : c.isDigit = false ∧ c ≠ '.' ∧ c ≠ 'e' ∧ c ≠ 'E')
    (rest : List Char) : EndsNumber (c :: rest) := by
  intro d hd
  cases hd
  exact h

theorem EndsNumber.takeWhile_eq {rest : List Char} (h : EndsNumber rest) :
    rest.takeWhile Char.isDigit = [] := by
  cases rest with
  | nil => rfl
  | cons c rest => rw [List.takeWhile_cons_of_neg (by rw [(h c rfl).1]; decide)]

theorem EndsNumber.dropWhile_eq {rest : List Char} (h : EndsNumber rest) :
    rest.dropWhile Char.isDigit = rest := by
  cases rest with
  | nil => rfl
  | cons c rest => rw [List.dropWhile_cons_of_neg (by rw [(h c rfl).1]; decide)]

theorem EndsNumber.readFraction_eq {rest : List Char} (h : EndsNumber rest) :
    readFraction rest = some ([], rest) := by
  rw [readFraction.eq_def]
  split
  · exact absurd rfl (h '.' rfl).2.1
  · rfl

theorem EndsNumber.readExponent_eq {rest : List Char} (h : EndsNumber rest) :
    readExponent rest = some ([], rest) := by
  cases rest with
  | nil => rfl
  | cons c rest =>
    obtain ⟨-, -, hlower, hupper⟩ := h c rfl
    rw [readExponent, if_neg (by simp [hlower, hupper])]

/-- **A number is read back.** -/
theorem readNumber_digits (n : Nat) {rest : List Char} (h : EndsNumber rest) :
    readNumber (digits n ++ rest) = some (natural n, rest) := by
  have hall : ∀ c ∈ digits n, c.isDigit = true := fun c hc => isDigit_of_mem_digits hc
  have htake : (digits n ++ rest).takeWhile Char.isDigit = digits n := by
    rw [List.takeWhile_append_of_pos hall, h.takeWhile_eq, List.append_nil]
  have hdrop : (digits n ++ rest).dropWhile Char.isDigit = rest := by
    rw [List.dropWhile_append_of_pos hall, h.dropWhile_eq]
  have hsign : (digits n ++ rest).head? ≠ some '-' := by
    obtain ⟨c, cs, hcs⟩ := List.exists_cons_of_ne_nil (digits_ne_nil n)
    intro hhead
    rw [hcs] at hhead
    cases hhead
    exact absurd (hall '-' (by simp [hcs])) (by decide)
  have hzero : (digits n).head? = some '0' → (digits n).length ≤ 1 :=
    fun hhead => (length_digits_of_zero_first hhead).le
  generalize digits n ++ rest = cs at htake hdrop hsign ⊢
  simpa [readNumber, hsign, htake, hdrop, digits_ne_nil, h.readFraction_eq, h.readExponent_eq,
    valueOfDigits_digits] using hzero

/-! ## Strings -/

theorem hexValue?_hexDigit : ∀ n < 16, hexValue? (hexDigit n) = some n := by decide

theorem eq_ofNat_of_toNat {c : Char} {n : Nat} (h : c.toNat = n) : c = Char.ofNat n := by
  rw [← h, Char.ofNat_toNat]

/-- A character that needs no escape stands for itself. -/
theorem readString_plain {c : Char} (hquote : c ≠ '"') (hback : c ≠ '\\') (hcontrol : ¬c.toNat < 32)
    (rest : List Char) :
    readString (c :: rest) = (readString rest).map fun (s, r) => (c :: s, r) := by
  rw [readString.eq_def]
  split
  · contradiction
  · next h => exact absurd (List.cons.inj h).1 hquote
  · next h => exact absurd (List.cons.inj h).1 hback
  · next h => exact absurd (List.cons.inj h).1 hback
  · next h =>
    obtain ⟨rfl, rfl⟩ := List.cons.inj h
    rw [if_neg (by simp [hcontrol, hback])]

/-- A control character is written as four digits of base sixteen. -/
theorem hex4?_control {c : Char} (h : c.toNat < 32) :
    hex4? '0' '0' (hexDigit (c.toNat / 16)) (hexDigit (c.toNat % 16)) = some c.toNat := by
  have hhigh := hexValue?_hexDigit (c.toNat / 16) (by omega)
  have hlow := hexValue?_hexDigit (c.toNat % 16) (by omega)
  have hzero : hexValue? '0' = some 0 := by decide
  simp only [hex4?, hzero, hhigh, hlow, Option.bind_eq_bind, Option.bind_some]
  rw [show ((0 * 16 + 0) * 16 + c.toNat / 16) * 16 + c.toNat % 16 = c.toNat by omega]

/-- A character that is written inside a string is read back. -/
theorem readString_escape (c : Char) (rest : List Char) :
    readString (escape c ++ rest) = (readString rest).map fun (s, r) => (c :: s, r) := by
  rw [escape]
  split_ifs with hquote hback hline hreturn htab hbackspace hfeed hcontrol
  · rw [hquote]; rfl
  · rw [hback]; rfl
  · rw [hline]; rfl
  · rw [hreturn]; rfl
  · rw [htab]; rfl
  · rw [eq_ofNat_of_toNat hbackspace]; rfl
  · rw [eq_ofNat_of_toNat hfeed]; rfl
  · have hhex := hex4?_control hcontrol
    simp only [List.cons_append, List.nil_append]
    rw [readString, hhex]
    dsimp only
    rw [if_neg (by simp; omega), if_neg (by simp; omega), Char.ofNat_toNat]
  · exact readString_plain hquote hback hcontrol rest

/-- **A string is read back.** -/
theorem readString_flatMap_escape (s rest : List Char) :
    readString (s.flatMap escape ++ '"' :: rest) = some (s, rest) := by
  induction s with
  | nil => rfl
  | cons c s ih =>
    rw [List.flatMap_cons, List.append_assoc, readString_escape, ih]
    rfl

/-! ## White space -/

theorem skipSpace_cons {c : Char} (h : isSpace c = false) (cs : List Char) :
    skipSpace (c :: cs) = c :: cs := by
  rw [skipSpace, List.dropWhile_cons_of_neg (by rw [h]; decide)]

/-- What breaks lines is white space. -/
theorem isSpace_of_mem_break {l : Layout} {level : Nat} {c : Char} (h : c ∈ l.break level) :
    isSpace c = true := by
  rw [Layout.break] at h
  split at h
  · rcases List.mem_cons.mp h with rfl | h
    · rfl
    · rw [List.eq_of_mem_replicate h]
      rfl
  · cases h

theorem skipSpace_break (l : Layout) (level : Nat) {c : Char} (h : isSpace c = false)
    (cs : List Char) : skipSpace (l.break level ++ c :: cs) = c :: cs := by
  rw [skipSpace, List.dropWhile_append_of_pos fun _ hd => isSpace_of_mem_break hd]
  exact skipSpace_cons h cs

/-- A break, or what follows it, does not continue a number. -/
theorem endsNumber_break (l : Layout) (level : Nat) {rest : List Char} (h : EndsNumber rest) :
    EndsNumber (l.break level ++ rest) := by
  rw [Layout.break]
  split
  · exact endsNumber_cons (by decide) _
  · exact h

/-! ## Values -/

mutual

/-- Whether all numbers of a value are written as digits only. -/
def IsNatural : Json → Prop
  | null => True
  | bool _ => True
  | natural _ => True
  | number _ => False
  | string _ => True
  | array items => AreNatural items
  | object members => MembersAreNatural members

/-- Whether all numbers of a row of values are written as digits only. -/
def AreNatural : List Json → Prop
  | [] => True
  | v :: vs => IsNatural v ∧ AreNatural vs

/-- Whether all numbers of the members of an object are written as digits only. -/
def MembersAreNatural : List (String × Json) → Prop
  | [] => True
  | (_, v) :: ms => IsNatural v ∧ MembersAreNatural ms

end

/-- What the text of a value begins with: no white space, and nothing that would end an
array. -/
def Opens (cs : List Char) : Prop := ∃ c rest, cs = c :: rest ∧ isSpace c = false ∧ c ≠ ']'

theorem opens_cons {c : Char} (h : isSpace c = false ∧ c ≠ ']') (rest : List Char) :
    Opens (c :: rest) := ⟨c, rest, rfl, h⟩

/-- A digit is no white space and ends no array. -/
theorem opens_of_isDigit {c : Char} (h : c.isDigit = true) (rest : List Char) :
    Opens (c :: rest) := by
  refine opens_cons ⟨?_, ?_⟩ rest
  · rw [Bool.eq_false_iff]
    intro hspace
    simp only [isSpace, Bool.or_eq_true, decide_eq_true_eq] at hspace
    rcases hspace with ((rfl | rfl) | rfl) | rfl <;> exact absurd h (by decide)
  · rintro rfl
    exact absurd h (by decide)

theorem opens_write (l : Layout) (level : Nat) {v : Json} (h : v.IsNatural) :
    Opens (write l level v) := by
  cases v with
  | null => exact opens_cons (by decide) _
  | bool b => cases b <;> exact opens_cons (by decide) _
  | natural n =>
    obtain ⟨c, cs, hcs⟩ := List.exists_cons_of_ne_nil (digits_ne_nil n)
    rw [write, hcs]
    exact opens_of_isDigit (isDigit_of_mem_digits (by rw [hcs]; exact List.mem_cons_self)) cs
  | number t => exact absurd h id
  | string s => exact opens_cons (by decide) _
  | array items => cases items <;> exact opens_cons (by decide) _
  | object members => cases members <;> exact opens_cons (by decide) _

theorem Opens.skipSpace_eq {cs : List Char} (h : Opens cs) (rest : List Char) :
    skipSpace (cs ++ rest) = cs ++ rest := by
  obtain ⟨c, cs, rfl, hspace, -⟩ := h
  exact skipSpace_cons hspace _

theorem Opens.skipSpace_break {cs : List Char} (h : Opens cs) (l : Layout) (level : Nat)
    (rest : List Char) : skipSpace (l.break level ++ (cs ++ rest)) = cs ++ rest := by
  obtain ⟨c, cs, rfl, hspace, -⟩ := h
  exact Json.skipSpace_break l level hspace _

theorem Opens.length_pos {cs : List Char} (h : Opens cs) : 0 < cs.length := by
  obtain ⟨c, cs, rfl, -⟩ := h
  exact Nat.succ_pos _

/-- Whether a value is read back from its text, by a reader that may look more often than
the text has characters. -/
structure ReadsBack (l : Layout) (v : Json) : Prop where
  opens : ∀ level, Opens (write l level v)
  reads : ∀ level n rest, EndsNumber rest → (write l level v).length < n →
    readValue n (write l level v ++ rest) = some (v, rest)

/-- A value that starts with a digit is a number. -/
theorem readValue_of_isDigit {c : Char} (h : c.isDigit = true) (n : Nat) (cs : List Char) :
    readValue (n + 1) (c :: cs) = readNumber (c :: cs) := by
  rw [readValue.eq_def]
  dsimp only
  split
  all_goals first
    | rfl
    | next heq =>
      obtain ⟨rfl, -⟩ := List.cons.inj heq
      exact absurd h (by decide)

theorem readsBack_null (l : Layout) : ReadsBack l null where
  opens _ := opens_cons (by decide) _
  reads level n rest _ hn := by
    obtain ⟨n, rfl⟩ := Nat.exists_eq_succ_of_ne_zero (Nat.ne_of_gt (Nat.zero_lt_of_lt hn))
    rfl

theorem readsBack_bool (l : Layout) (b : Bool) : ReadsBack l (bool b) where
  opens _ := by cases b <;> exact opens_cons (by decide) _
  reads level n rest _ hn := by
    obtain ⟨n, rfl⟩ := Nat.exists_eq_succ_of_ne_zero (Nat.ne_of_gt (Nat.zero_lt_of_lt hn))
    cases b <;> rfl

theorem readsBack_natural (l : Layout) (m : Nat) : ReadsBack l (natural m) where
  opens level := opens_write l level (v := natural m) trivial
  reads level n rest hrest hn := by
    obtain ⟨n, rfl⟩ := Nat.exists_eq_succ_of_ne_zero (Nat.ne_of_gt (Nat.zero_lt_of_lt hn))
    obtain ⟨c, cs, hcs⟩ := List.exists_cons_of_ne_nil (digits_ne_nil m)
    have hdigit : c.isDigit = true := isDigit_of_mem_digits (n := m) (by simp [hcs])
    have hread := readNumber_digits m hrest
    rw [write]
    rw [hcs] at hread ⊢
    rw [List.cons_append] at hread ⊢
    rw [readValue_of_isDigit hdigit, hread]

theorem readsBack_string (l : Layout) (s : String) : ReadsBack l (string s) where
  opens _ := opens_cons (by decide) _
  reads level n rest _ hn := by
    obtain ⟨n, rfl⟩ := Nat.exists_eq_succ_of_ne_zero (Nat.ne_of_gt (Nat.zero_lt_of_lt hn))
    have hread := readString_flatMap_escape s.toList rest
    rw [write, quoted, List.cons_append, List.append_assoc, List.singleton_append, readValue, hread,
      Option.map_some]
    dsimp only
    rw [String.ofList_toList]

/-! ### Arrays -/

section Rows

variable {l : Layout} {level outer : Nat}

/-- What follows an item does not continue a number. -/
theorem endsNumber_writeItems (vs : List Json) (rest : List Char) :
    EndsNumber (writeItems l level vs ++ (l.break outer ++ ']' :: rest)) := by
  cases vs with
  | nil => exact endsNumber_break l outer (endsNumber_cons (by decide) rest)
  | cons v vs => exact endsNumber_cons (by decide) _

/-- An item in front of a bracket is the last one. -/
theorem readItems_last {v : Json} (h : ReadsBack l v) {n : Nat} {rest more : List Char}
    (hends : EndsNumber rest) (hrest : skipSpace rest = ']' :: more)
    (hn : (write l level v).length < n) :
    readItems (n + 1) (write l level v ++ rest) = some ([v], more) := by
  rw [readItems, h.reads level n rest hends hn, Option.bind_eq_bind, Option.bind_some]
  dsimp only
  rw [hrest]
  rfl

/-- Behind an item and a comma there are more items. -/
theorem readItems_more {v : Json} (h : ReadsBack l v) {n : Nat} {rest more : List Char}
    (hends : EndsNumber rest) (hrest : skipSpace rest = ',' :: more)
    (hn : (write l level v).length < n) {vs : List Json} {behind : List Char}
    (hmore : readItems n (skipSpace more) = some (vs, behind)) :
    readItems (n + 1) (write l level v ++ rest) = some (v :: vs, behind) := by
  rw [readItems, h.reads level n rest hends hn, Option.bind_eq_bind, Option.bind_some]
  dsimp only
  rw [hrest]
  show Option.bind (readItems n (skipSpace more)) _ = _
  rw [hmore]
  rfl

/-- **Items are read back** up to the bracket that closes the array. -/
theorem readItems_write (level outer : Nat) (vs : List Json) (v : Json) (n : Nat) (rest : List Char)
    (h : ∀ w ∈ v :: vs, ReadsBack l w)
    (hn : (write l level v).length + (writeItems l level vs).length < n) :
    readItems (n + 1)
        (write l level v ++ (writeItems l level vs ++ (l.break outer ++ ']' :: rest))) =
      some (v :: vs, rest) := by
  have hv := h v List.mem_cons_self
  have hends : EndsNumber (writeItems l level vs ++ (l.break outer ++ ']' :: rest)) :=
    endsNumber_writeItems vs rest
  induction vs generalizing v n with
  | nil => exact readItems_last hv hends (skipSpace_break l outer (by decide) rest) (by omega)
  | cons w ws ih =>
    have hrow := fun x hx => h x (List.mem_cons_of_mem v hx)
    have hw := hrow w List.mem_cons_self
    have hpos := (hv.opens level).length_pos
    have hlength : (writeItems l level (w :: ws)).length =
        1 + (l.break level).length + (write l level w).length + (writeItems l level ws).length := by
      simp only [writeItems, List.length_cons, List.length_append]
      omega
    obtain ⟨n, rfl⟩ := Nat.exists_eq_succ_of_ne_zero (Nat.ne_of_gt (Nat.zero_lt_of_lt hn))
    have hmore := ih w n hrow (by omega) hw (endsNumber_writeItems ws rest)
    rw [writeItems, List.cons_append] at hends ⊢
    refine readItems_more hv hends (skipSpace_cons (by decide) _) (by omega) ?_
    rw [List.append_assoc, List.append_assoc, (hw.opens level).skipSpace_break, hmore]

theorem readsBack_array {items : List Json} (h : ∀ v ∈ items, ReadsBack l v) :
    ReadsBack l (array items) where
  opens _ := by cases items <;> exact opens_cons (by decide) _
  reads level n rest _ hn := by
    obtain ⟨n, rfl⟩ := Nat.exists_eq_succ_of_ne_zero (Nat.ne_of_gt (Nat.zero_lt_of_lt hn))
    cases items with
    | nil => rfl
    | cons v vs =>
      have hopens := (h v List.mem_cons_self).opens (level + 1)
      simp only [write, List.length_cons, List.length_append, List.length_nil] at hn
      obtain ⟨n, rfl⟩ := Nat.exists_eq_succ_of_ne_zero (show n ≠ 0 by omega)
      have hread := readItems_write (level + 1) level vs v n rest h (by omega)
      obtain ⟨c, cs, hcs, -, hbracket⟩ := id hopens
      rw [write]
      simp only [List.cons_append, List.append_assoc, List.nil_append]
      rw [readValue, hopens.skipSpace_break]
      rw [hcs, List.cons_append] at hread ⊢
      split
      · next heq => exact absurd (List.cons.inj heq).1 hbracket
      · rw [hread]
        rfl

/-! ### Objects -/

/-- What follows a member does not continue a number. -/
theorem endsNumber_writeMembers (ms : List (String × Json)) (rest : List Char) :
    EndsNumber (writeMembers l level ms ++ (l.break outer ++ '}' :: rest)) := by
  cases ms with
  | nil => exact endsNumber_break l outer (endsNumber_cons (by decide) rest)
  | cons m ms => exact endsNumber_cons (by decide) _

theorem skipSpace_colon {cs : List Char} (h : Opens cs) (rest : List Char) :
    ∃ more, skipSpace (l.colon ++ (cs ++ rest)) = ':' :: more ∧ skipSpace more = cs ++ rest := by
  obtain ⟨c, cs, rfl, hspace, -⟩ := h
  rw [Layout.colon]
  split
  · refine ⟨' ' :: (c :: cs ++ rest), skipSpace_cons (by decide) _, ?_⟩
    rw [skipSpace, List.dropWhile_cons_of_pos (by decide)]
    exact skipSpace_cons hspace _
  · exact ⟨c :: cs ++ rest, skipSpace_cons (by decide) _, skipSpace_cons hspace _⟩

/-- Of a member the key is read, then the value. -/
theorem readMembers_member (k : String) {v : Json} (h : ReadsBack l v) {n : Nat}
    {rest : List Char} (hends : EndsNumber rest) (hn : (write l level v).length < n) :
    readMembers (n + 1) (quoted k ++ (l.colon ++ (write l level v ++ rest))) =
      match skipSpace rest with
      | ',' :: more => do
        let (ms, r) ← readMembers n (skipSpace more)
        some ((k, v) :: ms, r)
      | '}' :: more => some ([(k, v)], more)
      | _ => none := by
  obtain ⟨behind, hcolon, hbehind⟩ := skipSpace_colon (l := l) (h.opens level) rest
  have hkey := readString_flatMap_escape k.toList (l.colon ++ (write l level v ++ rest))
  rw [quoted, List.cons_append, List.append_assoc, List.singleton_append, readMembers, hkey,
    Option.bind_eq_bind, Option.bind_some]
  dsimp only
  rw [hcolon]
  show Option.bind (readValue n (skipSpace behind)) _ = _
  rw [hbehind, h.reads level n rest hends hn, String.ofList_toList]
  rfl

/-- **Members are read back** up to the brace that closes the object. -/
theorem readMembers_write (level outer : Nat) (ms : List (String × Json)) (k : String) (v : Json)
    (n : Nat) (rest : List Char) (h : ∀ m ∈ (k, v) :: ms, ReadsBack l m.2)
    (hn : (write l level v).length + (writeMembers l level ms).length < n) :
    readMembers (n + 1) (quoted k ++ (l.colon ++ (write l level v ++
        (writeMembers l level ms ++ (l.break outer ++ '}' :: rest))))) =
      some ((k, v) :: ms, rest) := by
  have hv : ReadsBack l v := h (k, v) List.mem_cons_self
  have hends : EndsNumber (writeMembers l level ms ++ (l.break outer ++ '}' :: rest)) :=
    endsNumber_writeMembers ms rest
  rw [readMembers_member k hv hends (by omega)]
  induction ms generalizing k v n with
  | nil =>
    have hclose : skipSpace (writeMembers l level [] ++ (l.break outer ++ '}' :: rest)) =
        '}' :: rest := skipSpace_break l outer (by decide) rest
    rw [hclose]
    rfl
  | cons m ms ih =>
    obtain ⟨key, w⟩ := m
    have hrow := fun x hx => h x (List.mem_cons_of_mem (k, v) hx)
    have hw : ReadsBack l w := hrow (key, w) List.mem_cons_self
    have hpos := (hv.opens level).length_pos
    have hlength : (writeMembers l level ((key, w) :: ms)).length =
        1 + (l.break level).length + (quoted key).length + l.colon.length
          + (write l level w).length + (writeMembers l level ms).length := by
      simp only [writeMembers, List.length_cons, List.length_append]
      omega
    obtain ⟨n, rfl⟩ := Nat.exists_eq_succ_of_ne_zero (Nat.ne_of_gt (Nat.zero_lt_of_lt hn))
    have hfollow : EndsNumber (writeMembers l level ms ++ (l.break outer ++ '}' :: rest)) :=
      endsNumber_writeMembers ms rest
    have hmore := ih key w n hrow (by omega) hw hfollow
    have hlevel : (write l level w).length < n := by omega
    rw [← readMembers_member key hw hfollow hlevel] at hmore
    have hquoted : Opens (quoted key) := opens_cons (by decide) _
    rw [writeMembers, List.cons_append, skipSpace_cons (by decide)]
    show Option.bind (readMembers (n + 1) _) _ = _
    rw [List.append_assoc, List.append_assoc, List.append_assoc, List.append_assoc,
      hquoted.skipSpace_break, hmore]
    rfl

theorem readsBack_object {members : List (String × Json)} (h : ∀ m ∈ members, ReadsBack l m.2) :
    ReadsBack l (object members) where
  opens _ := by cases members <;> exact opens_cons (by decide) _
  reads level n rest _ hn := by
    obtain ⟨n, rfl⟩ := Nat.exists_eq_succ_of_ne_zero (Nat.ne_of_gt (Nat.zero_lt_of_lt hn))
    cases members with
    | nil => rfl
    | cons m ms =>
      obtain ⟨k, v⟩ := m
      have hquoted : Opens (quoted k) := opens_cons (by decide) _
      simp only [write, List.length_cons, List.length_append, List.length_nil] at hn
      obtain ⟨n, rfl⟩ := Nat.exists_eq_succ_of_ne_zero (show n ≠ 0 by omega)
      have hread := readMembers_write (level + 1) level ms k v n rest h (by omega)
      rw [write]
      simp only [List.cons_append, List.append_assoc, List.nil_append]
      rw [readValue, hquoted.skipSpace_break]
      exact congrArg (Option.map fun (ms, r) => (object ms, r)) hread

end Rows

/-! ### All values -/

mutual

/-- **A value is read back.** -/
theorem readsBack (l : Layout) (v : Json) (h : v.IsNatural) : ReadsBack l v := by
  match v with
  | null => exact readsBack_null l
  | bool b => exact readsBack_bool l b
  | natural n => exact readsBack_natural l n
  | number _ => exact absurd h id
  | string s => exact readsBack_string l s
  | array items => exact readsBack_array (readsBack_items l items h)
  | object members => exact readsBack_object (readsBack_members l members h)

theorem readsBack_items (l : Layout) (items : List Json) (h : AreNatural items) :
    ∀ v ∈ items, ReadsBack l v := by
  match items with
  | [] => exact fun v hv => absurd hv List.not_mem_nil
  | v :: vs => exact List.forall_mem_cons.mpr ⟨readsBack l v h.1, readsBack_items l vs h.2⟩

theorem readsBack_members (l : Layout) (members : List (String × Json))
    (h : MembersAreNatural members) : ∀ m ∈ members, ReadsBack l m.2 := by
  match members with
  | [] => exact fun m hm => absurd hm List.not_mem_nil
  | (k, v) :: ms => exact List.forall_mem_cons.mpr ⟨readsBack l v h.1, readsBack_members l ms h.2⟩

end

/-! ## Texts -/

/-- **A written value is the value of its text**, also with white space behind it. -/
theorem read?_write (l : Layout) {v : Json} (h : v.IsNatural) {space : List Char}
    (hspace : ∀ c ∈ space, isSpace c = true) :
    read? (String.ofList (write l 0 v ++ space)) = some v := by
  have hv := readsBack l v h
  have hends : EndsNumber space := by
    intro c hc
    have hmem := hspace c (List.mem_of_head? hc)
    simp only [isSpace, Bool.or_eq_true, decide_eq_true_eq] at hmem
    rcases hmem with ((rfl | rfl) | rfl) | rfl <;> decide
  have hread := hv.reads 0 ((write l 0 v ++ space).length + 1) space hends (by simp)
  have hrest : skipSpace space = [] := by
    rw [skipSpace, ← List.append_nil space, List.dropWhile_append_of_pos hspace, List.dropWhile_nil]
  rw [read?, String.toList_ofList, (hv.opens 0).skipSpace_eq]
  simp only [hread, Option.bind_eq_bind, Option.bind_some, hrest, List.isEmpty_nil, if_true]

end Json
end AggregateAudit
