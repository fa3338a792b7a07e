import AggregateAudit.Proofs.Sketch
import Mathlib.Data.List.Chain

/-!
# Cutting undoes writing

Two steps lead from a text to the rows that the grammar reads: the text is cut into lexemes,
and the lexemes are folded into pieces.  Here both are undone, for the lexemes and pieces that
sketches are made of.

How far a lexeme reaches depends on what follows it.  A word goes on as long as characters of
names follow, a blank as long as blanks do, and a few marks are the beginning of longer ones.
So a row of lexemes is read back from its characters if each of them *ends before* the next
(`Lexeme.endsBefore`), which is a question about their kinds and, for two marks, about the
first one (`lexemes_charsOf`).

Brackets are matched by a machine with a stack.  Reading the lexemes of one piece leaves the
stack as it was and puts the piece on the level (`Nesting.foldl_step_lexemes`), so a row of
pieces is read back from its lexemes (`pieces_lexemesAll`).
-/

namespace AggregateAudit
namespace Source

/-! ## Characters -/

theorem bounds_of_isAlpha {c : Char} (h : c.isAlpha = true) :
    (65 ≤ c.toNat ∧ c.toNat ≤ 90) ∨ (97 ≤ c.toNat ∧ c.toNat ≤ 122) := by
  have hcases : (decide (c.val ≥ 'A'.val ∧ c.val ≤ 'Z'.val) ||
      decide (c.val ≥ 'a'.val) && decide (c.val ≤ 'z'.val)) = true := h
  simpa [UInt32.le_iff_toNat_le] using hcases

theorem ne_of_isAlpha {c : Char} (hc : c.isAlpha = true) (d : Char) (hd : d.isAlpha = false) :
    c ≠ d := by
  rintro rfl
  rw [hc] at hd
  cases hd

theorem isBlank_of_isAlpha {c : Char} (h : c.isAlpha = true) : isBlank c = false := by
  have hbounds := bounds_of_isAlpha h
  have hne := ne_of_isAlpha h
  simp [isBlank, hne ' ' rfl, hne '\n' rfl, hne '\t' rfl, hne '\r' rfl]
  omega

theorem isDigit_of_isAlpha {c : Char} (h : c.isAlpha = true) : c.isDigit = false := by
  have hbounds := bounds_of_isAlpha h
  have hval : c.val.toNat = c.toNat := rfl
  have hnine : '9'.val.toNat = 57 := rfl
  simp only [Char.isDigit, ge_iff_le, UInt32.le_iff_toNat_le, hval, hnine,
    Bool.and_eq_false_imp, decide_eq_true_eq, decide_eq_false_iff_not]
  omega

theorem isNameStart_of_isAlpha {c : Char} (h : c.isAlpha = true) : Text.isNameStart c = true := by
  have hbounds := bounds_of_isAlpha h
  have hname : Text.isNameChar c = true := by simp [Text.isNameChar, Char.isAlphanum, h]
  have hlow : ¬0x80 ≤ c.toNat := by omega
  simp [Text.isNameStart, hname, isDigit_of_isAlpha h, hlow]

/-! ## Lexemes -/

/-- The marks of sketches. -/
def closedMarks : List String := ["\x7b", "\x7d", "(", ")", ">", ";", ",", "=>"]

/-- The marks of sketches that another mark must not follow at once. -/
def openMarks : List String := ["<", ":", "."]

/-- A word ends before a character that goes on no name. -/
theorem nameExtent_append {w rest : List Char}
    (hw : ∀ c ∈ w, Text.isNameChar c = true)
    (hrest : ∀ c ∈ rest.head?, Text.isNameChar c = false ∧ c ≠ '\\') :
    nameExtent 0 (w ++ rest) = w.length := by
  induction w with
  | nil =>
    cases rest with
    | nil => rfl
    | cons c cs =>
      obtain ⟨hc, hne⟩ := hrest c rfl
      have hnone : universalExtent? (c :: cs) = none := by
        unfold universalExtent?
        split <;> simp_all
      simp [nameExtent, hc, hnone]
  | cons c w ih =>
    rw [List.cons_append, nameExtent, if_pos (hw c List.mem_cons_self),
      ih fun d hd => hw d (List.mem_cons_of_mem _ hd), List.length_cons, Nat.add_comm]

/-- Where no blank, directive, comment or string with code in it begins, there is a word, a
literal or a mark. -/
theorem codeLexeme_eq {c : Char} (cs : List Char) (hblank : isBlank c = false)
    (hc : c ∉ ['#', '/', '$', '@']) :
    codeLexeme c cs =
      match wordExtent? (c :: cs), literalExtent? (c :: cs), markExtent? (c :: cs) with
      | some n, _, _ => (.word, n, none)
      | none, some n, _ => (.literal, n, none)
      | none, none, some n => (.mark, n, none)
      | none, none, none =>
        (.stray, if c = '"' || c = '\'' then 1 + lineExtent cs else 1, none) := by
  obtain ⟨hhash, hslash, hdollar, hat⟩ : c ≠ '#' ∧ c ≠ '/' ∧ c ≠ '$' ∧ c ≠ '@' := by
    simpa using hc
  have hcomment : commentExtent? (c :: cs) = none := by
    unfold commentExtent?
    split <;> simp_all
  have hempty : emptyTextExtent? (c :: cs) = none := by
    simp [emptyTextExtent?, runLength, hdollar]
  have htext : textStart? (c :: cs) = none := by
    simp [textStart?, runLength, hdollar, hat]
  simp only [codeLexeme, hblank, hhash, hslash, hcomment, hempty, htext]
  cases wordExtent? (c :: cs) <;> cases literalExtent? (c :: cs) <;>
    cases markExtent? (c :: cs) <;> rfl

theorem codeLexeme_word {c : Char} {w rest : List Char} (hc : c.isAlpha = true)
    (hw : ∀ d ∈ w, Text.isNameChar d = true)
    (hrest : ∀ c ∈ rest.head?, Text.isNameChar c = false ∧ c ≠ '\\') :
    codeLexeme c (w ++ rest) = (.word, w.length + 1, none) := by
  have hne := ne_of_isAlpha hc
  have hname : nameExtent 0 (c :: (w ++ rest)) = w.length + 1 := by
    refine nameExtent_append (w := c :: w) (fun d hd => ?_) hrest
    rcases List.mem_cons.mp hd with rfl | hd
    · simp [Text.isNameChar, Char.isAlphanum, hc]
    · exact hw d hd
  have hword : wordExtent? (c :: (w ++ rest)) = some (w.length + 1) := by
    unfold wordExtent?
    split
    · simp_all
    · simp [beginsName, isNameStart_of_isAlpha hc, hname]
  rw [codeLexeme_eq _ (isBlank_of_isAlpha hc)
    (by simp [hne '#' rfl, hne '/' rfl, hne '$' rfl, hne '@' rfl]), hword]

theorem codeLexeme_blank {rest : List Char} (hrest : ∀ c ∈ rest.head?, isBlank c = false) :
    codeLexeme ' ' rest = (.blank, 1, none) := by
  have hnone : rest.takeWhile isBlank = [] := by
    cases rest with
    | nil => rfl
    | cons c cs => simp [hrest c rfl]
  have hblank : isBlank ' ' = true := rfl
  simp [codeLexeme, hblank, hnone]

/-- Most marks end where they end, whatever follows. -/
theorem codeLexeme_closedMark (rest : List Char) :
    ∀ m ∈ closedMarks, ∃ c cs, m.toList = c :: cs ∧
      codeLexeme c (cs ++ rest) = (.mark, cs.length + 1, none) := by
  simp only [closedMarks, List.forall_mem_cons]
  exact ⟨⟨_, _, rfl, rfl⟩, ⟨_, _, rfl, rfl⟩, ⟨_, _, rfl, rfl⟩, ⟨_, _, rfl, rfl⟩, ⟨_, _, rfl, rfl⟩,
    ⟨_, _, rfl, rfl⟩, ⟨_, _, rfl, rfl⟩, ⟨_, _, rfl, rfl⟩, nofun⟩

/-- The marks of more than one character have a second one that neither separates lexemes
nor begins a word. -/
theorem markExtent?_of_single {c : Char} {rest : List Char} (hc : c ∈ shortMarks)
    (hrest : ∀ d ∈ rest.head?, d = ' ' ∨ d.isAlpha = true) : markExtent? (c :: rest) = some 1 := by
  have hsecond : longMarks.all (fun m => m.tail.head?.any fun y => y != ' ' && !y.isAlpha)
      = true := by decide +kernel
  have hlong : longMarks.find? (·.isPrefixOf (c :: rest)) = none := by
    refine List.find?_eq_none.mpr fun m hm hprefix => ?_
    obtain ⟨y, hy, hmark⟩ := (Option.any_eq_true _ _).mp (List.all_eq_true.mp hsecond m hm)
    obtain ⟨hblank, halpha⟩ : y ≠ ' ' ∧ y.isAlpha = false := by simpa using hmark
    obtain ⟨x, zs, rfl⟩ : ∃ x zs, m = x :: y :: zs := by
      match m, hy with
      | x :: _ :: zs, rfl => exact ⟨x, zs, rfl⟩
    cases rest with
    | nil => simp at hprefix
    | cons d rest =>
      obtain ⟨-, rfl, -⟩ : x = c ∧ y = d ∧ _ := by simpa using hprefix
      rcases hrest y rfl with h | h
      · exact hblank h
      · simp [halpha] at h
  simp [markExtent?, hlong, hc]

/-- A point is no number where no digit follows. -/
theorem literalExtent?_point {rest : List Char}
    (hrest : ∀ d ∈ rest.head?, d = ' ' ∨ d.isAlpha = true) :
    literalExtent? ('.' :: rest) = none := by
  have hnumber : literalExtent? ('.' :: rest)
      = ((fractionExtent? ('.' :: rest)).map fun n =>
          (n + scaleExtent (('.' :: rest).drop n), false)).map Prod.fst := rfl
  cases rest with
  | nil => rfl
  | cons d rest =>
    have hdigit : d.isDigit = false := by
      rcases hrest d rfl with rfl | hd
      · rfl
      · exact isDigit_of_isAlpha hd
    rw [hnumber]
    simp [fractionExtent?, decimalExtent?, hdigit]

theorem codeLexeme_openMark {c : Char} (hc : c ∈ ['<', ':', '.']) {rest : List Char}
    (hrest : ∀ d ∈ rest.head?, d = ' ' ∨ d.isAlpha = true) :
    codeLexeme c rest = (.mark, 1, none) := by
  have hword : wordExtent? (c :: rest) = none := by
    revert c
    simp only [List.forall_mem_cons]
    exact ⟨rfl, rfl, rfl, nofun⟩
  have hliteral : literalExtent? (c :: rest) = none := by
    revert c
    simp only [List.forall_mem_cons]
    exact ⟨fun _ => rfl, fun _ => rfl, fun _ => literalExtent?_point hrest, nofun⟩
  obtain ⟨hshort, hblank, hother⟩ :
      c ∈ shortMarks ∧ isBlank c = false ∧ c ∉ ['#', '/', '$', '@'] := by
    revert c
    simp only [List.forall_mem_cons]
    exact ⟨fun _ _ => by decide, fun _ _ => by decide, fun _ _ => by decide, nofun⟩
  rw [codeLexeme_eq rest hblank hother, hword, hliteral, markExtent?_of_single hshort hrest]

/-! ## Rows of lexemes -/

/-- A lexeme of the text of a sketch. -/
inductive Lexeme.IsPlain : Lexeme → Prop
  | blank : IsPlain ⟨.blank, " "⟩
  | word {w : String} (hw : isPlainWord w = true) : IsPlain ⟨.word, w⟩
  | mark {m : String} (hm : m ∈ closedMarks ++ openMarks) : IsPlain ⟨.mark, m⟩

/-- Whether a lexeme ends where another begins. -/
def Lexeme.endsBefore (l l' : Lexeme) : Bool :=
  match l.kind, l'.kind with
  | .word, .word => false
  | .blank, .blank => false
  | .mark, .mark => !openMarks.contains l.text
  | _, _ => true

namespace Lexeme

/-- The characters that the marks of sketches begin with. -/
def markStarts : List Char := ['\x7b', '\x7d', '(', ')', '>', ';', ',', '=', '<', ':', '.']

theorem of_mem_markStarts {c : Char} (hc : c ∈ markStarts) :
    isBlank c = false ∧ Text.isNameChar c = false ∧ c ≠ '\\' := by
  have hall : markStarts.all (fun c => !isBlank c && (!Text.isNameChar c && c != '\\')) = true := by
    decide
  simpa using List.all_eq_true.mp hall c hc

/-- The first character of a lexeme tells its kind. -/
theorem IsPlain.first {l : Lexeme} (h : l.IsPlain) :
    ∃ c cs, l.text.toList = c :: cs ∧
      (l.kind = .blank ∧ c = ' ' ∨ l.kind = .word ∧ c.isAlpha = true ∨
        l.kind = .mark ∧ c ∈ markStarts) := by
  cases h with
  | blank => exact ⟨' ', [], rfl, .inl ⟨rfl, rfl⟩⟩
  | @word w hw =>
    obtain ⟨hhead, -⟩ := Bool.and_eq_true_iff.mp hw
    cases hcs : w.toList with
    | nil => simp [hcs] at hhead
    | cons c cs => exact ⟨c, cs, rfl, .inr (.inl ⟨rfl, by simpa [hcs] using hhead⟩)⟩
  | @mark m hm =>
    have hmarks : (closedMarks ++ openMarks).all (fun m => m.toList.head?.any markStarts.contains)
        = true := by decide +kernel
    obtain ⟨c, hhead, hc⟩ := (Option.any_eq_true _ _).mp (List.all_eq_true.mp hmarks m hm)
    obtain ⟨cs, hcs⟩ := List.head?_eq_some_iff.mp hhead
    exact ⟨c, cs, hcs, .inr (.inr ⟨rfl, List.contains_iff_mem.mp hc⟩)⟩

/-- The first character behind a lexeme. -/
theorem first_charsOf {P : Char → Prop} {l : Lexeme} {ls : List Lexeme}
    (hls : ∀ l' ∈ ls.head?, l'.IsPlain ∧ l.endsBefore l' = true)
    (hP : ∀ l' : Lexeme, l.endsBefore l' = true → ∀ c,
      (l'.kind = .blank ∧ c = ' ' ∨ l'.kind = .word ∧ c.isAlpha = true ∨
        l'.kind = .mark ∧ c ∈ markStarts) → P c) :
    ∀ c ∈ (charsOf ls).head?, P c := by
  cases ls with
  | nil => simp
  | cons l' ls =>
    obtain ⟨hplain, hends⟩ := hls l' rfl
    obtain ⟨c, cs, htext, hfirst⟩ := hplain.first
    simpa [htext] using hP l' hends c hfirst

/-- A lexeme is cut off in front of one that it ends before. -/
theorem IsPlain.codeLexeme {l : Lexeme} (hl : l.IsPlain) {ls : List Lexeme}
    (hls : ∀ l' ∈ ls.head?, l'.IsPlain ∧ l.endsBefore l' = true) :
    ∃ c cs, l.text.toList = c :: cs ∧
      Source.codeLexeme c (cs ++ charsOf ls) = (l.kind, cs.length + 1, none) := by
  cases hl with
  | blank =>
    refine ⟨' ', [], rfl, codeLexeme_blank (first_charsOf hls fun l' hends c hfirst => ?_)⟩
    rcases hfirst with ⟨hkind, -⟩ | ⟨-, hc⟩ | ⟨-, hc⟩
    · simp [endsBefore, hkind] at hends
    · exact isBlank_of_isAlpha hc
    · exact (of_mem_markStarts hc).1
  | @word w hw =>
    obtain ⟨hhead, hall⟩ := Bool.and_eq_true_iff.mp hw
    cases hcs : w.toList with
    | nil => simp [hcs] at hhead
    | cons c cs =>
      refine ⟨c, cs, rfl, codeLexeme_word (by simpa [hcs] using hhead) (fun d hd => ?_)
        (first_charsOf hls fun l' hends c hfirst => ?_)⟩
      · have hd := List.all_eq_true.mp hall d (hcs ▸ List.mem_cons_of_mem c hd)
        rcases Bool.or_eq_true_iff.mp hd with h | h <;> simp_all [Text.isNameChar]
      · rcases hfirst with ⟨-, rfl⟩ | ⟨hkind, -⟩ | ⟨-, hc⟩
        · decide
        · simp [endsBefore, hkind] at hends
        · exact (of_mem_markStarts hc).2
  | @mark m hm =>
    rcases List.mem_append.mp hm with hclosed | hopen
    · exact codeLexeme_closedMark (charsOf ls) m hclosed
    · have hrest : ∀ d ∈ (charsOf ls).head?, d = ' ' ∨ d.isAlpha = true :=
        first_charsOf hls fun l' hends c hfirst => by
          rcases hfirst with ⟨-, hc⟩ | ⟨-, hc⟩ | ⟨hkind, -⟩
          · exact .inl hc
          · exact .inr hc
          · simp_all [endsBefore]
      have hsingle : ∀ m ∈ openMarks, ∃ c, c ∈ ['<', ':', '.'] ∧ m.toList = [c] := by
        simp only [openMarks, List.forall_mem_cons]
        exact ⟨⟨'<', by decide, rfl⟩, ⟨':', by decide, rfl⟩, ⟨'.', by decide, rfl⟩, nofun⟩
      obtain ⟨c, hc, htext⟩ := hsingle m hopen
      exact ⟨c, [], htext, codeLexeme_openMark hc hrest⟩

end Lexeme

/-- A row of lexemes of which each ends where the next one begins. -/
structure IsSpaced (ls : List Lexeme) : Prop where
  plain : ∀ l ∈ ls, l.IsPlain
  chain : ls.IsChain fun l l' => l.endsBefore l' = true

/-- Outside of interpolated texts the next lexeme is one of code. -/
theorem nextLexeme_nil {c : Char} {cs : List Char} {kind : LexemeKind} {n : Nat}
    (h : codeLexeme c cs = (kind, n, none)) : nextLexeme [] c cs = (kind, n, []) := by
  unfold nextLexeme
  simp only [h]

theorem lexemesUpTo_charsOf {ls : List Lexeme} (h : IsSpaced ls) {n : Nat}
    (hn : (charsOf ls).length ≤ n) : lexemesUpTo n [] (charsOf ls) = ls := by
  induction ls generalizing n with
  | nil => cases n <;> rfl
  | cons l ls ih =>
    obtain ⟨hl, hplain⟩ := List.forall_mem_cons.mp h.plain
    obtain ⟨hends, hchain⟩ := List.isChain_cons.mp h.chain
    obtain ⟨c, cs, htext, hcode⟩ := hl.codeLexeme fun l' hl' =>
      ⟨hplain l' (List.mem_of_mem_head? hl'), hends l' hl'⟩
    rw [charsOf_cons, htext] at hn ⊢
    cases n with
    | zero => simp at hn
    | succ n =>
      have hrest := ih ⟨hplain, hchain⟩ (n := n) (by simp at hn; omega)
      have hlexeme : ⟨l.kind, String.ofList (c :: cs)⟩ = l := by rw [← htext, String.ofList_toList]
      rw [List.cons_append, lexemesUpTo]
      simp only [nextLexeme_nil hcode, Nat.add_sub_cancel, List.take_left, List.drop_left, hlexeme,
        hrest]

/-- Cutting a text undoes writing it. -/
theorem lexemes_charsOf {ls : List Lexeme} (h : IsSpaced ls) : lexemes (charsOf ls) = ls :=
  lexemesUpTo_charsOf h (Nat.le_refl _)

/-! ## Pieces -/

/-- The marks of sketches that are no brackets. -/
def separatorMarks : List String := [">", ";", ",", "=>", "<", ":", "."]

/-- A piece of a sketch. -/
inductive Piece.IsPlain : Piece → Prop
  | word {lead : List Lexeme} {w : String} (hlead : lead = [] ∨ lead = gap)
      (hw : isPlainWord w = true) : IsPlain (wordPiece lead w)
  | mark {lead : List Lexeme} {m : String} (hlead : lead = [] ∨ lead = gap)
      (hm : m ∈ separatorMarks) : IsPlain (markPiece lead m)
  | parens {inside : List Piece} (hinside : ∀ p ∈ inside, IsPlain p) : IsPlain (parens inside)
  | braces {inside : List Piece} (hinside : ∀ p ∈ inside, IsPlain p) : IsPlain (braces inside)

namespace Piece

@[simp] theorem lexemesAll_append (ps qs : List Piece) :
    lexemesAll (ps ++ qs) = lexemesAll ps ++ lexemesAll qs := by
  induction ps with
  | nil => rfl
  | cons p ps ih => rw [List.cons_append, lexemesAll, ih, lexemesAll, List.append_assoc]

@[simp] theorem lexemesAll_nil : lexemesAll [] = [] := rfl

theorem lexemesAll_wordPiece (lead : List Lexeme) (w : String) (ps : List Piece) :
    lexemesAll (wordPiece lead w :: ps) = lead ++ ⟨.word, w⟩ :: lexemesAll ps := by
  simp [lexemesAll, wordPiece, lexemes]

theorem lexemesAll_markPiece (lead : List Lexeme) (m : String) (ps : List Piece) :
    lexemesAll (markPiece lead m :: ps) = lead ++ ⟨.mark, m⟩ :: lexemesAll ps := by
  simp [lexemesAll, markPiece, lexemes]

theorem lexemesAll_parens (inside ps : List Piece) :
    lexemesAll (parens inside :: ps)
      = ⟨.mark, "("⟩ :: (lexemesAll inside ++ ⟨.mark, ")"⟩ :: lexemesAll ps) := by
  simp [lexemesAll, parens, lexemes]

theorem lexemesAll_braces (inside ps : List Piece) :
    lexemesAll (braces inside :: ps) = gap ++ ⟨.mark, "\x7b"⟩ ::
      (lexemesAll inside ++ (gap ++ ⟨.mark, "\x7d"⟩ :: lexemesAll ps)) := by
  simp [lexemesAll, braces, lexemes]

theorem mem_lexemesAll {ps : List Piece} {l : Lexeme} :
    l ∈ lexemesAll ps ↔ ∃ p ∈ ps, l ∈ p.lexemes := by
  induction ps with
  | nil => simp [lexemesAll]
  | cons p ps ih => simp [lexemesAll, ih]

theorem isPlain_of_isGap {lead : List Lexeme} (h : lead = [] ∨ lead = gap) :
    ∀ l ∈ lead, l.IsPlain := by
  rcases h with rfl | rfl
  · exact nofun
  · exact List.forall_mem_singleton.mpr .blank

theorem IsPlain.lexemes {p : Piece} (h : p.IsPlain) : ∀ l ∈ p.lexemes, l.IsPlain := by
  have hinside : ∀ {ps : List Piece}, (∀ p ∈ ps, ∀ l ∈ p.lexemes, l.IsPlain) →
      ∀ l ∈ lexemesAll ps, l.IsPlain := fun ih l hl => by
    obtain ⟨p, hp, hmem⟩ := mem_lexemesAll.mp hl
    exact ih p hp l hmem
  induction h with
  | word hlead hw =>
    simp only [wordPiece, Piece.lexemes, List.forall_mem_append, List.forall_mem_singleton]
    exact ⟨isPlain_of_isGap hlead, .word hw⟩
  | @mark lead m hlead hm =>
    simp only [markPiece, Piece.lexemes, List.forall_mem_append, List.forall_mem_singleton]
    exact ⟨isPlain_of_isGap hlead,
      .mark ((by decide : ∀ m ∈ separatorMarks, m ∈ closedMarks ++ openMarks) m hm)⟩
  | parens _ ih =>
    simp only [Source.parens, Piece.lexemes, List.forall_mem_append, List.forall_mem_cons]
    exact ⟨List.forall_mem_nil _, .mark (by decide), ⟨hinside ih, List.forall_mem_nil _⟩,
      List.forall_mem_singleton.mpr (.mark (by decide))⟩
  | braces _ ih =>
    simp only [Source.braces, Piece.lexemes, List.forall_mem_append, List.forall_mem_cons]
    exact ⟨isPlain_of_isGap (.inr rfl), .mark (by decide),
      ⟨hinside ih, isPlain_of_isGap (.inr rfl)⟩, List.forall_mem_singleton.mpr (.mark (by decide))⟩

end Piece

namespace Nesting

variable {stack : List OpenBracket} {level : List Piece} {pending : List Lexeme}

theorem foldl_step_lead {lead : List Lexeme} (h : lead = [] ∨ lead = gap) :
    lead.foldl step ⟨stack, level, []⟩ = ⟨stack, level, lead.reverse⟩ := by
  rcases h with rfl | rfl <;> rfl

theorem step_eq_push {l : Lexeme} (htrivia : l.isTrivia = false) (hopens : opens l = none)
    (hcloses : closes l = none) :
    step ⟨stack, level, pending⟩ l = ⟨stack, .lexeme pending.reverse l :: level, []⟩ := by
  simp [step, htrivia, hopens, hcloses, push]

/-- A closer closes the innermost bracket if it is its own. -/
theorem step_eq_close {l : Lexeme} {o : OpenBracket} (htrivia : l.isTrivia = false)
    (hopens : opens l = none) (hcloses : closes l = some o.bracket) :
    step ⟨o :: stack, level, pending⟩ l =
      ⟨stack, .group o.lead o.bracket o.opener level.reverse pending.reverse (some l) :: o.before,
        []⟩ := by
  simp [step, htrivia, hopens, hcloses, isOpen, abandonTo, close]

theorem foldl_step_lexemesAll {ps : List Piece}
    (h : ∀ p ∈ ps, ∀ stack level,
      p.lexemes.foldl step ⟨stack, level, []⟩ = ⟨stack, p :: level, []⟩) :
    (Piece.lexemesAll ps).foldl step ⟨stack, level, []⟩ = ⟨stack, ps.reverse ++ level, []⟩ := by
  induction ps generalizing level with
  | nil => rfl
  | cons p ps ih =>
    obtain ⟨hp, hps⟩ := List.forall_mem_cons.mp h
    rw [Piece.lexemesAll, List.foldl_append, hp, ih hps, List.reverse_cons, List.append_assoc]
    rfl

/-- Reading the lexemes of a piece puts the piece on the level. -/
theorem foldl_step_lexemes {p : Piece} (h : p.IsPlain) (stack : List OpenBracket)
    (level : List Piece) :
    p.lexemes.foldl step ⟨stack, level, []⟩ = ⟨stack, p :: level, []⟩ := by
  induction h generalizing stack level with
  | @word lead w hlead hw =>
    rw [wordPiece, Piece.lexemes, List.foldl_append, foldl_step_lead hlead, List.foldl_cons,
      List.foldl_nil, step_eq_push rfl (by simp [opens]) (by simp [closes]), List.reverse_reverse]
  | @mark lead m hlead hm =>
    have hplain : ∀ m ∈ separatorMarks, opens ⟨.mark, m⟩ = none ∧ closes ⟨.mark, m⟩ = none := by
      decide
    rw [markPiece, Piece.lexemes, List.foldl_append, foldl_step_lead hlead, List.foldl_cons,
      List.foldl_nil, step_eq_push rfl (hplain m hm).1 (hplain m hm).2, List.reverse_reverse]
  | @parens inside _ ih =>
    have hopen : step ⟨stack, level, []⟩ ⟨.mark, "("⟩
        = ⟨⟨[], .paren, ⟨.mark, "("⟩, level⟩ :: stack, [], []⟩ := rfl
    simp only [parens, Piece.lexemes, List.nil_append, List.append_nil, List.foldl_cons,
      List.foldl_append, List.foldl_nil, hopen, foldl_step_lexemesAll ih, Option.toList_some]
    rw [step_eq_close rfl rfl rfl, List.reverse_reverse]
    rfl
  | @braces inside _ ih =>
    have hopen : step ⟨stack, level, gap.reverse⟩ ⟨.mark, "\x7b"⟩
        = ⟨⟨gap, .brace, ⟨.mark, "\x7b"⟩, level⟩ :: stack, [], []⟩ := rfl
    have hlead : ∀ stack level, gap.foldl step ⟨stack, level, []⟩ = ⟨stack, level, gap.reverse⟩ :=
      fun _ _ => foldl_step_lead (.inr rfl)
    simp only [braces, Piece.lexemes, List.append_nil, List.foldl_cons, List.foldl_append,
      List.foldl_nil, hlead, hopen, foldl_step_lexemesAll ih, Option.toList_some]
    rw [step_eq_close rfl rfl rfl, List.reverse_reverse]
    rfl

end Nesting

/-- Matching the brackets undoes writing them. -/
theorem pieces_lexemesAll {ps : List Piece} (h : ∀ p ∈ ps, p.IsPlain) :
    pieces (Piece.lexemesAll ps) = (ps, []) := by
  have hread : (Piece.lexemesAll ps).foldl Nesting.step {} = ⟨[], ps.reverse ++ [], []⟩ :=
    Nesting.foldl_step_lexemesAll fun p hp => Nesting.foldl_step_lexemes (h p hp)
  simp [pieces, hread, Nesting.finish]

end Source
end AggregateAudit
