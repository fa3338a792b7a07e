import AggregateAudit.Proofs.Cutting

/-!
# The text of sketches falls into their pieces

The two conditions under which a text is read back are shown for the pieces of sketches: they
are plain (`ArePlain.forest`), and each of their lexemes ends before the next
(`isSpaced_forestPieces`).  For the second, rows are put together from right to left.  What
stands to the right has to be fit to follow a word (`MayFollowWord`), and so is the row that
is put in front of it; the few marks behind which not everything may stand are looked at where
they occur.
-/

namespace AggregateAudit
namespace Source

/-! ## The pieces of sketches are plain -/

/-- Rows of plain pieces. -/
def ArePlain (ps : List Piece) : Prop := ∀ p ∈ ps, p.IsPlain

namespace ArePlain

theorem nil : ArePlain [] := nofun

theorem cons {p : Piece} {ps : List Piece} (hp : p.IsPlain) (hps : ArePlain ps) :
    ArePlain (p :: ps) := List.forall_mem_cons.mpr ⟨hp, hps⟩

theorem append {ps qs : List Piece} (hps : ArePlain ps) (hqs : ArePlain qs) :
    ArePlain (ps ++ qs) := List.forall_mem_append.mpr ⟨hps, hqs⟩

theorem flatMap {α : Type} {f : α → List Piece} (h : ∀ a, ArePlain (f a)) (as : List α) :
    ArePlain (as.flatMap f) := fun p hp => by
  obtain ⟨a, -, hmem⟩ := List.mem_flatMap.mp hp
  exact h a p hmem

theorem name {lead : List Lexeme} (hlead : lead = [] ∨ lead = gap) (n : Identifier) :
    (wordPiece lead n.text).IsPlain := .word hlead n.isPlainWord

theorem entryPieces {α : Type} {entry : List Lexeme → α → List Piece} {lead : List Lexeme}
    (hlead : lead = [] ∨ lead = gap)
    (h : ∀ lead a, lead = [] ∨ lead = gap → ArePlain (entry lead a)) (as : List α) :
    ArePlain (entryPieces entry lead as) := by
  cases as with
  | nil => exact nil
  | cons a as =>
    exact append (h lead a hlead)
      (flatMap (fun b => cons (.mark (.inl rfl) (by decide)) (h gap b (.inr rfl))) as)

theorem argumentPieces (names : List Identifier) : ArePlain (argumentPieces names) := by
  cases names with
  | nil => exact nil
  | cons n names =>
    refine append (cons (.mark (.inl rfl) (by decide)) ?_) (cons (.mark (.inl rfl) (by decide)) nil)
    exact entryPieces (.inl rfl) (fun lead n hlead => cons (name hlead n) nil) _

theorem base {lead : List Lexeme} (hlead : lead = [] ∨ lead = gap) (b : SketchBase) :
    ArePlain (b.pieces lead) := by
  refine cons (name hlead b.first) (append ?_ (argumentPieces b.arguments))
  exact flatMap (fun n => cons (.mark (.inl rfl) (by decide)) (cons (name (.inl rfl) n) nil)) _

theorem header {lead : List Lexeme} (hlead : lead = [] ∨ lead = gap) (h : SketchHeader) :
    ArePlain (h.pieces lead) := by
  refine cons (.word hlead (by cases h.kind <;> rfl)) (cons (name (.inr rfl) h.name) ?_)
  cases h.bases with
  | nil => exact nil
  | cons b bases =>
    exact cons (.mark (.inr rfl) (by decide))
      (entryPieces (.inr rfl) (fun lead b hlead => base hlead b) _)

theorem modifierPieces (ms : List SketchModifier) : ArePlain (modifierPieces ms) := by
  have hword : ∀ m ∈ sketchModifiers, isPlainWord m.keyword = true := by decide +kernel
  intro p hp
  obtain ⟨m, -, rfl⟩ := List.mem_map.mp hp
  have hm : isPlainWord m.text = true := hword m.modifier m.mem
  exact .word (.inr rfl) hm

theorem callPieces (n : Identifier) : ArePlain (callPieces n) :=
  cons (name (.inr rfl) n) (cons (.parens nil) (cons (.mark (.inl rfl) (by decide)) nil))

theorem body (b : SketchBody) : ArePlain b.pieces := by
  cases b with
  | block calls => exact cons (.braces (flatMap callPieces calls)) nil
  | arrow n => exact cons (.mark (.inr rfl) (by decide)) (callPieces n)
  | absent => exact cons (.mark (.inl rfl) (by decide)) nil

mutual

theorem member : ∀ m : SketchMember, ArePlain m.pieces
  | .constructor c => by
    have hparameters : ArePlain (parameterPieces c.parameterNames) :=
      entryPieces (.inl rfl)
        (fun lead n hlead =>
          cons (.word hlead (by decide +kernel)) (cons (name (.inr rfl) n) nil)) _
    exact append (modifierPieces c.modifiers)
      (cons (name (.inr rfl) c.name) (cons (.parens hparameters) (body c.body)))
  | .method m =>
    append (modifierPieces m.modifiers) (cons (.word (.inr rfl) (by decide +kernel))
      (cons (name (.inr rfl) m.name) (cons (.parens nil) (cons (.braces nil) nil))))
  | .type h ms => append (header (.inr rfl) h) (cons (.braces (members ms)) nil)

theorem members : ∀ ms : List SketchMember, ArePlain (SketchMember.piecesAll ms)
  | [] => nil
  | m :: ms => append (member m) (members ms)

end

theorem sketch {lead : List Lexeme} (hlead : lead = [] ∨ lead = gap) (s : Sketch) :
    ArePlain (s.pieces lead) :=
  append (header hlead s.header) (cons (.braces (members s.members)) nil)

theorem forest (ss : List Sketch) : ArePlain (forestPieces ss) := by
  cases ss with
  | nil => exact nil
  | cons s ss => exact append (sketch (.inl rfl) s) (flatMap (sketch (.inr rfl)) ss)

end ArePlain

/-! ## The lexemes of sketches are apart -/

/-- A row of lexemes of which each ends where the next one begins, and that may stand behind
a word. -/
structure MayFollowWord (ls : List Lexeme) : Prop where
  chain : ls.IsChain fun l l' => l.endsBefore l' = true
  first : ∀ l ∈ ls.head?, l.kind ≠ .word

namespace MayFollowWord

open Piece

variable {ls : List Lexeme}

theorem nil : MayFollowWord [] := ⟨.nil, nofun⟩

theorem chain_word (h : MayFollowWord ls) (w : String) :
    (⟨.word, w⟩ :: ls).IsChain fun l l' => l.endsBefore l' = true := by
  refine List.isChain_cons.mpr ⟨fun l hl => ?_, h.chain⟩
  have hkind := h.first l hl
  unfold Lexeme.endsBefore
  cases hk : l.kind <;> simp_all

theorem gap_word (h : MayFollowWord ls) (w : String) :
    MayFollowWord (gap ++ ⟨.word, w⟩ :: ls) :=
  ⟨List.isChain_cons_cons.mpr ⟨rfl, h.chain_word w⟩, by simp [gap]⟩

/-- Behind most marks anything may stand. -/
theorem mark {m : String} (hm : m ∉ openMarks)
    (h : ls.IsChain fun l l' => l.endsBefore l' = true) : MayFollowWord (⟨.mark, m⟩ :: ls) := by
  refine ⟨List.isChain_cons.mpr ⟨fun l hl => ?_, h⟩, by simp⟩
  unfold Lexeme.endsBefore
  cases hk : l.kind <;> simp [hm]

theorem gap_mark {m : String} (hm : m ∉ openMarks)
    (h : ls.IsChain fun l l' => l.endsBefore l' = true) :
    MayFollowWord (gap ++ ⟨.mark, m⟩ :: ls) :=
  ⟨List.isChain_cons_cons.mpr ⟨rfl, (mark hm h).chain⟩, by simp [gap]⟩

theorem flatMap {α : Type} {f : α → List Piece}
    (hf : ∀ a {ls}, MayFollowWord ls → MayFollowWord (Piece.lexemesAll (f a) ++ ls))
    (as : List α) (h : MayFollowWord ls) :
    MayFollowWord (Piece.lexemesAll (as.flatMap f) ++ ls) := by
  induction as with
  | nil => exact h
  | cons a as ih =>
    rw [List.flatMap_cons, Piece.lexemesAll_append, List.append_assoc]
    exact hf a ih

theorem braces {inside : List Piece} (h : ls.IsChain fun l l' => l.endsBefore l' = true)
    (hinside : ∀ {ls}, MayFollowWord ls → MayFollowWord (lexemesAll inside ++ ls)) :
    MayFollowWord (lexemesAll [braces inside] ++ ls) := by
  have hclose : MayFollowWord (gap ++ ⟨.mark, "\x7d"⟩ :: ls) := gap_mark (by decide) h
  rw [lexemesAll_braces]
  simpa using gap_mark (m := "\x7b") (by decide) (hinside hclose).chain

theorem dottedPieces (names : List Identifier) (h : MayFollowWord ls) :
    MayFollowWord (lexemesAll (dottedPieces names) ++ ls) := by
  refine flatMap (fun n ls h => ?_) names h
  rw [lexemesAll_markPiece, lexemesAll_wordPiece]
  exact ⟨List.isChain_cons_cons.mpr ⟨rfl, h.chain_word n.text⟩, by simp⟩

theorem argumentPieces (names : List Identifier) (h : MayFollowWord ls) :
    MayFollowWord (lexemesAll (argumentPieces names) ++ ls) := by
  cases names with
  | nil => exact h
  | cons n names =>
    have hfurther : MayFollowWord (lexemesAll (names.flatMap fun n =>
        [markPiece [] ",", wordPiece gap n.text]) ++ ⟨.mark, ">"⟩ :: ls) := by
      refine flatMap (fun n ls h => ?_) names (mark (by decide) h.chain)
      rw [lexemesAll_markPiece, lexemesAll_wordPiece]
      simpa using mark (m := ",") (by decide) (h.gap_word n.text).chain
    simp only [Source.argumentPieces, entryPieces, List.cons_append, List.nil_append,
      lexemesAll_markPiece, lexemesAll_wordPiece, lexemesAll_append, List.append_assoc]
    exact ⟨List.isChain_cons_cons.mpr ⟨rfl, hfurther.chain_word n.text⟩, by simp⟩

theorem base (b : SketchBase) (h : MayFollowWord ls) :
    MayFollowWord (lexemesAll (b.pieces gap) ++ ls) := by
  have hrest := (h.argumentPieces b.arguments).dottedPieces b.further
  simpa [SketchBase.pieces, lexemesAll_wordPiece, lexemesAll_append] using
    hrest.gap_word b.first.text

theorem basesPieces (bases : List SketchBase) (h : MayFollowWord ls) :
    MayFollowWord (lexemesAll (basesPieces bases) ++ ls) := by
  cases bases with
  | nil => exact h
  | cons b bases =>
    have hfurther : MayFollowWord (lexemesAll (bases.flatMap fun b =>
        markPiece [] "," :: b.pieces gap) ++ ls) := by
      refine flatMap (fun b ls h => ?_) bases h
      rw [lexemesAll_markPiece]
      exact mark (m := ",") (by decide) (h.base b).chain
    -- A colon must not be followed by a mark at once; here it is followed by a blank.
    have hcolon : (⟨.mark, ":"⟩ :: (lexemesAll (b.pieces gap) ++ (lexemesAll (bases.flatMap fun b =>
        markPiece [] "," :: b.pieces gap) ++ ls))).IsChain fun l l' => l.endsBefore l' = true := by
      have hfirst := (hfurther.base b).chain
      rw [SketchBase.pieces, lexemesAll_wordPiece] at hfirst ⊢
      exact List.isChain_cons_cons.mpr ⟨rfl, hfirst⟩
    simp only [Source.basesPieces, entryPieces, lexemesAll_markPiece, lexemesAll_append,
      List.append_assoc, List.cons_append]
    exact ⟨List.isChain_cons_cons.mpr ⟨rfl, hcolon⟩, by simp [gap]⟩

theorem header (h : SketchHeader) (hls : MayFollowWord ls) :
    MayFollowWord (lexemesAll (h.pieces gap) ++ ls) := by
  simpa [SketchHeader.pieces, lexemesAll_wordPiece] using
    ((hls.basesPieces h.bases).gap_word h.name.text).gap_word h.kind.word

theorem modifierPieces (ms : List SketchModifier) (h : MayFollowWord ls) :
    MayFollowWord (lexemesAll (modifierPieces ms) ++ ls) := by
  rw [Source.modifierPieces, List.map_eq_flatMap]
  refine flatMap (fun m ls h => ?_) ms h
  simpa [lexemesAll_wordPiece] using h.gap_word m.text

theorem callPieces (n : Identifier) (h : MayFollowWord ls) :
    MayFollowWord (lexemesAll (callPieces n) ++ ls) := by
  have hsemicolon : MayFollowWord (⟨.mark, ";"⟩ :: ls) := mark (by decide) h.chain
  have hclose : MayFollowWord (⟨.mark, ")"⟩ :: ⟨.mark, ";"⟩ :: ls) :=
    mark (by decide) hsemicolon.chain
  have hopen : MayFollowWord (⟨.mark, "("⟩ :: ⟨.mark, ")"⟩ :: ⟨.mark, ";"⟩ :: ls) :=
    mark (by decide) hclose.chain
  simpa [Source.callPieces, lexemesAll_wordPiece, lexemesAll_parens, lexemesAll_markPiece] using
    hopen.gap_word n.text

theorem body (b : SketchBody) (h : MayFollowWord ls) :
    MayFollowWord (lexemesAll b.pieces ++ ls) := by
  cases b with
  | block calls => exact braces h.chain (flatMap (fun n _ h => h.callPieces n) calls)
  | arrow n =>
    rw [SketchBody.pieces, lexemesAll_markPiece, List.append_assoc]
    exact gap_mark (by decide) (h.callPieces n).chain
  | absent =>
    rw [SketchBody.pieces, lexemesAll_markPiece]
    exact mark (by decide) h.chain

/-- Parentheses around parameters. -/
theorem parameterPieces (names : List Identifier) (h : MayFollowWord ls) :
    MayFollowWord (⟨.mark, "("⟩ :: (lexemesAll (parameterPieces names) ++ ⟨.mark, ")"⟩ :: ls)) := by
  have hclose : MayFollowWord (⟨.mark, ")"⟩ :: ls) := mark (by decide) h.chain
  refine mark (by decide) ?_
  cases names with
  | nil => exact hclose.chain
  | cons n names =>
    have hfurther : MayFollowWord (lexemesAll (names.flatMap fun n =>
        [markPiece [] ",", wordPiece gap "int", wordPiece gap n.text]) ++ ⟨.mark, ")"⟩ :: ls) := by
      refine flatMap (fun n ls h => ?_) names hclose
      have hentry := (h.gap_word n.text).gap_word "int"
      simpa [lexemesAll_markPiece, lexemesAll_wordPiece] using
        mark (m := ",") (by decide) hentry.chain
    simpa [Source.parameterPieces, entryPieces, lexemesAll_wordPiece, lexemesAll_append] using
      (hfurther.gap_word n.text).chain_word "int"

mutual

theorem member : ∀ (m : SketchMember) {ls : List Lexeme}, MayFollowWord ls →
    MayFollowWord (lexemesAll m.pieces ++ ls)
  | .constructor c, ls, h => by
    have hhead := ((h.body c.body).parameterPieces c.parameterNames).gap_word c.name.text
    simpa [SketchMember.pieces, SketchConstructor.pieces, lexemesAll_append, lexemesAll_wordPiece,
      lexemesAll_parens] using hhead.modifierPieces c.modifiers
  | .method m, ls, h => by
    have hbraces : MayFollowWord (lexemesAll [Source.braces []] ++ ls) :=
      braces h.chain fun h => h
    have hhead := ((hbraces.parameterPieces []).gap_word m.name.text).gap_word "void"
    simpa [SketchMember.pieces, SketchMethod.pieces, lexemesAll_append, lexemesAll_wordPiece,
      lexemesAll_parens, Source.parameterPieces, entryPieces] using
      hhead.modifierPieces m.modifiers
  | .type h ms, ls, hls => by
    rw [SketchMember.pieces, lexemesAll_append, List.append_assoc]
    exact header h (braces hls.chain (members ms))

theorem members : ∀ (ms : List SketchMember) {ls : List Lexeme}, MayFollowWord ls →
    MayFollowWord (lexemesAll (SketchMember.piecesAll ms) ++ ls)
  | [], _, h => h
  | m :: ms, ls, h => by
    rw [SketchMember.piecesAll, lexemesAll_append, List.append_assoc]
    exact member m (members ms h)

end

theorem sketch (s : Sketch) (h : MayFollowWord ls) :
    MayFollowWord (lexemesAll (s.pieces gap) ++ ls) := by
  rw [Sketch.pieces, lexemesAll_append, List.append_assoc]
  exact header s.header (braces h.chain (members s.members))

end MayFollowWord

/-- The lexemes of a row of types are apart. -/
theorem isSpaced_forestPieces (ss : List Sketch) :
    IsSpaced (Piece.lexemesAll (forestPieces ss)) := by
  refine ⟨fun l hl => ?_, ?_⟩
  · obtain ⟨p, hp, hmem⟩ := Piece.mem_lexemesAll.mp hl
    exact (ArePlain.forest ss p hp).lexemes l hmem
  · cases ss with
    | nil => exact .nil
    | cons s ss =>
      have hfurther : MayFollowWord (Piece.lexemesAll (ss.flatMap (Sketch.pieces gap)) ++ []) :=
        .flatMap (fun t _ h => h.sketch t) ss .nil
      have hbraces := MayFollowWord.braces hfurther.chain (MayFollowWord.members s.members)
      have hname := (hbraces.basesPieces s.header.bases).gap_word s.header.name.text
      simpa [forestPieces, Sketch.pieces, SketchHeader.pieces, Piece.lexemesAll_wordPiece,
        Piece.lexemesAll_braces] using hname.chain_word s.header.kind.word

/-- The text of a row of types falls into its lexemes. -/
theorem lexemes_renderAll (ss : List Sketch) :
    lexemes (Sketch.renderAll ss).toList = Piece.lexemesAll (forestPieces ss) := by
  rw [← charsAll_forestPieces]
  exact lexemes_charsOf (isSpaced_forestPieces ss)

/-- The lexemes of a row of types fall into its pieces. -/
theorem pieces_renderAll (ss : List Sketch) :
    pieces (lexemes (Sketch.renderAll ss).toList) = (forestPieces ss, []) := by
  rw [lexemes_renderAll]
  exact pieces_lexemesAll (ArePlain.forest ss)

end Source
end AggregateAudit
