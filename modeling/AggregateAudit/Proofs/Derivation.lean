import AggregateAudit.Proofs.Sketch

/-!
# Following one reading of a row

Recognition reads a row with all the possibilities there are.  To show that a row is
recognized, one of them is followed to the end of the row.  What the others do matters in two
places only: a word is read as a keyword if *any* possibility expects it as one, and a mark is
read as the longest one that *any* possibility expects.

For words there is an invariant (`AreOrdinary`): outside of square brackets no possibility
ever expects an identifier as a keyword, so an identifier is a name in all of them.  For marks
it is enough that no mark follows at once, or that the mark closes type arguments.

That leaves a single stack of forms.  The stack in front of a row and the stack behind it are
related by `Leads`, whatever lies below them and whatever follows the row.  A short row is
read as a list of symbols, and which stacks lie behind the symbols is computed
(`stacksBehind`); so a rule of the grammar is used by evaluating it, not by a derivation
written out.  Rows are put together with `Leads.append`.
-/

namespace AggregateAudit
namespace Source

/-! ## Forms that expect no identifier as a keyword -/

/-- The attribute lists are the only places where an identifier may be a keyword: what an
attribute is aimed at is no reserved word. -/
def Category.isOrdinary : Category → Bool
  | attributes => false
  | globalAttributes => false
  | _ => true

/-- Whether a form expects no identifier as a keyword, square brackets aside. -/
def Form.isOrdinary : Form → Bool
  | words ws => ws.all fun w => !isIdentifier w
  | group b c => b = .square || c.isOrdinary
  | call c => c.isOrdinary
  | both f g => f.isOrdinary && g.isOrdinary
  | either f g => f.isOrdinary && g.isOrdinary
  | optional f => f.isOrdinary
  | many f => f.isOrdinary
  | _ => true

theorem Category.isOrdinary_form {c : Category} (h : c.isOrdinary = true) :
    c.form.isOrdinary = true := by
  cases c with
  | suffix shape goal =>
    have hmore : ∀ f : Form, f.isOrdinary = true →
        (if goal.contains shape then Form.optional f else f).isOrdinary = true := by
      intro f hf
      split
      · exact hf
      · exact hf
    cases shape <;> exact hmore _ rfl
  | branch content => cases content <;> decide +kernel
  | attributes => cases h
  | globalAttributes => cases h
  | _ => decide +kernel

namespace Possibility

/-- No possibility expects an identifier as a keyword. -/
def AreOrdinary (ways : List Possibility) : Prop :=
  ∀ w ∈ ways, ∀ f ∈ w.stack, f.isOrdinary = true

theorem areOrdinary_starts {cs : List Category} (h : ∀ c ∈ cs, c.isOrdinary = true) :
    AreOrdinary (cs.map start) := by
  intro w hw f hf
  obtain ⟨c, hc, rfl⟩ := List.mem_map.mp hw
  rw [List.mem_singleton.mp hf]
  exact h c hc

theorem areOrdinary_openStack {goal : Category} {n : Nat} {st : List Form}
    {others : List Possibility} (hst : ∀ f ∈ st, f.isOrdinary = true) (ho : AreOrdinary others) :
    AreOrdinary (openStack goal n st others) := by
  induction n generalizing st others with
  | zero => exact ho
  | succ n ih =>
    cases st with
    | nil => simpa [openStack, AreOrdinary] using ho
    | cons f rest =>
      have hf := hst f List.mem_cons_self
      have hrest : ∀ g ∈ rest, g.isOrdinary = true := fun g hg => hst g (List.mem_cons_of_mem _ hg)
      have hkeep : AreOrdinary (⟨goal, f :: rest⟩ :: others) := by
        simpa [AreOrdinary] using ⟨⟨hf, hrest⟩, ho⟩
      cases f with
      | empty => exact ih hrest ho
      | both a b =>
        obtain ⟨ha, hb⟩ := Bool.and_eq_true_iff.mp hf
        exact ih (by simpa using ⟨ha, hb, hrest⟩) ho
      | either a b =>
        obtain ⟨ha, hb⟩ := Bool.and_eq_true_iff.mp hf
        exact ih (by simpa using ⟨ha, hrest⟩) (ih (by simpa using ⟨hb, hrest⟩) ho)
      | optional a => exact ih (by simpa using ⟨hf, hrest⟩) (ih hrest ho)
      | many a => exact ih (by simpa using ⟨hf, hf, hrest⟩) (ih hrest ho)
      | call c => exact ih (by simpa using ⟨c.isOrdinary_form hf, hrest⟩) ho
      | _ => exact hkeep

theorem areOrdinary_openAll {ways : List Possibility} (h : AreOrdinary ways) :
    AreOrdinary (openAll ways) := by
  induction ways with
  | nil => simp [openAll, AreOrdinary]
  | cons w ways ih =>
    obtain ⟨hw, hways⟩ := List.forall_mem_cons.mp h
    exact areOrdinary_openStack hw (ih hways)

/-- Every step drops forms from stacks, or puts what is left of a mark on them. -/
theorem areOrdinary_filterMap {step : Possibility → Option Possibility} {ways : List Possibility}
    (h : AreOrdinary ways)
    (hstep : ∀ w w', step w = some w' → ∀ f ∈ w'.stack, f ∈ w.stack ∨ f.isOrdinary = true) :
    AreOrdinary (ways.filterMap step) := by
  intro w' hw' f hf
  obtain ⟨w, hw, hs⟩ := List.mem_filterMap.mp hw'
  rcases hstep w w' hs f hf with hmem | hord
  · exact h w hw f hmem
  · exact hord

theorem areOrdinary_behindAll {ways : List Possibility} (h : AreOrdinary ways)
    (expected : Form → Bool) : AreOrdinary (behindAll expected ways) := by
  refine areOrdinary_filterMap h fun w w' hs f hf => .inl ?_
  cases hw : w.stack with
  | nil => simp [behind?, hw] at hs
  | cons g rest =>
    simp only [behind?, hw, Option.ite_none_right_eq_some, Option.some.injEq] at hs
    obtain ⟨-, rfl⟩ := hs
    exact List.mem_cons_of_mem _ hf

theorem mem_inMark {n : Nat} {rest : List Form} {f : Form} (hf : f ∈ inMark n rest) :
    f ∈ rest ∨ f.isOrdinary = true := by
  unfold inMark at hf
  split at hf
  · exact .inl hf
  · rcases List.mem_cons.mp hf with rfl | hmem
    · exact .inr rfl
    · exact .inl hmem

theorem areOrdinary_behindMark {ways : List Possibility} (h : AreOrdinary ways) (run : List Char)
    (attached : Bool) : AreOrdinary (behindMark run attached ways) := by
  refine areOrdinary_filterMap h fun w w' hs f hf => ?_
  cases hw : w.stack with
  | nil => simp [behindMark?, hw] at hs
  | cons g rest =>
    suffices hmem : f ∈ rest ∨ f.isOrdinary = true from
      hmem.imp_left (List.mem_cons_of_mem _)
    cases g with
    | mark m =>
      simp only [behindMark?, hw, Option.ite_none_right_eq_some, Option.some.injEq] at hs
      obtain ⟨-, rfl⟩ := hs
      exact mem_inMark hf
    | markRest k =>
      simp only [behindMark?, hw, Option.some.injEq] at hs
      obtain rfl := hs
      exact mem_inMark hf
    | closeAngle =>
      simp only [behindMark?, hw, Option.ite_none_right_eq_some, Option.some.injEq] at hs
      obtain ⟨-, rfl⟩ := hs
      exact .inl hf
    | attachedSemicolon =>
      simp only [behindMark?, hw, Option.ite_none_right_eq_some, Option.some.injEq] at hs
      obtain ⟨-, rfl⟩ := hs
      exact .inl hf
    | _ => simp [behindMark?, hw] at hs

theorem AreOrdinary.eraseDups {ways : List Possibility} (h : AreOrdinary ways) :
    AreOrdinary ways.eraseDups := fun w hw => h w (List.mem_eraseDups.mp hw)

theorem areOrdinary_behindMarks (after : List Char) (attached : Bool) (cs : List Char)
    {ways : List Possibility} (h : AreOrdinary ways) :
    AreOrdinary (behindMarks after attached cs ways) := by
  induction cs generalizing attached ways with
  | nil => exact h
  | cons c cs ih => exact ih true (areOrdinary_behindMark (areOrdinary_openAll h) _ _).eraseDups

theorem areOrdinary_behindWord (w : String) {ways : List Possibility} (h : AreOrdinary ways) :
    AreOrdinary (behindWord w ways) := by
  have hkeyword := areOrdinary_behindAll h (isKeyword w)
  have hname := areOrdinary_behindAll h (· = .name)
  unfold behindWord
  dsimp only
  split
  · exact hname
  · split
    · exact List.forall_mem_append.mpr ⟨hkeyword, hname⟩
    · exact hkeyword

theorem areOrdinary_behindLexeme (l : Lexeme) (attached : Bool) (after : List Char)
    {ways : List Possibility} (h : AreOrdinary ways) :
    AreOrdinary (behindLexeme l attached after ways) := by
  have hopen := areOrdinary_openAll h
  have hnone : AreOrdinary [] := fun _ hw => absurd hw List.not_mem_nil
  unfold behindLexeme
  split
  · exact areOrdinary_behindWord _ hopen
  · split
    · exact areOrdinary_behindAll hopen _
    · exact hnone
  · exact areOrdinary_behindAll hopen _
  · exact areOrdinary_behindAll hopen _
  · exact areOrdinary_behindMarks _ _ _ h
  · exact hnone

end Possibility

open Possibility

/-- Whatever a piece is, no possibility behind it expects an identifier as a keyword. -/
theorem areOrdinary_readPiece (after : List Char) {ways : List Possibility} (h : AreOrdinary ways)
    (p : Piece) : AreOrdinary (readPiece after ways p) := by
  cases p with
  | lexeme lead l =>
    rw [readPiece]
    exact areOrdinary_behindLexeme l _ after h
  | group lead b o inside trail c =>
    rw [readPiece]
    dsimp only
    split
    · exact areOrdinary_behindAll (areOrdinary_openAll h) _
    · exact fun _ hw => absurd hw List.not_mem_nil

/-! ## Opening a stack -/

/-- What a stack may open to in at most `n` steps: a stack that expects a single piece first,
or the empty one. -/
def Opens : Nat → List Form → List Form → Prop
  | 0, _, _ => False
  | _ + 1, [], st' => st' = []
  | n + 1, f :: st, st' =>
    match f with
    | .empty => Opens n st st'
    | .both g h => Opens n (g :: h :: st) st'
    | .either g h => Opens n (g :: st) st' ∨ Opens n (h :: st) st'
    | .optional g => Opens n (g :: st) st' ∨ Opens n st st'
    | .many g => Opens n (g :: .many g :: st) st' ∨ Opens n st st'
    | .call c => Opens n (c.form :: st) st'
    | _ => st' = f :: st

/-- Opening a stack neither changes what the row is to be nor touches the possibilities
beside it. -/
theorem mem_openStack {goal : Category} {n : Nat} {st : List Form} {others : List Possibility}
    {w : Possibility} :
    w ∈ openStack goal n st others ↔ (w.goal = goal ∧ Opens n st w.stack) ∨ w ∈ others := by
  obtain ⟨g, st'⟩ := w
  induction n generalizing st others with
  | zero => simp [openStack, Opens]
  | succ n ih =>
    cases st with
    | nil => simp [openStack, Opens]
    | cons f rest =>
      cases f with
      | empty => exact ih
      | both a b => exact ih
      | call c => exact ih
      | either a b =>
        rw [openStack, ih, ih, Opens, and_or_left, or_assoc]
      | optional a =>
        rw [openStack, ih, ih, Opens, and_or_left, or_assoc]
      | many a =>
        rw [openStack, ih, ih, Opens, and_or_left, or_assoc]
      | _ => simp [openStack, Opens]

/-- The possibilities of a row are opened one by one. -/
theorem mem_openAll {ways : List Possibility} {w : Possibility} :
    w ∈ openAll ways ↔ ∃ v ∈ ways, w.goal = v.goal ∧ Opens openLimit v.stack w.stack := by
  induction ways with
  | nil => simp [openAll]
  | cons v ways ih =>
    have hcons : openAll (v :: ways) = openStack v.goal openLimit v.stack (openAll ways) := rfl
    rw [hcons, mem_openStack, ih]
    simp

/-- A stack that opens to a form opens to it whatever lies below the stack. -/
theorem Opens.frame {n : Nat} {st st' : List Form} {f : Form} (h : Opens n st (f :: st'))
    (below : List Form) : Opens n (st ++ below) (f :: (st' ++ below)) := by
  induction n generalizing st with
  | zero => exact h
  | succ n ih =>
    cases st with
    | nil => cases h
    | cons g st =>
      cases g with
      | empty => exact ih h
      | both a b => exact ih h
      | call c => exact ih h
      | either a b => exact h.imp ih ih
      | optional a => exact h.imp ih ih
      | many a => exact h.imp ih ih
      | _ => exact congrArg (· ++ below) h

/-! ## Symbols -/

/-- What a single piece is read as. -/
inductive Symbol where
  | keyword (w : String)
  | name
  | mark (characters : List Char)
  | closeAngle
  | group (b : Bracket) (c : Category)

/-- Whether a form is expected where a symbol stands. -/
def Symbol.fits : Symbol → Form → Bool
  | keyword w, .words ws => ws.contains w
  | name, .name => true
  | mark m, .mark m' => m = m'
  | closeAngle, .closeAngle => true
  | group b c, .group b' c' => b = b' && c = c'
  | _, _ => false

/-- The stacks that a stack may open to.  What the row is to be does not matter. -/
def opened (st : List Form) : List (List Form) :=
  (openStack .nothing openLimit st []).map Possibility.stack

theorem mem_opened {st st' : List Form} : st' ∈ opened st ↔ Opens openLimit st st' := by
  constructor
  · intro h
    obtain ⟨w, hw, rfl⟩ := List.mem_map.mp h
    rcases mem_openStack.mp hw with ⟨-, hopens⟩ | hnil
    · exact hopens
    · cases hnil
  · exact fun h => List.mem_map.mpr ⟨⟨.nothing, st'⟩, mem_openStack.mpr (.inl ⟨rfl, h⟩), rfl⟩

/-- What lies below the form of a symbol at the top of a stack. -/
def Symbol.behind? (s : Symbol) : List Form → Option (List Form)
  | f :: st => if s.fits f then some st else none
  | [] => none

/-- The stacks that may lie behind a symbol that is read from a stack. -/
def nextStacks (st : List Form) (s : Symbol) : List (List Form) := (opened st).filterMap s.behind?

/-- The stacks that may lie behind symbols that are read from a stack. -/
def stacksBehind (st : List Form) : List Symbol → List (List Form)
  | [] => [st]
  | s :: ss => (nextStacks st s).flatMap (stacksBehind · ss)

/-- What is left behind a form is what a possibility had below it. -/
theorem mem_behindAll {expected : Form → Bool} {ways : List Possibility} {w : Possibility} :
    w ∈ behindAll expected ways ↔ ∃ f, expected f = true ∧ ⟨w.goal, f :: w.stack⟩ ∈ ways := by
  constructor
  · intro hw
    obtain ⟨⟨goal, st⟩, hv, hbehind⟩ := List.mem_filterMap.mp hw
    cases st with
    | nil => simp [behind?] at hbehind
    | cons f rest =>
      simp only [behind?, Option.ite_none_right_eq_some, Option.some.injEq] at hbehind
      obtain ⟨hf, rfl⟩ := hbehind
      exact ⟨f, hf, hv⟩
  · rintro ⟨f, hf, hv⟩
    exact List.mem_filterMap.mpr ⟨_, hv, by simp [behind?, hf]⟩

theorem exists_opens_of_mem_nextStacks {st st' : List Form} {s : Symbol}
    (h : st' ∈ nextStacks st s) : ∃ f, s.fits f = true ∧ Opens openLimit st (f :: st') := by
  obtain ⟨top, hmem, hbehind⟩ := List.mem_filterMap.mp h
  cases top with
  | nil => cases hbehind
  | cons f rest =>
    simp only [Symbol.behind?, Option.ite_none_right_eq_some, Option.some.injEq] at hbehind
    obtain ⟨hf, rfl⟩ := hbehind
    exact ⟨f, hf, mem_opened.mp hmem⟩

/-- Whether a piece that `after` follows is read as a symbol wherever it may be. -/
def Piece.ReadsAs (p : Piece) (after : List Char) (s : Symbol) : Prop :=
  ∀ (ways : List Possibility) (goal : Category) (f : Form) (st : List Form),
    AreOrdinary ways → ⟨goal, f :: st⟩ ∈ openAll ways → s.fits f = true →
      ⟨goal, st⟩ ∈ readPiece after ways p

/-- A word is read as a keyword where it is expected as one. -/
theorem readsAs_keyword (lead : List Lexeme) (w : String) (after : List Char) :
    (wordPiece lead w).ReadsAs after (.keyword w) := by
  intro ways goal f st _ hmem hf
  have hkeyword : isKeyword w f = true := by cases f <;> simp_all [Symbol.fits, isKeyword]
  have hbehind : ⟨goal, st⟩ ∈ behindAll (isKeyword w) (openAll ways) :=
    mem_behindAll.mpr ⟨f, hkeyword, hmem⟩
  rw [wordPiece, readPiece, behindLexeme, behindWord]
  dsimp only
  rw [if_neg (by simpa using List.ne_nil_of_mem hbehind)]
  split
  · exact List.mem_append_left _ hbehind
  · exact hbehind

/-- An identifier is read as a name, because nothing expects it as a keyword. -/
theorem readsAs_name (lead : List Lexeme) (n : Identifier) (after : List Char) :
    (wordPiece lead n.text).ReadsAs after .name := by
  intro ways goal f st hways hmem hf
  have hname : f = .name := by cases f <;> simp_all [Symbol.fits]
  have hnone : behindAll (isKeyword n.text) (openAll ways) = [] := by
    refine List.eq_nil_iff_forall_not_mem.mpr fun w hw => ?_
    obtain ⟨g, hg, hv⟩ := mem_behindAll.mp hw
    have hordinary := areOrdinary_openAll hways _ hv g List.mem_cons_self
    cases g with
    | words ws => exact n.not_mem hordinary (by simpa [isKeyword] using hg)
    | _ => simp [isKeyword] at hg
  rw [wordPiece, readPiece, behindLexeme, behindWord]
  dsimp only
  rw [hnone]
  exact mem_behindAll.mpr ⟨f, by simp [hname], hmem⟩

/-- A closing angle bracket is one character, whatever follows it. -/
theorem readsAs_closeAngle (lead : List Lexeme) (after : List Char) :
    (markPiece lead ">").ReadsAs after .closeAngle := by
  intro ways goal f st hways hmem hf
  have hclose : f = .closeAngle := by cases f <;> simp_all [Symbol.fits]
  subst hclose
  have htext : ">".toList = ['>'] := rfl
  rw [markPiece, readPiece, behindLexeme]
  dsimp only
  rw [htext, behindMarks, behindMarks]
  exact List.mem_eraseDups.mpr (List.mem_filterMap.mpr ⟨_, hmem, by simp [behindMark?]⟩)

/-- The longest of some expected marks. -/
theorem foldl_max_le_iff {ns : List Nat} {a n : Nat} :
    ns.foldl max a ≤ n ↔ a ≤ n ∧ ∀ k ∈ ns, k ≤ n := by
  induction ns generalizing a with
  | nil => simp
  | cons k ns ih => rw [List.foldl_cons, ih, Nat.max_le, and_assoc, List.forall_mem_cons]

theorem markLength_le (run : List Char) (w : Possibility) : markLength run w ≤ run.length := by
  unfold markLength
  split
  · split
    · next h => exact (List.isPrefixOf_iff_prefix.mp h).length_le
    · exact Nat.zero_le _
  · exact Nat.zero_le _

/-- Behind the first character of a mark, the others are read without looking at them. -/
theorem mem_behindMarks_of_inMark {goal : Category} {st : List Form} (after : List Char)
    (attached : Bool) (cs : List Char) {ways : List Possibility}
    (h : ⟨goal, inMark (cs.length + 1) st⟩ ∈ ways) :
    ⟨goal, st⟩ ∈ behindMarks after attached cs ways := by
  induction cs generalizing attached ways with
  | nil => exact h
  | cons c cs ih =>
    refine ih true (List.mem_eraseDups.mpr (List.mem_filterMap.mpr
      ⟨⟨goal, .markRest (cs.length + 1) :: st⟩, mem_openAll.mpr ⟨_, h, rfl, ?_⟩, ?_⟩))
    · simp [inMark, openLimit, Opens]
    · simp [behindMark?]

/-- A mark that no other follows at once is read as it is written. -/
theorem readsAs_mark (lead : List Lexeme) {m : String} (hm : m.toList ≠ []) :
    (markPiece lead m).ReadsAs [] (.mark m.toList) := by
  intro ways goal f st hways hmem hf
  have hmark : f = .mark m.toList := by cases f <;> simp_all [Symbol.fits]
  subst hmark
  rw [markPiece, readPiece, behindLexeme]
  dsimp only
  obtain ⟨c, cs, hcs⟩ := List.exists_cons_of_ne_nil hm
  rw [hcs] at hmem ⊢
  have hlength : ((openAll ways).map (markLength (c :: cs ++ []))).foldl max 0 = cs.length + 1 := by
    refine Nat.le_antisymm (foldl_max_le_iff.mpr ⟨Nat.zero_le _, ?_⟩)
      ((foldl_max_le_iff.mp (Nat.le_refl _)).2 _
        (List.mem_map.mpr ⟨_, hmem, by simp [markLength]⟩))
    intro k hk
    obtain ⟨w, -, rfl⟩ := List.mem_map.mp hk
    rw [List.append_nil]
    exact markLength_le (c :: cs) w
  refine mem_behindMarks_of_inMark [] true cs (List.mem_eraseDups.mpr ?_)
  rw [behindMark, hlength]
  exact List.mem_filterMap.mpr ⟨_, hmem, by simp [behindMark?]⟩

/-- The category that the inside of a group has, however many others are expected of it. -/
def Fits (c : Category) (ps : List Piece) : Prop :=
  ∀ cs : List Category, (∀ d ∈ cs, d.isOrdinary = true) → c ∈ cs → c ∈ fittingAmong cs ps

theorem stack_of_expectedInside? {b : Bracket} {goal : Category} {st : List Form} {c : Category}
    (h : expectedInside? b ⟨goal, st⟩ = some c) : ∃ rest, st = .group b c :: rest := by
  unfold expectedInside? at h
  split at h
  · next b' c' rest hst =>
    simp only [Option.ite_none_right_eq_some, Option.some.injEq] at h
    obtain ⟨rfl, rfl⟩ := h
    exact ⟨rest, hst⟩
  · cases h

/-- A group is read as one of a category that its inside has. -/
theorem readsAs_group (lead : List Lexeme) {b : Bracket} {o : Lexeme} {inside : List Piece}
    (trail : List Lexeme) (closer : Option Lexeme) (after : List Char) {c : Category}
    (hb : b ≠ .square) (ho : directiveFits o.text.toList = true) (hfits : Fits c inside) :
    (Piece.group lead b o inside trail closer).ReadsAs after (.group b c) := by
  intro ways goal f st hways hmem hf
  have hgroup : f = .group b c := by cases f <;> simp_all [Symbol.fits]
  subst hgroup
  rw [readPiece]
  dsimp only
  rw [if_pos ho]
  refine mem_behindAll.mpr ⟨_, ?_, hmem⟩
  have hfitting := hfits ((openAll ways).filterMap (expectedInside? b)).eraseDups ?_ ?_
  · simpa [isGroupOf, fittingAmong] using hfitting
  · intro d hd
    obtain ⟨⟨goal', st'⟩, hw, hexpected⟩ := List.mem_filterMap.mp (List.mem_eraseDups.mp hd)
    obtain ⟨st'', rfl⟩ := stack_of_expectedInside? hexpected
    have hordinary := areOrdinary_openAll hways _ hw _ List.mem_cons_self
    simpa [Form.isOrdinary, hb] using hordinary
  · exact List.mem_eraseDups.mpr (List.mem_filterMap.mpr ⟨_, hmem, by simp [expectedInside?]⟩)

/-! ## Rows -/

/-- Whether the pieces of a row that `next` follows are read as symbols. -/
def AreReadAs (next : List Piece) : List Piece → List Symbol → Prop
  | [], [] => True
  | p :: ps, s :: ss => p.ReadsAs (markRun (ps ++ next)) s ∧ AreReadAs next ps ss
  | _, _ => False

/-- Whether reading a row that `next` follows, from a stack, may lead to another stack,
whatever lies below the two. -/
def Leads (st : List Form) (ps next : List Piece) (st' : List Form) : Prop :=
  ∀ (goal : Category) (rest : List Form) (ways : List Possibility),
    AreOrdinary ways → ⟨goal, st ++ rest⟩ ∈ ways →
      ∃ ways', AreOrdinary ways' ∧ ⟨goal, st' ++ rest⟩ ∈ ways'
        ∧ readRow ways (ps ++ next) = readRow ways' next

namespace Leads

theorem nil (st : List Form) (next : List Piece) : Leads st [] next st :=
  fun _ _ ways hways hmem => ⟨ways, hways, hmem, rfl⟩

theorem append {st st' st'' : List Form} {ps qs next : List Piece}
    (h : Leads st ps (qs ++ next) st') (h' : Leads st' qs next st'') :
    Leads st (ps ++ qs) next st'' := by
  intro goal rest ways hways hmem
  obtain ⟨ways', hways', hmem', heq⟩ := h goal rest ways hways hmem
  obtain ⟨ways'', hways'', hmem'', heq'⟩ := h' goal rest ways' hways' hmem'
  exact ⟨ways'', hways'', hmem'', by rw [List.append_assoc, heq, heq']⟩

/-- A row is read the same way whatever lies below the stack. -/
theorem frame {st st' : List Form} {ps next : List Piece} (h : Leads st ps next st')
    (below : List Form) : Leads (st ++ below) ps next (st' ++ below) := by
  intro goal rest
  simpa only [List.append_assoc] using h goal (below ++ rest)

/-- One piece. -/
theorem single {st st' : List Form} {p : Piece} {next : List Piece} {s : Symbol}
    (hp : p.ReadsAs (markRun next) s) (hst : st' ∈ nextStacks st s) : Leads st [p] next st' := by
  intro goal rest ways hways hmem
  obtain ⟨f, hf, hopens⟩ := exists_opens_of_mem_nextStacks hst
  have hopen : ⟨goal, f :: (st' ++ rest)⟩ ∈ openAll ways :=
    mem_openAll.mpr ⟨_, hmem, rfl, hopens.frame rest⟩
  have hbehind : ⟨goal, st' ++ rest⟩ ∈ (readPiece (markRun next) ways p).eraseDups :=
    List.mem_eraseDups.mpr (hp ways goal f _ hways hopen hf)
  refine ⟨_, (areOrdinary_readPiece (markRun next) hways p).eraseDups, hbehind, ?_⟩
  rw [List.singleton_append, readRow]
  split
  · next hnil => exact absurd (hnil ▸ hbehind) List.not_mem_nil
  · next hcons => rw [hcons]

/-- A short row, by evaluating the grammar. -/
theorem of_symbols {ps next : List Piece} (ss : List Symbol) {st st' : List Form}
    (hps : AreReadAs next ps ss) (hst : st' ∈ stacksBehind st ss) : Leads st ps next st' := by
  induction ps generalizing ss st with
  | nil =>
    cases ss with
    | nil =>
      obtain rfl := List.mem_singleton.mp hst
      exact nil st' next
    | cons s ss => cases hps
  | cons p ps ih =>
    cases ss with
    | nil => cases hps
    | cons s ss =>
      obtain ⟨mid, hmid, hrest⟩ := List.mem_flatMap.mp hst
      exact append (single hps.1 hmid) (ih ss hps.2 hrest)

/-- A row that is read to a stack which need not read anything has its category. -/
theorem fits {c : Category} {ps : List Piece} {st : List Form} (h : Leads [.call c] ps [] st)
    (hend : [] ∈ opened st) : Fits c ps := by
  intro cs hcs hc
  obtain ⟨ways, -, hmem, heq⟩ := h c [] (cs.map start) (areOrdinary_starts hcs)
    (List.mem_map.mpr ⟨c, hc, rfl⟩)
  rw [List.append_nil, readRow] at heq
  rw [List.append_nil] at hmem
  have hopen : ⟨c, []⟩ ∈ openAll ways := mem_openAll.mpr ⟨_, hmem, rfl, mem_opened.mp hend⟩
  rw [fittingAmong, heq, reached]
  exact List.mem_map.mpr ⟨⟨c, []⟩, List.mem_filter.mpr ⟨hopen, rfl⟩, rfl⟩

end Leads

theorem Fits.recognizes {c : Category} {ps : List Piece} (h : Fits c ps)
    (hc : c.isOrdinary = true) : c.recognizes ps = true := by
  have hmem : c ∈ fittingAmong [c] ps := h [c] (by simpa using hc) List.mem_cons_self
  simpa [Category.recognizes] using List.ne_nil_of_mem hmem

end Source
end AggregateAudit
