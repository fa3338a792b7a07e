import AggregateAudit.Source.Parse

/-!
# No character is lost

A text is cut into lexemes, lexemes are folded into pieces, and pieces are cut and
wrapped into a tree.  None of these steps adds, drops or moves a character, whatever the
text is and however little of it the grammar understands: `chars_parse` says that the
leaves of the tree, read from left to right, are the text.

All three steps are written so that this is no property of the grammar.  A reader of
lexemes answers only an extent, and an outline holds only lengths; how a row is cut is
then a matter of `take` and `drop`.  So nothing about extents and outlines is needed
here.  What is needed is one notion, the characters of a thing, and one fact for each
way in which trees are built: a builder *keeps* its pieces if the trees it gives have the
characters of the pieces (`Keeps`).

The fold is the only step with a state.  What it has read so far is spread over a stack,
and closing or giving up a bracket moves it around; `Nesting.chars` puts it together
again, and `Nesting.chars_step` says that a step appends the characters of its lexeme.
-/

namespace AggregateAudit
namespace Source

/-! ## Lexemes -/

/-- The characters of a row of lexemes. -/
def charsOf (ls : List Lexeme) : List Char := ls.flatMap fun l => l.text.toList

@[simp] theorem charsOf_nil : charsOf [] = [] := rfl

@[simp] theorem charsOf_cons (l : Lexeme) (ls : List Lexeme) :
    charsOf (l :: ls) = l.text.toList ++ charsOf ls := rfl

@[simp] theorem charsOf_append (ls ms : List Lexeme) :
    charsOf (ls ++ ms) = charsOf ls ++ charsOf ms := List.flatMap_append

/-- However many lexemes are read, and whatever they are, they have the characters of the
text. -/
theorem charsOf_lexemesUpTo (n : Nat) (modes : List Mode) (cs : List Char) :
    charsOf (lexemesUpTo n modes cs) = cs := by
  induction n generalizing modes cs with
  | zero => cases cs <;> simp [lexemesUpTo]
  | succ n ih =>
    cases cs with
    | nil => simp [lexemesUpTo]
    | cons c cs => simp [lexemesUpTo, ih]

theorem charsOf_lexemes (cs : List Char) : charsOf (lexemes cs) = cs :=
  charsOf_lexemesUpTo cs.length [] cs

/-! ## Pieces -/

namespace Piece

/-- The characters of a row of pieces. -/
def charsAll (ps : List Piece) : List Char := charsOf (lexemesAll ps)

@[simp] theorem charsAll_nil : charsAll [] = [] := rfl

@[simp] theorem charsAll_cons (p : Piece) (ps : List Piece) :
    charsAll (p :: ps) = charsOf p.lexemes ++ charsAll ps := by
  rw [charsAll, lexemesAll, charsOf_append]
  rfl

@[simp] theorem charsAll_append (ps qs : List Piece) :
    charsAll (ps ++ qs) = charsAll ps ++ charsAll qs := by
  induction ps with
  | nil => rfl
  | cons p ps ih => rw [List.cons_append, charsAll_cons, ih, charsAll_cons, List.append_assoc]

/-- Cutting a row loses nothing. -/
theorem charsAll_take_drop (n : Nat) (ps : List Piece) :
    charsAll (ps.take n) ++ charsAll (ps.drop n) = charsAll ps := by
  rw [← charsAll_append, List.take_append_drop]

@[simp] theorem charsOf_lexeme (lead : List Lexeme) (l : Lexeme) :
    charsOf (lexeme lead l).lexemes = charsOf lead ++ l.text.toList := by
  simp [lexemes]

@[simp] theorem charsOf_group (lead : List Lexeme) (b : Bracket) (o : Lexeme)
    (inside : List Piece) (trail : List Lexeme) (c : Option Lexeme) :
    charsOf (group lead b o inside trail c).lexemes =
      charsOf lead ++ o.text.toList ++ charsAll inside ++ charsOf trail ++ charsOf c.toList := by
  simp [lexemes, charsAll]

/-- The trivia in front of a piece and the piece without it. -/
theorem charsOf_detached (p : Piece) :
    charsOf p.lead ++ charsOf p.detached.lexemes = charsOf p.lexemes := by
  cases p <;> simp [lead, detached]

end Piece

/-! ## The fold -/

/-- What was read before an open bracket and the bracket itself, for a stack of them: the
outermost one comes first in the text and last in the stack. -/
def charsOfStack : List OpenBracket → List Char
  | [] => []
  | o :: outer =>
    charsOfStack outer ++ Piece.charsAll o.before.reverse ++ charsOf o.lead ++ o.opener.text.toList

namespace Nesting

/-- The characters that have been read. -/
def chars (s : Nesting) : List Char :=
  charsOfStack s.stack ++ Piece.charsAll s.level.reverse ++ charsOf s.pending.reverse

theorem chars_push (s : Nesting) (l : Lexeme) : (s.push l).chars = s.chars ++ l.text.toList := by
  simp [chars, push]

theorem chars_pushStray (s : Nesting) (l : Lexeme) :
    (s.pushStray l).chars = s.chars ++ l.text.toList := chars_push s _

theorem chars_enter (s : Nesting) (b : Bracket) (l : Lexeme) :
    (s.enter b l).chars = s.chars ++ l.text.toList := by
  simp [chars, enter, charsOfStack]

/-- Giving up a bracket moves what is in it to the level around it. -/
theorem chars_dissolve (s : Nesting) : s.dissolve.chars = s.chars := by
  unfold dissolve
  split
  · rfl
  · next o outer h => simp [chars, h, charsOfStack]

theorem chars_close {s : Nesting} (hs : s.stack ≠ []) (closer : Option Lexeme) :
    (s.close closer).chars = s.chars ++ charsOf closer.toList := by
  unfold close
  split
  · next h => exact absurd h hs
  · next o outer h => simp [chars, h, charsOfStack]

theorem chars_abandon (s : Nesting) : s.abandon.chars = s.chars := by
  unfold abandon
  split
  · rfl
  · next o outer h =>
    split
    · rw [chars_close (by simp [h])]
      simp
    · exact chars_dissolve s

theorem chars_abandonTo (b : Bracket) (n : Nat) (s : Nesting) :
    (abandonTo b n s).chars = s.chars := by
  induction n generalizing s with
  | zero => rfl
  | succ n ih =>
    unfold abandonTo
    split
    · rfl
    · split
      · rfl
      · rw [ih, chars_abandon]

/-- Leaving a bracket uncovers the one around it. -/
theorem stack_abandon {s : Nesting} {o : OpenBracket} {outer : List OpenBracket}
    (h : s.stack = o :: outer) : s.abandon.stack = outer := by
  unfold abandon
  rw [h]
  dsimp only
  split
  · simp [close, h]
  · simp [dissolve, h]

/-- A bracket that is open can be reached by leaving the ones inside it, so there is
something to close. -/
theorem stack_abandonTo_ne_nil {b : Bracket} {n : Nat} {s : Nesting}
    (hopen : s.isOpen b = true) (hn : s.stack.length ≤ n) : (abandonTo b n s).stack ≠ [] := by
  induction n generalizing s with
  | zero =>
    have hnil := List.length_eq_zero_iff.mp (Nat.le_zero.mp hn)
    simp [isOpen, hnil] at hopen
  | succ n ih =>
    unfold abandonTo
    split
    · next h => simp [isOpen, h] at hopen
    · next o outer h =>
      split
      · simp [h]
      · next hb =>
        have hstack := stack_abandon h
        apply ih
        · simpa [isOpen, h, hb, hstack] using hopen
        · rw [hstack]
          simpa [h] using hn

/-- **A step of the fold appends the characters of its lexeme.** -/
theorem chars_step (s : Nesting) (l : Lexeme) : (s.step l).chars = s.chars ++ l.text.toList := by
  unfold step
  split
  · simp [chars]
  · split
    · split
      · exact chars_enter s _ l
      · exact chars_pushStray s l
    · exact chars_enter s _ l
    · split
      · split
        · next hopen =>
          rw [chars_close (stack_abandonTo_ne_nil hopen (Nat.le_refl _)), chars_abandonTo]
          simp
        · exact chars_pushStray s l
      · exact chars_push s l

theorem chars_foldl_step (s : Nesting) (ls : List Lexeme) :
    (ls.foldl step s).chars = s.chars ++ charsOf ls := by
  induction ls generalizing s with
  | nil => simp
  | cons l ls ih => rw [List.foldl_cons, ih, chars_step, charsOf_cons, List.append_assoc]

theorem chars_finish (n : Nat) (s : Nesting) : (finish n s).chars = s.chars := by
  induction n generalizing s with
  | zero => rfl
  | succ n ih => rw [finish, ih, chars_dissolve]

theorem stack_finish {n : Nat} {s : Nesting} (h : s.stack.length ≤ n) :
    (finish n s).stack = [] := by
  induction n generalizing s with
  | zero => exact List.length_eq_zero_iff.mp (Nat.le_zero.mp h)
  | succ n ih =>
    apply ih
    unfold dissolve
    split
    · next hs => simp [hs]
    · next o outer hs => simpa [hs] using h

end Nesting

/-- The pieces of a row of lexemes and the trivia behind them have the characters of the
row. -/
theorem charsAll_pieces (ls : List Lexeme) :
    Piece.charsAll (pieces ls).1 ++ charsOf (pieces ls).2 = charsOf ls := by
  have hchars := Nesting.chars_foldl_step {} ls
  have hfinish := Nesting.chars_finish (ls.foldl Nesting.step {}).stack.length
    (ls.foldl Nesting.step {})
  rw [hchars, Nesting.chars, Nesting.stack_finish (Nat.le_refl _)] at hfinish
  simpa [pieces, Nesting.chars, charsOfStack] using hfinish

/-! ## Trees -/

namespace Node

/-- The characters of a tree. -/
def chars (n : Node) : List Char := n.text.toList

/-- The characters of a row of trees. -/
def charsAll (ns : List Node) : List Char := (textAll ns).toList

@[simp] theorem charsAll_nil : charsAll [] = [] := rfl

@[simp] theorem charsAll_cons (n : Node) (ns : List Node) :
    charsAll (n :: ns) = n.chars ++ charsAll ns := by
  simp [charsAll, chars, textAll]

@[simp] theorem charsAll_append (ns ms : List Node) :
    charsAll (ns ++ ms) = charsAll ns ++ charsAll ms := by
  induction ns with
  | nil => rfl
  | cons n ns ih => rw [List.cons_append, charsAll_cons, ih, charsAll_cons, List.append_assoc]

@[simp] theorem chars_leaf (k : LeafKind) (t : String) : (leaf k t).chars = t.toList := by
  simp [chars, text]

@[simp] theorem chars_branch (k : BranchKind) (ns : List Node) :
    (branch k ns).chars = charsAll ns := by
  simp [chars, charsAll, text]

end Node

@[simp] theorem chars_leafOf (l : Lexeme) : (leafOf l).chars = l.text.toList := by
  unfold leafOf
  split <;> simp

@[simp] theorem charsAll_map_leafOf (ls : List Lexeme) :
    Node.charsAll (ls.map leafOf) = charsOf ls := by
  induction ls with
  | nil => rfl
  | cons l ls ih => simp [ih]

/-- Whether the trees that a builder gives for a row of pieces have the characters of the
row. -/
def Keeps (build : List Piece → List Node) : Prop :=
  ∀ ps, Node.charsAll (build ps) = Piece.charsAll ps

/-- Whether the trees that a builder gives for a piece have the characters of the piece. -/
def KeepsOne (build : Piece → List Node) : Prop :=
  ∀ p, Node.charsAll (build p) = charsOf p.lexemes

theorem KeepsOne.flatMap {build : Piece → List Node} (h : KeepsOne build) :
    Keeps fun ps => ps.flatMap build := by
  intro ps
  induction ps with
  | nil => rfl
  | cons p ps ih =>
    simp only [List.flatMap_cons, Node.charsAll_append, Piece.charsAll_cons, h p, ih]

theorem keeps_leavesAll : Keeps Piece.leavesAll :=
  fun ps => charsAll_map_leafOf (Piece.lexemesAll ps)

theorem keepsOne_leaves : KeepsOne Piece.leaves := fun p => charsAll_map_leafOf p.lexemes

theorem keepsOne_labelled (k : LeafKind) : KeepsOne (Piece.labelled k) := by
  intro p
  cases p with
  | lexeme lead l => simp [Piece.labelled]
  | group lead b o inside trail c => exact keepsOne_leaves _

section Builders

variable {build : List Piece → List Node} {inner : Region → List Piece → List Node}

theorem keeps_wrap (k : BranchKind) (h : Keeps build) : Keeps (wrap k build) := by
  intro ps
  cases ps with
  | nil => rfl
  | cons p ps =>
    rw [wrap, Node.charsAll_append, charsAll_map_leafOf, Node.charsAll_cons, Node.chars_branch, h,
      Piece.charsAll_cons, Node.charsAll_nil, List.append_nil, ← List.append_assoc,
      Piece.charsOf_detached, Piece.charsAll_cons]

theorem keepsOne_enclosed (k : BranchKind) (h : Keeps build) : KeepsOne (enclosed k build) := by
  intro p
  cases p with
  | lexeme lead l => simp [enclosed]
  | group lead b o inside trail c => simp [enclosed, h inside]

theorem keepsOne_enclosedIf (c : Category) (h : ∀ r, Keeps (inner r)) (r : Region) :
    KeepsOne (enclosedIf c inner r) := by
  intro p
  unfold enclosedIf
  split
  · exact keepsOne_enclosed _ (h r) p
  · exact keepsOne_leaves p

theorem keeps_expressionNodes (h : ∀ r, Keeps (inner r)) (cue : BlockCue) :
    Keeps (expressionNodes inner cue) := by
  intro ps
  induction ps generalizing cue with
  | nil => rfl
  | cons p ps ih =>
    cases p with
    | lexeme lead l =>
      rw [expressionNodes, Node.charsAll_append, ih, Piece.charsAll_cons, keepsOne_leaves]
    | group lead b o inside trail c =>
      rw [expressionNodes, Node.charsAll_append, ih, Piece.charsAll_cons]
      congr 1
      split
      · exact keepsOne_enclosedIf _ h _ _
      · simp [h .expression inside]

theorem keeps_entries (h : Keeps build) (n : Nat) : Keeps (entries build n) := by
  intro ps
  induction n generalizing ps with
  | zero =>
    cases ps with
    | nil => rfl
    | cons p ps => exact keeps_leavesAll _
  | succ n ih =>
    cases ps with
    | nil => rfl
    | cons p ps =>
      rw [entries]
      split
      · rw [Node.charsAll_append, ih, keeps_wrap .broken keeps_leavesAll [p]]
        simp
      · next k _ =>
        rw [Node.charsAll_append, Node.charsAll_append, ih, h, keeps_leavesAll, List.append_assoc,
          Piece.charsAll_take_drop, Piece.charsAll_cons, List.append_assoc,
          Piece.charsAll_take_drop, Piece.charsAll_cons]

theorem keeps_parameterNodes (h : Keeps build) : Keeps (parameterNodes build) :=
  fun ps => keeps_wrap _ h ps

theorem keeps_baseNodes (h : Keeps build) (inRecord : Bool) : Keeps (baseNodes build inRecord) := by
  intro ps
  rw [baseNodes, Node.charsAll_append, keeps_wrap _ h, keeps_wrap _ h, Piece.charsAll_take_drop]

theorem keeps_partNodes (h : ∀ r, Keeps (inner r)) (r : Region) (part : Part) :
    Keeps (partNodes inner r part) := by
  have hflat := keeps_expressionNodes h .none
  intro ps
  cases part with
  | tokens n => exact hflat ps
  | name => exact (keepsOne_labelled .name).flatMap ps
  | modifier => exact (keepsOne_labelled .modifier).flatMap ps
  | run k n => exact keeps_wrap k hflat ps
  | broken n => exact keeps_wrap .broken hflat ps
  | arrow n => exact keeps_wrap .arrow hflat ps
  | parameters =>
    have hentries : Keeps fun qs =>
        entries (parameterNodes (expressionNodes inner .none)) qs.length qs :=
      fun qs => keeps_entries (keeps_parameterNodes hflat) qs.length qs
    exact (keepsOne_enclosed .parameterList hentries).flatMap ps
  | bases inRecord n =>
    have hlist : Keeps fun qs => Piece.leavesAll (qs.take 1)
        ++ entries (baseNodes (expressionNodes inner .none) inRecord) qs.length (qs.drop 1) := by
      intro qs
      rw [Node.charsAll_append, keeps_leavesAll, keeps_entries (keeps_baseNodes hflat inRecord),
        Piece.charsAll_take_drop]
    exact keeps_wrap .baseList hlist ps
  | braces region =>
    cases region with
    | sections => exact (keepsOne_enclosedIf _ h _).flatMap ps
    | accessors => exact (keepsOne_enclosedIf _ h _).flatMap ps
    | topLevel => exact (keepsOne_enclosed _ (h _)).flatMap ps
    | members => exact (keepsOne_enclosed _ (h _)).flatMap ps
    | statements => exact (keepsOne_enclosed _ (h _)).flatMap ps
    | expression => exact (keepsOne_enclosed _ (h _)).flatMap ps
  | conditional =>
    have hone : KeepsOne fun p =>
        enclosed (if p.isGroup .alternative then .alternative else .conditional)
          (inner (if r = .members then .members else .topLevel)) p :=
      fun p => keepsOne_enclosed _ (h _) p
    exact hone.flatMap ps

theorem keeps_partsNodes (h : ∀ r, Keeps (inner r)) (r : Region) (parts : List Part) :
    Keeps (partsNodes inner r parts) := by
  intro ps
  induction parts generalizing ps with
  | nil => exact keeps_leavesAll ps
  | cons part parts ih =>
    rw [partsNodes, Node.charsAll_append, keeps_partNodes h, ih, Piece.charsAll_take_drop]

theorem keeps_outlineNodes (h : ∀ r, Keeps (inner r)) (r : Region) (o : Outline) :
    Keeps (outlineNodes inner r o) := by
  intro ps
  unfold outlineNodes
  split
  · exact keeps_partsNodes h r o.parts ps
  · exact keeps_wrap o.kind (keeps_partsNodes h r o.parts) ps

theorem keeps_rowNodes (h : ∀ r, Keeps (inner r)) (r : Region) (n : Nat) :
    Keeps (rowNodes inner r n) := by
  intro ps
  induction n generalizing ps with
  | zero =>
    cases ps with
    | nil => rfl
    | cons p ps => exact keeps_leavesAll _
  | succ n ih =>
    cases ps with
    | nil => rfl
    | cons p ps =>
      rw [rowNodes, Node.charsAll_append, keeps_outlineNodes h, ih, Piece.charsAll_cons,
        List.append_assoc, Piece.charsAll_take_drop, Piece.charsAll_cons]

end Builders

/-- A region keeps its pieces, however deep it is nested. -/
theorem keeps_regionNodes (depth : Nat) (r : Region) : Keeps (regionNodes depth r) := by
  induction depth generalizing r with
  | zero => exact fun ps => keeps_leavesAll ps
  | succ depth ih =>
    intro ps
    cases r with
    | expression => exact keeps_expressionNodes ih .none ps
    | topLevel => exact keeps_rowNodes ih _ _ ps
    | members => exact keeps_rowNodes ih _ _ ps
    | statements => exact keeps_rowNodes ih _ _ ps
    | sections => exact keeps_rowNodes ih _ _ ps
    | accessors => exact keeps_rowNodes ih _ _ ps

/-- **The tree of a text has the characters of the text.** -/
theorem chars_parse (source : String) : (parse source).chars = source.toList := by
  rw [parse, Node.chars_branch, Node.charsAll_append, keeps_regionNodes, charsAll_map_leafOf,
    charsAll_pieces, charsOf_lexemes]

end Source
end AggregateAudit
