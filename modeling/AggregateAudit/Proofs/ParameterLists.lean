import AggregateAudit.Proofs.Address
import AggregateAudit.Proofs.ConstructorOutline
import AggregateAudit.Proofs.TextKept

/-!
# Where the parameters of a constructor come from

A constructor in a tree is a branch, and its parameters are counted in the first list among its
children.  This file traces both back to the text: everywhere in the tree of a text, a
constructor has that list, and the list stands for a pair of parentheses of the text
(`everywhere_parse`).

The argument follows the ways in which trees are built, like the one for the characters of a
text, with one notion for all of them: a builder *builds* from some pieces if every constructor
in what it gives has its list from parentheses among them (`Builds`).  A builder that wraps
pieces in a branch of another kind has nothing to show for the branch itself.  What is left is the
outline of a constructor, in which nothing in front of the parentheses gives a list
(`exists_find?_partsNodes`).
-/

namespace AggregateAudit
namespace Source

/-! ## What stands in a text, and everywhere in a tree -/

/-- Whether a piece stands among others or in one of them, at any depth, perhaps without the
trivia in front of it. -/
inductive Piece.ComesFrom (top : List Piece) : Piece → Prop where
  | listed {p : Piece} (h : p ∈ top) : ComesFrom top p
  | inside {p q : Piece} (hq : ComesFrom top q) (h : p ∈ q.inside) : ComesFrom top p
  | detached {p : Piece} (h : ComesFrom top p) : ComesFrom top p.detached

/-- Whether every node of a tree has a property. -/
def Node.Everywhere (holds : Node → Prop) (n : Node) : Prop := ∀ a m, n.at? a = some m → holds m

section Everywhere

variable {holds : Node → Prop}

theorem Node.everywhere_leaf {k : LeafKind} {t : String} (h : holds (.leaf k t)) :
    (leaf k t).Everywhere holds := by
  rintro (_ | ⟨i, a⟩) m hm
  · cases hm
    exact h
  · cases hm

theorem Node.everywhere_branch {k : BranchKind} {cs : List Node} (h : holds (.branch k cs))
    (hcs : ∀ c ∈ cs, c.Everywhere holds) : (branch k cs).Everywhere holds := by
  rintro (_ | ⟨i, a⟩) m hm
  · cases hm
    exact h
  · obtain ⟨c, hc, hm⟩ := at?_cons_eq_some_iff.mp hm
    exact hcs c (List.mem_of_getElem? hc) a m hm

end Everywhere

/-- The leaf of a lexeme is no branch. -/
@[simp] theorem isBranch_leafOf (l : Lexeme) (k : BranchKind) : (leafOf l).isBranch k = false := by
  unfold leafOf
  split <;> rfl

/-! ## The parameters of a constructor -/

/-- Whether a node is the list of parameters that parentheses stand for.  How the trees in a
parameter are built does not matter, as long as they have its characters. -/
def IsListOf (p : Piece) (list : Node) : Prop :=
  ∃ flat : List Piece → List Node, Keeps flat ∧
    enclosed .parameterList (fun qs => entries (parameterNodes flat) qs.length qs) p =
      p.lead.map leafOf ++ [list]

/-- Whether a node, if it is a constructor, has its parameters from parentheses among some
pieces. -/
def HasParameters (top : List Piece) (n : Node) : Prop :=
  n.isBranch .constructorDeclaration = true →
    ∃ p list, p.ComesFrom top ∧ p.isGroup .paren = true
      ∧ n.children.find? (·.isBranch .parameterList) = some list ∧ IsListOf p list

/-- Whether a builder gives trees in which every constructor has its parameters from parentheses
among some pieces, if it is given such pieces. -/
def Builds (top : List Piece) (build : List Piece → List Node) : Prop :=
  ∀ ps, (∀ p ∈ ps, p.ComesFrom top) → ∀ n ∈ build ps, n.Everywhere (HasParameters top)

/-- The same for a builder that is given one piece. -/
def BuildsOne (top : List Piece) (build : Piece → List Node) : Prop :=
  ∀ p, p.ComesFrom top → ∀ n ∈ build p, n.Everywhere (HasParameters top)

section Builders

variable {top : List Piece} {build : List Piece → List Node}
  {inner : Region → List Piece → List Node}

theorem hasParameters_of_ne {n : Node} (h : n.isBranch .constructorDeclaration = false) :
    HasParameters top n := by
  intro hn
  rw [h] at hn
  cases hn

theorem everywhere_leaf (k : LeafKind) (t : String) :
    (Node.leaf k t).Everywhere (HasParameters top) :=
  Node.everywhere_leaf (hasParameters_of_ne rfl)

theorem everywhere_leafOf (l : Lexeme) : (leafOf l).Everywhere (HasParameters top) := by
  unfold leafOf
  split <;> exact everywhere_leaf _ _

theorem everywhere_of_mem_leaves {n : Node} {ls : List Lexeme} (hn : n ∈ ls.map leafOf) :
    n.Everywhere (HasParameters top) := by
  obtain ⟨l, -, rfl⟩ := List.mem_map.mp hn
  exact everywhere_leafOf l

theorem everywhere_branch {k : BranchKind} {cs : List Node} (hk : k ≠ .constructorDeclaration)
    (hcs : ∀ c ∈ cs, c.Everywhere (HasParameters top)) :
    (Node.branch k cs).Everywhere (HasParameters top) :=
  Node.everywhere_branch (hasParameters_of_ne (decide_eq_false hk)) hcs

theorem BuildsOne.flatMap {build : Piece → List Node} (h : BuildsOne top build) :
    Builds top fun ps => ps.flatMap build := by
  intro ps hps n hn
  obtain ⟨p, hp, hn⟩ := List.mem_flatMap.mp hn
  exact h p (hps p hp) n hn

theorem builds_leavesAll : Builds top Piece.leavesAll := fun _ _ _ hn => everywhere_of_mem_leaves hn

theorem buildsOne_leaves : BuildsOne top Piece.leaves := fun _ _ _ hn => everywhere_of_mem_leaves hn

theorem buildsOne_labelled (k : LeafKind) : BuildsOne top (Piece.labelled k) := by
  intro p hp n hn
  cases p with
  | lexeme lead l =>
    rcases List.mem_append.mp hn with hn | hn
    · exact everywhere_of_mem_leaves hn
    · cases List.mem_singleton.mp hn
      exact everywhere_leaf _ _
  | group lead b o inside trail c => exact buildsOne_leaves _ hp n hn

/-- The pieces of a branch, the first one without the trivia in front of it. -/
theorem comesFrom_detached {p : Piece} {ps : List Piece} (h : ∀ q ∈ p :: ps, q.ComesFrom top) :
    ∀ q ∈ p.detached :: ps, q.ComesFrom top := by
  rw [List.forall_mem_cons] at h ⊢
  exact ⟨.detached h.1, h.2⟩

theorem builds_wrap {k : BranchKind} (hk : k ≠ .constructorDeclaration) (h : Builds top build) :
    Builds top (wrap k build) := by
  intro ps hps n hn
  cases ps with
  | nil => cases hn
  | cons p ps =>
    rcases List.mem_append.mp hn with hn | hn
    · exact everywhere_of_mem_leaves hn
    · cases List.mem_singleton.mp hn
      exact everywhere_branch hk (h _ (comesFrom_detached hps))

theorem buildsOne_enclosed {k : BranchKind} (hk : k ≠ .constructorDeclaration)
    (h : Builds top build) : BuildsOne top (enclosed k build) := by
  intro p hp n hn
  cases p with
  | lexeme lead l =>
    rcases List.mem_append.mp hn with hn | hn
    · exact everywhere_of_mem_leaves hn
    · cases List.mem_singleton.mp hn
      exact everywhere_leafOf l
  | group lead b o inside trail c =>
    rcases List.mem_append.mp hn with hn | hn
    · exact everywhere_of_mem_leaves hn
    · cases List.mem_singleton.mp hn
      refine everywhere_branch hk (List.forall_mem_cons.mpr ⟨?_, ?_⟩)
      · exact everywhere_leafOf o
      · rw [List.forall_mem_append, List.forall_mem_append]
        exact ⟨⟨h inside fun q hq => .inside hp hq, fun m hm => everywhere_of_mem_leaves hm⟩,
          fun m hm => everywhere_of_mem_leaves hm⟩

theorem branchKind_ne (r : Region) : r.branchKind ≠ .constructorDeclaration := by
  cases r <;> simp [Region.branchKind]

theorem buildsOne_enclosedIf (c : Category) (h : ∀ r, Builds top (inner r)) (r : Region) :
    BuildsOne top (enclosedIf c inner r) := by
  intro p hp n hn
  rw [enclosedIf] at hn
  split at hn
  · exact buildsOne_enclosed (branchKind_ne r) (h r) p hp n hn
  · exact buildsOne_leaves p hp n hn

theorem builds_expressionNodes (h : ∀ r, Builds top (inner r)) (cue : BlockCue) :
    Builds top (expressionNodes inner cue) := by
  intro ps
  induction ps generalizing cue with
  | nil =>
    intro _ n hn
    cases hn
  | cons p ps ih =>
    intro hps n hn
    obtain ⟨hp, hrest⟩ := List.forall_mem_cons.mp hps
    cases p with
    | lexeme lead l =>
      rw [expressionNodes, List.mem_append] at hn
      exact hn.elim (buildsOne_leaves _ hp n) (ih _ hrest n)
    | group lead b o inside trail c =>
      rw [expressionNodes, List.mem_append] at hn
      refine hn.elim (fun hn => ?_) (ih _ hrest n)
      split at hn
      · exact buildsOne_enclosedIf _ h _ _ hp n hn
      · rw [List.mem_append, List.mem_cons, List.mem_append, List.mem_append] at hn
        rcases hn with hn | rfl | (hn | hn) | hn
        · exact everywhere_of_mem_leaves hn
        · exact everywhere_leafOf o
        · exact h .expression inside (fun q hq => .inside hp hq) n hn
        · exact everywhere_of_mem_leaves hn
        · exact everywhere_of_mem_leaves hn

theorem forall_mem_take {ps : List Piece} (h : ∀ p ∈ ps, p.ComesFrom top) (k : Nat) :
    ∀ p ∈ ps.take k, p.ComesFrom top := fun p hp => h p (List.mem_of_mem_take hp)

theorem forall_mem_drop {ps : List Piece} (h : ∀ p ∈ ps, p.ComesFrom top) (k : Nat) :
    ∀ p ∈ ps.drop k, p.ComesFrom top := fun p hp => h p (List.mem_of_mem_drop hp)

theorem builds_entries (h : Builds top build) (n : Nat) : Builds top (entries build n) := by
  intro ps
  induction n generalizing ps with
  | zero =>
    intro hps n hn
    cases ps with
    | nil => cases hn
    | cons p ps => exact builds_leavesAll _ hps n hn
  | succ k ih =>
    intro hps n hn
    cases ps with
    | nil => cases hn
    | cons p ps =>
      obtain ⟨hp, hrest⟩ := List.forall_mem_cons.mp hps
      rw [entries] at hn
      split at hn
      · rcases List.mem_append.mp hn with hn | hn
        · exact builds_wrap (by simp) builds_leavesAll [p]
            (List.forall_mem_singleton.mpr hp) n hn
        · exact ih ps hrest n hn
      · next k _ =>
        rw [List.mem_append, List.mem_append] at hn
        have hbehind := forall_mem_drop hrest k
        rcases hn with (hn | hn) | hn
        · exact h _ (List.forall_mem_cons.mpr ⟨hp, forall_mem_take hrest k⟩) n hn
        · exact builds_leavesAll _ (forall_mem_take hbehind 1) n hn
        · exact ih _ (forall_mem_drop hbehind 1) n hn

theorem builds_parameterNodes (h : Builds top build) : Builds top (parameterNodes build) := by
  intro ps
  rw [parameterNodes]
  split <;> exact builds_wrap (by simp) h ps

theorem builds_baseNodes (h : Builds top build) (inRecord : Bool) :
    Builds top (baseNodes build inRecord) := by
  intro ps hps n hn
  rcases List.mem_append.mp hn with hn | hn
  · exact builds_wrap (by simp) h _ (forall_mem_take hps _) n hn
  · exact builds_wrap (by simp) h _ (forall_mem_drop hps _) n hn

theorem builds_partNodes (h : ∀ r, Builds top (inner r)) (r : Region) {part : Part}
    (hpart : part.isCommon = true) : Builds top (partNodes inner r part) := by
  have hflat := builds_expressionNodes h .none
  intro ps
  cases part with
  | tokens n => exact hflat ps
  | name => exact (buildsOne_labelled .name).flatMap ps
  | modifier => exact (buildsOne_labelled .modifier).flatMap ps
  | run k n => exact builds_wrap (of_decide_eq_true hpart) hflat ps
  | broken n => exact builds_wrap (by simp) hflat ps
  | arrow n => exact builds_wrap (by simp) hflat ps
  | parameters =>
    have hentries : Builds top fun qs =>
        entries (parameterNodes (expressionNodes inner .none)) qs.length qs :=
      fun qs => builds_entries (builds_parameterNodes hflat) qs.length qs
    exact (buildsOne_enclosed (by simp) hentries).flatMap ps
  | bases inRecord n =>
    have hlist : Builds top fun qs => Piece.leavesAll (qs.take 1)
        ++ entries (baseNodes (expressionNodes inner .none) inRecord) qs.length (qs.drop 1) := by
      intro qs hqs n hn
      rcases List.mem_append.mp hn with hn | hn
      · exact builds_leavesAll _ (forall_mem_take hqs 1) n hn
      · exact builds_entries (builds_baseNodes hflat inRecord) _ _ (forall_mem_drop hqs 1) n hn
    exact builds_wrap (by simp) hlist ps
  | braces region =>
    cases region with
    | sections => exact (buildsOne_enclosedIf _ h _).flatMap ps
    | accessors => exact (buildsOne_enclosedIf _ h _).flatMap ps
    | topLevel => exact (buildsOne_enclosed (by simp [Region.branchKind]) (h _)).flatMap ps
    | members => exact (buildsOne_enclosed (by simp [Region.branchKind]) (h _)).flatMap ps
    | statements => exact (buildsOne_enclosed (by simp [Region.branchKind]) (h _)).flatMap ps
    | expression => exact (buildsOne_enclosed (by simp [Region.branchKind]) (h _)).flatMap ps
  | conditional =>
    have hone : BuildsOne top fun p =>
        enclosed (if p.isGroup .alternative then .alternative else .conditional)
          (inner (if r = .members then .members else .topLevel)) p :=
      fun p => buildsOne_enclosed (by split <;> simp) (h _) p
    exact hone.flatMap ps

theorem builds_partsNodes (h : ∀ r, Builds top (inner r)) (r : Region) {parts : List Part}
    (hparts : AreCommon parts) : Builds top (partsNodes inner r parts) := by
  intro ps
  induction parts generalizing ps with
  | nil => exact builds_leavesAll ps
  | cons part parts ih =>
    intro hps n hn
    obtain ⟨hpart, hrest⟩ := areCommon_cons.mp hparts
    rcases List.mem_append.mp hn with hn | hn
    · exact builds_partNodes h r hpart _ (forall_mem_take hps _) n hn
    · exact ih hrest _ (forall_mem_drop hps _) n hn

/-! Of the parts of a constructor the parentheses are the first one to give a list. -/

theorem find?_leaves {ls : List Lexeme} :
    (ls.map leafOf).find? (·.isBranch .parameterList) = none := by
  rw [List.find?_eq_none]
  intro n hn
  obtain ⟨l, -, rfl⟩ := List.mem_map.mp hn
  simp

theorem find?_labelled (k : LeafKind) (ps : List Piece) :
    (ps.flatMap (·.labelled k)).find? (·.isBranch .parameterList) = none := by
  rw [List.find?_eq_none]
  intro n hn
  obtain ⟨p, -, hn⟩ := List.mem_flatMap.mp hn
  cases p with
  | lexeme lead l =>
    rcases List.mem_append.mp hn with hn | hn
    · exact List.find?_eq_none.mp find?_leaves n hn
    · cases List.mem_singleton.mp hn
      simp [Node.isBranch]
  | group lead b o inside trail c => exact List.find?_eq_none.mp find?_leaves n hn

theorem find?_wrap {k : BranchKind} (hk : k ≠ .parameterList) (ps : List Piece) :
    (wrap k build ps).find? (·.isBranch .parameterList) = none := by
  cases ps with
  | nil => rfl
  | cons p ps =>
    rw [wrap, List.find?_append, find?_leaves]
    simp [Node.isBranch, hk]

/-- Behind parts of one piece each and a name, the list is that of the parentheses. -/
theorem exists_find?_partsNodes (hkeeps : ∀ r, Keeps (inner r)) (r : Region)
    (body : List Part) {front : List Part}
    (hfront : ∀ part ∈ front, part = .run .attributes 1 ∨ part = .modifier) {ps : List Piece}
    {p : Piece} (hp : ps[front.length + 1]? = some p) (hparen : p.isGroup .paren = true) :
    ∃ list, IsListOf p list
      ∧ (partsNodes inner r (front ++ .name :: .parameters :: body) ps).find?
          (·.isBranch .parameterList) = some list := by
  induction front generalizing ps with
  | nil =>
    cases p with
    | lexeme lead l => cases hparen
    | group lead b o inside trail c =>
      refine ⟨_, ⟨expressionNodes inner .none, keeps_expressionNodes hkeeps .none, rfl⟩, ?_⟩
      have hone : (ps.drop 1).take 1 = [.group lead b o inside trail c] := by
        rw [List.take_one, List.head?_drop]
        exact congrArg Option.toList hp
      rw [List.nil_append, partsNodes, partNodes, List.find?_append, find?_labelled, Option.none_or,
        partsNodes, partNodes, Part.size, Part.size, hone, List.flatMap_singleton, enclosed,
        List.find?_append, List.find?_append, find?_leaves]
      rfl
  | cons part front ih =>
    obtain ⟨hpart, hrest⟩ := List.forall_mem_cons.mp hfront
    have hsize : part.size = 1 := by rcases hpart with rfl | rfl <;> rfl
    have hnone : (partNodes inner r part (ps.take part.size)).find? (·.isBranch .parameterList) =
        none := by
      rcases hpart with rfl | rfl
      · exact find?_wrap (by simp) _
      · exact find?_labelled _ _
    have hnext : (ps.drop part.size)[front.length + 1]? = some p := by
      rw [List.getElem?_drop, hsize, Nat.add_comm 1]
      exact hp
    obtain ⟨list, hlist, hfind⟩ := ih hrest hnext
    refine ⟨list, hlist, ?_⟩
    rw [List.cons_append, partsNodes, List.find?_append, hnone, hfind]
    rfl

theorem builds_outlineNodes (h : ∀ r, Builds top (inner r)) (r : Region) {o : Outline}
    (ho : o.IsCommon) : Builds top (outlineNodes inner r o) := by
  intro ps
  rw [outlineNodes]
  split
  · exact builds_partsNodes h r ho.parts ps
  · exact builds_wrap ho.kind (builds_partsNodes h r ho.parts) ps

theorem length_le_partsSize {front : List Part}
    (hfront : ∀ part ∈ front, part = .run .attributes 1 ∨ part = .modifier) :
    front.length ≤ partsSize front := by
  induction front with
  | nil => exact Nat.le_refl 0
  | cons part front ih =>
    obtain ⟨hpart, hrest⟩ := List.forall_mem_cons.mp hfront
    have hsize : part.size = 1 := by rcases hpart with rfl | rfl <;> rfl
    rw [partsSize_cons, hsize, List.length_cons, Nat.add_comm]
    exact Nat.add_le_add_left (ih hrest) 1

/-- A constructor has its parameters from its parentheses. -/
theorem everywhere_outlineNodes (hkeeps : ∀ r, Keeps (inner r)) (h : ∀ r, Builds top (inner r))
    (r : Region) {o : Outline} {p : Piece} {ps : List Piece} (ho : o.IsConstructor (p :: ps))
    (hps : ∀ q ∈ p :: ps, q.ComesFrom top) :
    ∀ n ∈ outlineNodes inner r o (p :: ps.take (partsSize o.parts - 1)),
      n.Everywhere (HasParameters top) := by
  obtain ⟨hkind, front, body, hparts, hfront, hbody, q, hq, hparen⟩ := ho
  have hcommon : AreCommon o.parts := by
    rw [hparts]
    refine areCommon_append.mpr ⟨fun part hpart => ?_, by simp [hbody]⟩
    rcases hfront part hpart with rfl | rfl <;> simp
  -- the row of the constructor reaches behind the parentheses
  have hlength : front.length < partsSize o.parts - 1 := by
    have hsize := length_le_partsSize hfront
    rw [hparts, partsSize_append, partsSize_cons, partsSize_cons, Part.size, Part.size]
    omega
  have hrow : (p.detached :: ps.take (partsSize o.parts - 1))[front.length + 1]? = some q := by
    rw [List.getElem?_cons_succ] at hq ⊢
    rwa [List.getElem?_take_of_lt hlength]
  have hps' := comesFrom_detached (List.forall_mem_cons.mpr
    ⟨(List.forall_mem_cons.mp hps).1, forall_mem_take (List.forall_mem_cons.mp hps).2
      (partsSize o.parts - 1)⟩)
  obtain ⟨list, hlist, hfind⟩ :=
    exists_find?_partsNodes hkeeps r body hfront hrow hparen
  intro n hn
  rw [outlineNodes, if_neg (by simp [hkind])] at hn
  rcases List.mem_append.mp hn with hn | hn
  · exact everywhere_of_mem_leaves hn
  · cases List.mem_singleton.mp hn
    refine Node.everywhere_branch (fun _ => ?_) (builds_partsNodes h r hcommon _ hps')
    refine ⟨q, list, hps' q (List.mem_of_getElem? hrow), hparen, ?_, hlist⟩
    rw [hparts] at hfind ⊢
    exact hfind

theorem builds_rowNodes (hkeeps : ∀ r, Keeps (inner r)) (h : ∀ r, Builds top (inner r))
    (r : Region) (n : Nat) : Builds top (rowNodes inner r n) := by
  intro ps
  induction n generalizing ps with
  | zero =>
    intro hps n hn
    cases ps with
    | nil => cases hn
    | cons p ps => exact builds_leavesAll _ hps n hn
  | succ k ih =>
    intro hps n hn
    cases ps with
    | nil => cases hn
    | cons p ps =>
      obtain ⟨hp, hrest⟩ := List.forall_mem_cons.mp hps
      rcases List.mem_append.mp hn with hn | hn
      · rcases r.outline_cases (p :: ps) with ho | ho
        · exact builds_outlineNodes h r ho _
            (List.forall_mem_cons.mpr ⟨hp, forall_mem_take hrest _⟩) n hn
        · exact everywhere_outlineNodes hkeeps h r ho hps n hn
      · exact ih _ (forall_mem_drop hrest _) n hn

end Builders

/-- In every region constructors have their parameters from parentheses of the region. -/
theorem builds_regionNodes (top : List Piece) (depth : Nat) (r : Region) :
    Builds top (regionNodes depth r) := by
  induction depth generalizing r with
  | zero => exact fun ps => builds_leavesAll ps
  | succ depth ih =>
    intro ps
    cases r with
    | expression => exact builds_expressionNodes ih .none ps
    | topLevel => exact builds_rowNodes (keeps_regionNodes depth) ih _ _ ps
    | members => exact builds_rowNodes (keeps_regionNodes depth) ih _ _ ps
    | statements => exact builds_rowNodes (keeps_regionNodes depth) ih _ _ ps
    | sections => exact builds_rowNodes (keeps_regionNodes depth) ih _ _ ps
    | accessors => exact builds_rowNodes (keeps_regionNodes depth) ih _ _ ps

/-- The pieces of a text. -/
def piecesOf (source : String) : List Piece := (pieces (lexemes source.toList)).1

/-- **Every constructor of a text has its parameters from parentheses of the text.** -/
theorem everywhere_parse (source : String) :
    (parse source).Everywhere (HasParameters (piecesOf source)) := by
  have hrow := builds_regionNodes (piecesOf source) ((lexemes source.toList).length + 1)
    .topLevel (piecesOf source) fun p hp => .listed hp
  refine everywhere_branch (by split <;> simp) fun n hn => ?_
  rcases List.mem_append.mp hn with hn | hn
  · exact hrow n hn
  · exact everywhere_of_mem_leaves hn

end Source
end AggregateAudit
