import AggregateAudit.Proofs.ParameterCount
import Mathlib.Data.List.Induction
import Mathlib.Logic.Relation

/-!
# Statements under directives

A directive hides no member of a type: the walk goes down through it, because it is not known which
branch is active (`Walk.members_direct`).  A statement it does hide.  The count that the rules ask
for is of what stands in the block itself, and there a directive counts as nothing, whatever it
encloses.

This file says what follows.  `openedAll` is a row with every directive replaced by what stands in
its branches, so it holds all statements, and `Encloses` is the step that encloses a run of a row in
a directive, at any depth.  No such step adds or takes a statement (`Encloses.statements`), but the
ones that stand directly in the row become fewer (`Encloses.direct`), and these are the only ones
that are counted.  A constructor that has to be empty passes for empty when all its statements
are enclosed (`Constructor.isReported_iff_exists_direct`).
-/

namespace AggregateAudit
namespace Source
namespace Node

/-! ## Statements of a row -/

/-- Whether a node in a block is a statement, as the count has it. -/
def isStatement (n : Node) : Bool := n.isNamed && !n.isTrivia

/-- A word or a mark: a leaf that is no statement. -/
def IsWord (n : Node) : Prop := n.branchKind? = none ∧ n.isStatement = false

mutual

/-- What a node of a block stands for: what its branches hold if it is a directive, or itself. -/
def opened : Node → List Node
  | .leaf k t => [.leaf k t]
  | .branch k cs =>
    match k with
    | .conditional => openedAll cs
    | .alternative => openedAll cs
    | k => [.branch k cs]

/-- A row with its directives opened, at any depth. -/
def openedAll : List Node → List Node
  | [] => []
  | c :: cs => opened c ++ openedAll cs

end

theorem openedAll_cons (c : Node) (cs : List Node) :
    openedAll (c :: cs) = opened c ++ openedAll cs := rfl

theorem openedAll_append (cs ds : List Node) :
    openedAll (cs ++ ds) = openedAll cs ++ openedAll ds := by
  induction cs with
  | nil => rfl
  | cons c cs ih => rw [List.cons_append, openedAll_cons, ih, openedAll_cons, List.append_assoc]

/-- The statements of a row, those under directives included. -/
def statements (row : List Node) : List Node := (openedAll row).filter isStatement

theorem statements_append (cs ds : List Node) :
    statements (cs ++ ds) = statements cs ++ statements ds := by
  rw [statements, openedAll_append, List.filter_append, statements, statements]

theorem statements_cons (c : Node) (cs : List Node) :
    statements (c :: cs) = c.opened.filter isStatement ++ statements cs := by
  rw [statements, openedAll_cons, List.filter_append, statements]

/-- Words are no statements. -/
theorem statements_words {cs : List Node} (h : ∀ n ∈ cs, n.IsWord) : statements cs = [] := by
  induction cs with
  | nil => rfl
  | cons c cs ih =>
    obtain ⟨⟨hkind, hc⟩, hcs⟩ := List.forall_mem_cons.mp h
    have hopened : c.opened = [c] := by
      cases c with
      | leaf k t => rfl
      | branch k ds => cases hkind
    rw [statements_cons, ih hcs, hopened, List.filter_cons_of_neg (by simp [hc]), List.filter_nil,
      List.append_nil]

section Directive

variable {k : BranchKind} (hk : ∀ cs, (branch k cs).isDirective = true)

include hk

theorem opened_directive (cs : List Node) : (branch k cs).opened = openedAll cs := by
  have h := hk cs
  cases k <;> first | rfl | cases h

theorem not_isStatement_directive (cs : List Node) : (branch k cs).isStatement = false := by
  have h := hk cs
  cases k <;> first | rfl | cases h

end Directive

/-! ## Enclosing -/

/-- Some run of a row is enclosed in a directive, in the row itself or in a branch of a directive
that stands there already. -/
inductive Encloses : List Node → List Node → Prop where
  /-- The run stands between the words of the directive. -/
  | here {k : BranchKind} (hk : ∀ cs, (branch k cs).isDirective = true)
      (opening closing front run back : List Node) (hopening : ∀ n ∈ opening, n.IsWord)
      (hclosing : ∀ n ∈ closing, n.IsWord) :
      Encloses (front ++ run ++ back) (front ++ branch k (opening ++ run ++ closing) :: back)
  | inside {k : BranchKind} {cs ds : List Node} (hk : ∀ cs, (branch k cs).isDirective = true)
      (h : Encloses cs ds) (front back : List Node) :
      Encloses (front ++ branch k cs :: back) (front ++ branch k ds :: back)

variable {cs ds : List Node}

/-- Enclosing adds no statement and takes none. -/
theorem Encloses.statements (h : Encloses cs ds) : Node.statements ds = Node.statements cs := by
  induction h with
  | @here k hk opening closing front run back hopening hclosing =>
    have hrun : (branch k (opening ++ run ++ closing)).opened.filter isStatement =
        Node.statements run := by
      rw [opened_directive hk, ← Node.statements, statements_append, statements_append,
        statements_words hopening, statements_words hclosing, List.nil_append, List.append_nil]
    rw [statements_append, statements_cons, hrun, statements_append, statements_append,
      List.append_assoc]
  | inside hk _ front back ih =>
    rw [statements_append, statements_append, statements_cons, statements_cons,
      opened_directive hk, opened_directive hk, ← Node.statements, ← Node.statements, ih]

/-- The statements that still stand in the row did so before. -/
theorem Encloses.direct (h : Encloses cs ds) :
    (ds.filter isStatement).Sublist (cs.filter isStatement) := by
  cases h with
  | here hk opening closing front run back =>
    rw [List.filter_append, List.filter_cons_of_neg (by simp [not_isStatement_directive hk]),
      List.filter_append, List.filter_append, List.append_assoc]
    exact (List.Sublist.refl _).append (List.sublist_append_right _ _)
  | inside hk _ front back =>
    rw [List.filter_append, List.filter_append,
      List.filter_cons_of_neg (by simp [not_isStatement_directive hk]),
      List.filter_cons_of_neg (by simp [not_isStatement_directive hk])]

/-- Any number of steps adds no statement and takes none, and those that still stand in the row did
so before. -/
theorem statements_of_reflTransGen (h : Relation.ReflTransGen Encloses cs ds) :
    statements ds = statements cs ∧ (ds.filter isStatement).Sublist (cs.filter isStatement) := by
  induction h with
  | refl => exact ⟨rfl, .refl _⟩
  | tail _ hstep ih => exact ⟨hstep.statements.trans ih.1, hstep.direct.trans ih.2⟩

/-! ## The body of a constructor -/

/-- Whether a child of a constructor is a body. -/
def isBody (n : Node) : Bool := n.isBranch .block || n.isBranch .arrow

/-- Whether the body among the children of a constructor is a block with a given row in it.  Of
several bodies the last one counts. -/
structure HasBlock (children front row back : List Node) : Prop where
  eq : children = front ++ branch .block row :: back
  last : ∀ n ∈ back, n.isBody = false

/-- What is no body changes nothing in what is read as the body. -/
theorem bodyOf_append_of_not_isBody {back : List Node} (h : ∀ n ∈ back, n.isBody = false)
    (front : List Node) : bodyOf (front ++ back) = bodyOf front := by
  induction back generalizing front with
  | nil => rw [List.append_nil]
  | cons c back ih =>
    obtain ⟨hc, hback⟩ := List.forall_mem_cons.mp h
    have hstep : bodyOf (front ++ [c]) = bodyOf front := by
      rw [bodyOf, List.foldl_append, ← bodyOf]
      cases c with
      | leaf k t => rfl
      | branch k cs => cases k <;> first | rfl | cases hc
    rw [List.append_cons, ih hback, hstep]

theorem HasBlock.bodyOf {children front row back : List Node}
    (h : HasBlock children front row back) : bodyOf children = .block (row.countP isStatement) := by
  rw [h.eq, List.append_cons, bodyOf_append_of_not_isBody h.last, Node.bodyOf, List.foldl_append]
  rfl

/-- If a block is read as the body, then it stands among the children. -/
theorem exists_hasBlock {children : List Node} {count : Nat} (h : bodyOf children = .block count) :
    ∃ front row back, HasBlock children front row back := by
  induction children using List.reverseRecOn with
  | nil => cases h
  | append_singleton children c ih =>
    cases hc : c.isBody with
    | false =>
      have hsingle : ∀ n ∈ [c], n.isBody = false := by simpa using hc
      rw [bodyOf_append_of_not_isBody hsingle] at h
      obtain ⟨front, row, back, heq, hlast⟩ := ih h
      refine ⟨front, row, back ++ [c], ⟨by simp [heq], ?_⟩⟩
      simpa [or_imp, forall_and, hc] using hlast
    | true =>
      rw [bodyOf, List.foldl_append] at h
      cases c with
      | leaf k t => cases hc
      | branch k row =>
        cases k with
        | block => exact ⟨children, row, [], rfl, by simp⟩
        | arrow => cases h
        | _ => cases hc

section Block

variable {children front row back : List Node}

/-- A block has statements if one stands directly in it. -/
theorem HasBlock.hasStatements_iff (h : HasBlock children front row back) :
    (Node.bodyOf children).hasStatements = true ↔ ∃ s ∈ row, s.isStatement = true := by
  rw [h.bodyOf, Body.hasStatements, decide_eq_true_eq, List.countP_pos_iff]

/-- Only a block has statements. -/
theorem hasStatements_bodyOf_iff (children : List Node) :
    (Node.bodyOf children).hasStatements = true ↔
      ∃ front row back, HasBlock children front row back ∧ ∃ s ∈ row, s.isStatement = true := by
  constructor
  · intro h
    obtain ⟨count, hcount⟩ : ∃ count, Node.bodyOf children = .block count := by
      cases hbody : Node.bodyOf children with
      | block count => exact ⟨count, rfl⟩
      | expression => rw [hbody] at h; cases h
      | absent => rw [hbody] at h; cases h
    obtain ⟨front, row, back, hblock⟩ := exists_hasBlock hcount
    exact ⟨front, row, back, hblock, hblock.hasStatements_iff.mp h⟩
  · rintro ⟨front, row, back, hblock, hs⟩
    exact hblock.hasStatements_iff.mpr hs

/-- Another row can stand in the block. -/
theorem HasBlock.replace (h : HasBlock children front row back) (row' : List Node) :
    HasBlock (front ++ branch .block row' :: back) front row' back :=
  ⟨rfl, h.last⟩

/-- The block is none of what is read of a constructor besides its body. -/
theorem HasBlock.read_replace (h : HasBlock children front row back) (row' : List Node) :
    declaredName (front ++ branch .block row' :: back) = declaredName children
      ∧ modifiers (front ++ branch .block row' :: back) = modifiers children
      ∧ parameterCount (front ++ branch .block row' :: back) = parameterCount children := by
  rw [h.eq]
  refine ⟨?_, ?_, ?_⟩
  · simp [declaredName, List.find?_append, isLeaf]
  · simp [modifiers, isLeaf]
  · simp [parameterCount, List.find?_append, isBranch]

end Block

end Node

end Source

/-! ## The rule about constructors that have to be empty -/

namespace Constructor

/-- Whether a constructor has to be empty: it is one of an aggregate and takes no parameters. -/
def MustBeEmpty (c : Constructor) : Prop := isAggregateName c.name = true ∧ c.parameterCount = 0

instance (c : Constructor) : Decidable c.MustBeEmpty := inferInstanceAs (Decidable (_ ∧ _))

/-- Whether the rule with a code, asked with all others, finds something in a constructor. -/
def IsReported (accepts : Matcher) (code : String) (c : Constructor) : Prop :=
  ∃ f ∈ Engine.check { rules := Rule.all, matcher := accepts } (.constructor c), f.code = code

/-- A finding has the code of the rule that makes it. -/
theorem code_of_mem_findingOf {code : String} {at_ : Location} {f : Finding}
    (h : f ∈ findingOf code at_) : f.code = code := by
  obtain ⟨r, hr, rfl⟩ := List.mem_map.mp h
  exact beq_iff_eq.mp (List.mem_filter.mp hr).2

/-- The rule about empty constructors reports those that have to be empty and are not. -/
theorem isReported_iff (accepts : Matcher) (c : Constructor) :
    c.IsReported accepts "AG0001" ↔ c.MustBeEmpty ∧ c.hasStatements = true := by
  have hother {code : String} {p : Prop} [Decidable p] (hcode : code ≠ "AG0001") :
      ∀ f ∈ (if p then [] else findingOf code c.location), f.code ≠ "AG0001" := by
    intro f hf
    rw [code_of_mem_findingOf (List.mem_ite_nil_left.mp hf).2]
    exact hcode
  rw [IsReported, check_all, verdict, ← if_hasStatements]
  constructor
  · rintro ⟨f, hf, hcode⟩
    obtain ⟨hname, hf⟩ := List.mem_ite_nil_right.mp hf
    by_cases hparameters : c.parameterCount = 0
    · rw [if_pos hparameters] at hf
      rcases List.mem_append.mp hf with hf | hf
      · exact absurd hcode (hother (by decide) f hf)
      · exact ⟨⟨hname, hparameters⟩, (List.mem_ite_nil_right.mp hf).1⟩
    · rw [if_neg hparameters] at hf
      exact absurd hcode (hother (by decide) f hf)
  · rintro ⟨⟨hname, hparameters⟩, hstatements⟩
    rw [if_pos hname, if_pos hparameters, if_pos hstatements]
    exact ⟨_, List.mem_append_right _ (List.mem_singleton.mpr rfl), rfl⟩

open Source (Node SourceUnit constructorOf extract)
open Source.Node (HasBlock Encloses statements)

section Replaced

variable {file : Path} {owner : String} {p : Source.Position} {cs front row back : List Node}
  (hblock : HasBlock cs front row back) (row' : List Node)

include hblock

/-- What stands in its block has no part in whether a constructor has to be empty. -/
theorem mustBeEmpty_replace_iff :
    (constructorOf file owner p
        (.branch .constructorDeclaration (front ++ .branch .block row' :: back))).MustBeEmpty ↔
      (constructorOf file owner p (.branch .constructorDeclaration cs)).MustBeEmpty := by
  obtain ⟨hname, -, hparameters⟩ := hblock.read_replace row'
  simp only [MustBeEmpty, constructorOf, Node.children_branch, hname, hparameters]

theorem isReported_replace_iff (accepts : Matcher) :
    (constructorOf file owner p
        (.branch .constructorDeclaration (front ++ .branch .block row' :: back))).IsReported
          accepts "AG0001" ↔
      (constructorOf file owner p (.branch .constructorDeclaration cs)).MustBeEmpty
        ∧ ∃ s ∈ row', s.isStatement = true := by
  rw [isReported_iff, mustBeEmpty_replace_iff hblock]
  exact and_congr_right' (hblock.replace row').hasStatements_iff

end Replaced

/-- **Directives hide statements.**  For every tree and every constructor that is found in it there
is the node it was read from, and the rule about empty constructors reports it exactly if it
has to be empty and a statement stands in its block itself.  Let any number of runs in that block be
enclosed in directives, one inside the other as it may be: the constructor is the same in all that
makes it one that has to be empty, and no statement is added or taken, but the rule now asks
for a statement that is still outside of all directives, and so it may fall silent and never
begins to speak.  Of one run that is enclosed it falls silent exactly if no statement stands in
front of the run or behind it. -/
theorem isReported_iff_exists_direct {file : Path} {root : Node} {c : Constructor}
    (hc : .constructor c ∈ TypeDeclaration.listingAll (SourceUnit.ofTree file root).types)
    (accepts : Matcher) :
    ∃ a cs owner, root.at? a = some (.branch .constructorDeclaration cs)
      ∧ c = constructorOf file owner (root.startOf {} a) (.branch .constructorDeclaration cs)
      ∧ (c.IsReported accepts "AG0001" ↔ c.MustBeEmpty
        ∧ ∃ front row back, HasBlock cs front row back ∧ ∃ s ∈ row, s.isStatement = true)
      ∧ ∀ front row back, HasBlock cs front row back →
        let within (row' : List Node) : Constructor :=
          constructorOf file owner (root.startOf {} a)
            (.branch .constructorDeclaration (front ++ .branch .block row' :: back))
        (∀ row', Relation.ReflTransGen Encloses row row' →
          statements row' = statements row
            ∧ ((within row').MustBeEmpty ↔ c.MustBeEmpty)
            ∧ ((within row').IsReported accepts "AG0001" ↔
              c.MustBeEmpty ∧ ∃ s ∈ row', s.isStatement = true)
            ∧ ((within row').IsReported accepts "AG0001" → c.IsReported accepts "AG0001"))
        ∧ ∀ before run behind, row = before ++ run ++ behind →
          ∀ k opening closing, (∀ cs, (Node.branch k cs).isDirective = true) →
            (∀ n ∈ opening, n.IsWord) → (∀ n ∈ closing, n.IsWord) →
            let row' := before ++ .branch k (opening ++ run ++ closing) :: behind
            statements row' = statements row
              ∧ ((within row').IsReported accepts "AG0001" ↔
                c.MustBeEmpty ∧ ∃ s ∈ before ++ behind, s.isStatement = true) := by
  obtain ⟨a, cs, owner, hfound, rfl⟩ := Source.exists_constructorOf hc
  refine ⟨a, cs, owner, hfound, rfl, ?_, ?_⟩
  · rw [isReported_iff]
    exact and_congr_right' (Node.hasStatements_bodyOf_iff cs)
  intro front row back hblock within
  constructor
  · intro row' h
    obtain ⟨hstatements, hdirect⟩ := Node.statements_of_reflTransGen h
    have hreported : (within row').IsReported accepts "AG0001" ↔ _ :=
      isReported_replace_iff hblock row' accepts
    refine ⟨hstatements, mustBeEmpty_replace_iff hblock row', hreported, ?_⟩
    intro hreport
    obtain ⟨hmust, s, hs, hstatement⟩ := hreported.mp hreport
    have hbefore := hdirect.subset (List.mem_filter.mpr ⟨hs, hstatement⟩)
    rw [isReported_iff]
    exact ⟨hmust, hblock.hasStatements_iff.mpr ⟨s, List.mem_filter.mp hbefore⟩⟩
  · rintro before run behind rfl k opening closing hk hopening hclosing row'
    have hencloses := Encloses.here hk opening closing before run behind hopening hclosing
    refine ⟨hencloses.statements,
      (isReported_replace_iff hblock row' accepts).trans (and_congr_right' ?_)⟩
    simp [row', or_and_right, exists_or, Node.not_isStatement_directive hk]

/-- A statement, and another one two directives deep. -/
theorem isReported_of_two_statements :
    let source :=
      "class AggregateA \x7b AggregateA() \x7b F();\n#if X\n#if Y\nG();\n#endif\n#endif\n\x7d \x7d"
    let c : Constructor := ⟨"AggregateA", "AggregateA", [], 0, .block 1, ⟨"A.cs", 1, 20, 19, 52⟩⟩
    .constructor c ∈
        TypeDeclaration.listingAll (SourceUnit.ofTree "A.cs" (Source.parse source)).types
      ∧ ∃ a cs owner, (Source.parse source).at? a = some (.branch .constructorDeclaration cs)
        ∧ c = constructorOf "A.cs" owner ((Source.parse source).startOf {} a)
          (.branch .constructorDeclaration cs)
        ∧ ∃ front row back, HasBlock cs front row back ∧ (∃ s ∈ row, s.isStatement = true)
          ∧ ¬ (constructorOf "A.cs" owner ((Source.parse source).startOf {} a)
            (.branch .constructorDeclaration
              (front ++ .branch .block [.branch .conditional row] :: back))).IsReported
            Inheritance.textual "AG0001" := by
  intro source c
  have hc : .constructor c ∈
      TypeDeclaration.listingAll (SourceUnit.ofTree "A.cs" (Source.parse source)).types := by
    decide +kernel
  obtain ⟨a, cs, owner, hfound, hread, hiff, henclose⟩ :=
    isReported_iff_exists_direct hc Inheritance.textual
  have hreported : c.IsReported Inheritance.textual "AG0001" :=
    (isReported_iff _ c).mpr ⟨by decide +kernel, rfl⟩
  obtain ⟨-, front, row, back, hblock, hs⟩ := hiff.mp hreported
  have hrun := ((henclose front row back hblock).2 [] row [] (by simp) .conditional [] []
    (fun _ => rfl) (by simp) (by simp)).2
  refine ⟨hc, a, cs, owner, hfound, hread, front, row, back, hblock, hs, fun hreport => ?_⟩
  rw [List.nil_append, List.append_nil] at hrun
  simpa using (hrun.mp hreport).2

/-- **The only statement can be hidden.**  A constructor of an aggregate that has to be empty is
reported for its statement, and no longer when a directive encloses the statement, though the
statement is there as before. -/
theorem not_isReported_of_enclosed :
    let plain := "class AggregateA \x7b public AggregateA() \x7b\nF();\n\x7d \x7d"
    let enclosed := "class AggregateA \x7b public AggregateA() \x7b\n#if X\nF();\n#endif\n\x7d \x7d"
    let c (count length : Nat) : Constructor :=
      ⟨"AggregateA", "AggregateA", [.publicAccess], 0, .block count, ⟨"A.cs", 1, 20, 19, length⟩⟩
    .constructor (c 1 28) ∈ TypeDeclaration.listingAll (extract "A.cs" plain).types
      ∧ Engine.check { rules := Rule.all } (.constructor (c 1 28)) =
        findingOf "AG0001" (c 1 28).location
      ∧ (extract "A.cs" enclosed).hasSyntaxErrors = false
      ∧ .constructor (c 0 41) ∈ TypeDeclaration.listingAll (extract "A.cs" enclosed).types
      ∧ (∃ a cs, (Source.parse enclosed).at? a = some (.branch .constructorDeclaration cs)
        ∧ c 0 41 = constructorOf "A.cs" "AggregateA" ((Source.parse enclosed).startOf {} a)
          (.branch .constructorDeclaration cs)
        ∧ ∃ front row back, HasBlock cs front row back ∧ statements row ≠ [])
      ∧ (c 0 41).hasStatements = false
      ∧ Engine.check { rules := Rule.all } (.constructor (c 0 41)) = [] := by
  intro plain enclosed c
  refine ⟨by decide +kernel, by decide +kernel, by decide +kernel, by decide +kernel, ?_, rfl,
    by decide +kernel⟩
  have hnode : (((Source.parse enclosed).at? [0, 4, 2]).any fun n =>
      n.isBranch .constructorDeclaration
        && c 0 41 = constructorOf "A.cs" "AggregateA"
          ((Source.parse enclosed).startOf {} [0, 4, 2]) n
        && n.children.getLast?.any fun b =>
          b.isBranch .block && !(statements b.children).isEmpty) = true := by
    decide +kernel
  obtain ⟨n, hfound, hnode⟩ := (Option.any_eq_true _ _).mp hnode
  simp only [Bool.and_eq_true, decide_eq_true_eq, Option.any_eq_true, Bool.not_eq_true',
    List.isEmpty_eq_false_iff] at hnode
  obtain ⟨⟨hkind, hread⟩, b, hlast, hblock, hstatements⟩ := hnode
  obtain ⟨cs, rfl⟩ := Node.exists_of_isBranch hkind
  obtain ⟨row, rfl⟩ := Node.exists_of_isBranch hblock
  exact ⟨[0, 4, 2], cs, hfound, hread, cs.dropLast, row, [],
    ⟨(List.dropLast_append_getLast? _ hlast).symm, by simp⟩, hstatements⟩

end Constructor
end AggregateAudit
