import AggregateAudit.Proofs.Composition
import AggregateAudit.Proofs.ParameterLists

/-!
# Which parameters count

Rules ask whether a constructor has parameters, and the answer is a count of branches of one kind
in its list.  This file says what that count is of the written list, for texts without errors: the
entries between the commas, whatever their form, but not the array of all further arguments, which
is a branch of another kind (`IsListOf.count`).  So a constructor that takes nothing but such an
array is judged as if it took nothing (`Constructor.hasParameters_iff_exists`,
`Constructor.not_hasParameters_of_array`).

Errors matter in one place only: an entry without pieces, between two commas, would be broken.
Where there is no error there is no such entry, and the written entries are all there is between
the parentheses (`isListed_entryRows`).
-/

namespace AggregateAudit
namespace Source

/-! ## Entries between commas -/

/-- The entries of a row: what stands between the commas that separate them, at most `n`. -/
def entryRows : Nat → List Piece → List (List Piece)
  | _, [] => []
  | 0, _ => []
  | n + 1, p :: ps =>
    match entryExtent 0 false 0 (p :: ps) with
    | 0 => entryRows n ps
    | k + 1 => (p :: ps.take k) :: entryRows n ((ps.drop k).drop 1)

/-- The parameters that are written between parentheses. -/
def parametersOf (p : Piece) : List (List Piece) := entryRows p.inside.length p.inside

/-- Whether a written parameter is the array of all further arguments: behind its attributes it
begins with `params`. -/
def isArray (row : List Piece) : Bool :=
  (row.dropWhile fun p => isAttribute p || fitsAttributes p).head?.any (·.isWord "params")

/-- Whether a row of pieces consists of the given entries with commas between them.  A comma may
also stand behind the last one. -/
inductive IsListed : List Piece → List (List Piece) → Prop
  | nil : IsListed [] []
  | last {row : List Piece} (h : row ≠ []) : IsListed row [row]
  | more {row rest : List Piece} {rows : List (List Piece)} {comma : Piece} (h : row ≠ [])
      (hcomma : comma.isMark "," = true) (hrest : IsListed rest rows) :
      IsListed (row ++ comma :: rest) (row :: rows)

/-- There are entries if there is anything. -/
theorem IsListed.eq_nil_iff {ps : List Piece} {rows : List (List Piece)} (h : IsListed ps rows) :
    rows = [] ↔ ps = [] := by
  cases h <;> simp_all

/-- Behind an entry the row ends, or a comma follows. -/
theorem isMark_of_drop_entryExtent {angles skip : Nat} {assigned : Bool} {ps : List Piece}
    {q : Piece} {rest : List Piece}
    (h : ps.drop (entryExtent angles assigned skip ps) = q :: rest) : q.isMark "," = true := by
  fun_induction entryExtent angles assigned skip ps with
  | case1 => cases h
  | case3 angles assigned p ps hcomma =>
    cases h
    exact (Bool.and_eq_true_iff.mp hcomma).1
  | _ =>
    rename_i ih
    rw [Nat.add_comm 1, List.drop_succ_cons] at h
    exact ih h

/-! ## Errors -/

namespace Node

/-- Without an error in a row there is none in its nodes. -/
theorem not_hasError_of_mem {c : Node} {cs : List Node} (h : anyError cs = false) (hc : c ∈ cs) :
    c.hasError = false := by
  obtain ⟨front, back, rfl⟩ := List.append_of_mem hc
  rw [anyError_append, Bool.or_eq_false_iff, anyError_cons, Bool.or_eq_false_iff] at h
  exact h.2.1

theorem not_anyError_children {n : Node} (h : n.hasError = false) :
    anyError n.children = false := by
  cases n with
  | leaf k t => rfl
  | branch k cs => exact (Bool.or_eq_false_iff.mp h).2

/-- A tree without errors has none below. -/
theorem not_hasError_of_at? {n m : Node} {a : Address} (h : n.hasError = false)
    (hm : n.at? a = some m) : m.hasError = false := by
  induction a generalizing n with
  | nil =>
    cases hm
    exact h
  | cons i a ih =>
    obtain ⟨c, hc, hm⟩ := at?_cons_eq_some_iff.mp hm
    exact ih (not_hasError_of_mem (not_anyError_children h) (List.mem_of_getElem? hc)) hm

end Node

/-- A row of entries without an error is written with commas between them. -/
theorem isListed_entryRows {build : List Piece → List Node} {n : Nat} {ps : List Piece}
    (h : Node.anyError (entries build n ps) = false) (hn : ps.length ≤ n) :
    IsListed ps (entryRows n ps) := by
  induction n generalizing ps with
  | zero =>
    cases List.length_eq_zero_iff.mp (Nat.le_zero.mp hn)
    exact .nil
  | succ n ih =>
    cases ps with
    | nil => exact .nil
    | cons p ps =>
      rw [List.length_cons, Nat.succ_le_succ_iff] at hn
      rw [entries] at h
      rw [entryRows]
      cases hextent : entryExtent 0 false 0 (p :: ps) with
      | zero =>
        -- an entry without pieces is broken
        rw [hextent, Node.anyError_append, Bool.or_eq_false_iff, wrap, Node.anyError_append] at h
        simp at h
      | succ k =>
        rw [hextent, Node.anyError_append, Bool.or_eq_false_iff] at h
        dsimp only
        have hsplit := List.take_append_drop k ps
        cases hrest : ps.drop k with
        | nil =>
          rw [hrest, List.append_nil] at hsplit
          rw [hsplit, List.drop_nil]
          cases n <;> exact .last (List.cons_ne_nil p ps)
        | cons comma rest =>
          have hcomma : comma.isMark "," = true :=
            isMark_of_drop_entryExtent (by rw [hextent, List.drop_succ_cons, hrest])
          have hlength := congrArg List.length hrest
          rw [List.length_drop, List.length_cons] at hlength
          rw [hrest] at h
          have hlisted := IsListed.more (List.cons_ne_nil p (ps.take k)) hcomma
            (ih h.2 (by rw [List.drop_succ_cons, List.drop_zero]; omega))
          rwa [List.cons_append, List.drop_succ_cons, List.drop_zero, ← hrest, hsplit] at hlisted

/-! ## Counting -/

theorem countP_leaves (k : BranchKind) (ls : List Lexeme) :
    (ls.map leafOf).countP (·.isBranch k) = 0 := by
  rw [List.countP_eq_zero]
  intro n hn
  obtain ⟨l, -, rfl⟩ := List.mem_map.mp hn
  simp

theorem countP_wrap (k k' : BranchKind) (build : List Piece → List Node) (p : Piece)
    (ps : List Piece) :
    (wrap k' build (p :: ps)).countP (·.isBranch k) = if k' = k then 1 else 0 := by
  rw [wrap, List.countP_append, countP_leaves, List.countP_singleton, Nat.zero_add]
  simp [Node.isBranch]

/-- A written parameter is a parameter in the tree, unless it is an array. -/
theorem countP_parameterNodes (build : List Piece → List Node) (p : Piece) (ps : List Piece) :
    (parameterNodes build (p :: ps)).countP (·.isBranch .parameter) =
      if isArray (p :: ps) then 0 else 1 := by
  rw [parameterNodes, countP_wrap, ← isArray]
  cases isArray (p :: ps) <;> simp

/-- The parameters in the tree of a list are the written ones that are no arrays. -/
theorem countP_entries (build : List Piece → List Node) {n : Nat} {ps : List Piece}
    (hn : ps.length ≤ n) :
    (entries (parameterNodes build) n ps).countP (·.isBranch .parameter) =
      (entryRows n ps).countP fun row => !isArray row := by
  induction n generalizing ps with
  | zero =>
    cases List.length_eq_zero_iff.mp (Nat.le_zero.mp hn)
    rfl
  | succ n ih =>
    cases ps with
    | nil => rfl
    | cons p ps =>
      rw [List.length_cons, Nat.succ_le_succ_iff] at hn
      rw [entries, entryRows]
      cases hextent : entryExtent 0 false 0 (p :: ps) with
      | zero =>
        dsimp only
        rw [List.countP_append, countP_wrap, ih hn]
        simp
      | succ k =>
        have hrest : ((ps.drop k).drop 1).length ≤ n := by
          rw [List.length_drop, List.length_drop]
          omega
        dsimp only
        rw [List.countP_append, List.countP_append, countP_parameterNodes, Piece.leavesAll,
          countP_leaves, ih hrest, List.countP_cons]
        cases isArray (p :: ps.take k) <;> simp [Nat.add_comm]

/-- What is counted in the list that parentheses stand for, and that nothing is missing from it. -/
theorem IsListOf.count {p : Piece} {list : Node} (h : IsListOf p list)
    (hparen : p.isGroup .paren = true) (hclean : list.hasError = false) :
    list.children.countP (·.isBranch .parameter) = (parametersOf p).countP (fun row => !isArray row)
      ∧ IsListed p.inside (parametersOf p) := by
  obtain ⟨flat, -, hlist⟩ := h
  cases p with
  | lexeme lead l => cases hparen
  | group lead b o inside trail c =>
    rw [enclosed, Piece.lead, List.append_cancel_left_eq, List.cons.injEq] at hlist
    obtain ⟨rfl, -⟩ := hlist
    constructor
    · rw [Node.children_branch, List.countP_cons, List.countP_append, List.countP_append,
        countP_leaves, countP_leaves, isBranch_leafOf, countP_entries flat (Nat.le_refl _)]
      rfl
    · have hentries := Node.not_anyError_children hclean
      rw [Node.children_branch, Node.anyError_cons, Node.anyError_append, Node.anyError_append]
        at hentries
      simp only [Bool.or_eq_false_iff] at hentries
      exact isListed_entryRows hentries.2.1.1 (Nat.le_refl _)

theorem IsListOf.chars {p : Piece} {list : Node} (h : IsListOf p list) :
    list.chars = charsOf p.detached.lexemes := by
  obtain ⟨flat, hflat, hlist⟩ := h
  have hkeeps : Keeps fun qs => entries (parameterNodes flat) qs.length qs :=
    fun qs => keeps_entries (keeps_parameterNodes hflat) qs.length qs
  have hchars := keepsOne_enclosed .parameterList hkeeps p
  rw [hlist, Node.charsAll_append, charsAll_map_leafOf, ← Piece.charsOf_detached p] at hchars
  simpa using List.append_cancel_left hchars

/-! ## Constructors of a text -/

section Placed

variable {c : Constructor}

mutual

/-- A constructor that is listed is listed with its address as well. -/
theorem exists_mem_listing {owner : TypeDeclaration} (x : Placed)
    (h : .constructor c ∈ Member.listing owner x.member) : ∃ a, .constructor a c ∈ x.listing := by
  match x with
  | .constructor a c' =>
    cases List.mem_singleton.mp h
    exact ⟨a, List.mem_singleton.mpr rfl⟩
  | .method a m => cases List.mem_singleton.mp h
  | .type a header ms =>
    obtain ⟨b, hb⟩ := exists_mem_listingAll ms h
    exact ⟨b, List.mem_cons_of_mem _ hb⟩

theorem exists_mem_listingAll {owner : TypeDeclaration} (xs : List Placed)
    (h : .constructor c ∈ Member.listingAll owner (Placed.memberAll xs)) :
    ∃ a, .constructor a c ∈ Placed.listingAll xs := by
  match xs with
  | [] => cases h
  | x :: xs =>
    rcases List.mem_append.mp h with h | h
    · obtain ⟨a, ha⟩ := exists_mem_listing x h
      exact ⟨a, List.mem_append_left _ ha⟩
    · obtain ⟨a, ha⟩ := exists_mem_listingAll xs h
      exact ⟨a, List.mem_append_right _ ha⟩

end

end Placed

/-- A constructor that is listed is what some node of the tree says. -/
theorem exists_constructorOf {file : Path} {root : Node} {c : Constructor}
    (hc : .constructor c ∈ TypeDeclaration.listingAll (SourceUnit.ofTree file root).types) :
    ∃ a cs owner, root.at? a = some (.branch .constructorDeclaration cs)
      ∧ c = constructorOf file owner (root.startOf {} a) (.branch .constructorDeclaration cs) := by
  have owner : TypeDeclaration := ⟨{ name := "" }, []⟩
  rw [← listingAll_map_toMember owner, ← memberAll_forestOf] at hc
  obtain ⟨a, ha⟩ := exists_mem_listingAll _ hc
  obtain ⟨q, cs, name, hstands, rfl⟩ := isRead_of_mem_forestOf ha
  exact ⟨a, cs, name, hstands.found, by rw [hstands.start]⟩

/-- Whether a constructor is declared in a text with the parameters between parentheses `p`: it
says what a node says, and the list in that node stands for the parentheses. -/
structure IsDeclaredWith (file : Path) (source : String) (c : Constructor) (p : Piece) : Prop where
  paren : p.isGroup .paren = true
  written : p.ComesFrom (piecesOf source)
  node : ∃ a n owner list, (parse source).at? a = some n
    ∧ n.isBranch .constructorDeclaration = true
    ∧ c = constructorOf file owner ((parse source).startOf {} a) n
    ∧ n.children.find? (·.isBranch .parameterList) = some list
    ∧ list.chars = charsOf p.detached.lexemes

/-- A constructor of a text has the number of parameters that are written and no arrays. -/
theorem exists_isDeclaredWith {file : Path} {source : String} {c : Constructor}
    (hclean : (extract file source).hasSyntaxErrors = false)
    (hc : .constructor c ∈ TypeDeclaration.listingAll (extract file source).types) :
    ∃ p, IsDeclaredWith file source c p ∧ IsListed p.inside (parametersOf p)
      ∧ c.parameterCount = (parametersOf p).countP fun row => !isArray row := by
  obtain ⟨a, cs, name, hfound, rfl⟩ := exists_constructorOf hc
  obtain ⟨p, list, hfrom, hparen, hfind, hlist⟩ := everywhere_parse source a _ hfound rfl
  have hnode := Node.not_hasError_of_at? hclean hfound
  have hmem := List.mem_of_find?_eq_some hfind
  obtain ⟨hcount, hlisted⟩ := hlist.count hparen
    (Node.not_hasError_of_mem (Node.not_anyError_children hnode) hmem)
  refine ⟨p, ⟨hparen, hfrom, a, _, name, list, hfound, rfl, rfl, hfind, hlist.chars⟩, hlisted, ?_⟩
  rw [constructorOf, Node.parameterCount, hfind]
  exact hcount

end Source

open Source (IsDeclaredWith IsListed parametersOf isArray extract)

namespace Constructor

variable {c : Constructor} (hname : isAggregateName c.name = true)

include hname

/-- A constructor with parameters is judged by one rule alone. -/
theorem check_of_hasParameters (hparameters : c.hasParameters = true) (accepts : Matcher) :
    Engine.check { rules := Rule.all, matcher := accepts } (.constructor c) =
      if .privateAccess ∈ c.modifiers then [] else findingOf "AG0002" c.location := by
  have hcount : c.parameterCount ≠ 0 := Nat.pos_iff_ne_zero.mp (of_decide_eq_true hparameters)
  rw [check_all, verdict, if_pos hname, if_neg hcount]

/-- A constructor without parameters is judged by the two other rules. -/
theorem check_of_not_hasParameters (hparameters : c.hasParameters = false) (accepts : Matcher) :
    Engine.check { rules := Rule.all, matcher := accepts } (.constructor c) =
      (if .publicAccess ∈ c.modifiers then [] else findingOf "AG0004" c.location)
        ++ if c.hasStatements = true then findingOf "AG0001" c.location else [] := by
  have hcount : c.parameterCount = 0 := Nat.eq_zero_of_not_pos (of_decide_eq_false hparameters)
  rw [check_all, verdict, if_pos hname, if_pos hcount, if_hasStatements]

end Constructor

/-- **A constructor has parameters exactly if one of them is no array.**  For every text without
errors and every constructor in it there are the parentheses that it is declared with, and its
parameters are what is written in them between commas; there are some unless the parentheses are
empty.  The constructor has parameters, whatever their form, if one of them is not the array of all
further arguments, and then, if its name speaks of an aggregate, it is judged as a constructor
with parameters and in no other way.  An array alone does not count, and the constructor is
judged as if nothing were written. -/
theorem Constructor.hasParameters_iff_exists {file : Path} {source : String} {c : Constructor}
    (hclean : (extract file source).hasSyntaxErrors = false)
    (hc : .constructor c ∈ TypeDeclaration.listingAll (extract file source).types) :
    ∃ p, IsDeclaredWith file source c p
      ∧ (IsListed p.inside (parametersOf p) ∧ (parametersOf p = [] ↔ p.inside = []))
      ∧ (c.hasParameters = true ↔ ∃ row ∈ parametersOf p, isArray row = false)
      ∧ (isAggregateName c.name = true → ∀ accepts,
        ((∃ row ∈ parametersOf p, isArray row = false) →
          Engine.check { rules := Rule.all, matcher := accepts } (.constructor c) =
            if .privateAccess ∈ c.modifiers then [] else findingOf "AG0002" c.location)
        ∧ ((∀ row ∈ parametersOf p, isArray row = true) →
          Engine.check { rules := Rule.all, matcher := accepts } (.constructor c) =
            (if .publicAccess ∈ c.modifiers then [] else findingOf "AG0004" c.location)
              ++ if c.hasStatements = true then findingOf "AG0001" c.location else [])) := by
  obtain ⟨p, hdeclared, hlisted, hcount⟩ := Source.exists_isDeclaredWith hclean hc
  have hiff : c.hasParameters = true ↔ ∃ row ∈ parametersOf p, isArray row = false := by
    rw [hasParameters, decide_eq_true_eq, hcount, List.countP_pos_iff]
    simp only [Bool.not_eq_true']
  refine ⟨p, hdeclared, ⟨hlisted, hlisted.eq_nil_iff⟩, hiff, fun hname accepts => ⟨?_, ?_⟩⟩
  · exact fun h => check_of_hasParameters hname (hiff.mpr h) accepts
  · intro h
    refine check_of_not_hasParameters hname (Bool.eq_false_iff.mpr fun hparameters => ?_) accepts
    obtain ⟨row, hrow, hordinary⟩ := hiff.mp hparameters
    rw [h row hrow] at hordinary
    cases hordinary

/-- Whether a declaration is a given constructor. -/
def Declaration.isConstructor (c : Constructor) : Declaration → Bool
  | .constructor c' => c' = c
  | .method .. => false

/-- Whether a constructor is listed can be computed. -/
instance (c : Constructor) (ds : List Declaration) : Decidable (.constructor c ∈ ds) :=
  decidable_of_iff (ds.any (Declaration.isConstructor c) = true) <| by
    rw [List.any_eq_true]
    constructor
    · rintro ⟨d | d, hd, hc⟩
      · cases of_decide_eq_true hc
        exact hd
      · cases hc
    · exact fun h => ⟨_, h, decide_eq_true rfl⟩

/-- An attributed parameter with a value in front of an array. -/
theorem Constructor.hasParameters_of_two :
    let source := "class A { A([In] int a = 1, params int[] b) { } }"
    let c : Constructor := ⟨"A", "A", [], 1, .block 0, ⟨"A.cs", 1, 11, 10, 37⟩⟩
    ((extract "A.cs" source).hasSyntaxErrors = false
        ∧ .constructor c ∈ TypeDeclaration.listingAll (extract "A.cs" source).types)
      ∧ ∃ p, IsDeclaredWith "A.cs" source c p ∧ ∃ row ∈ parametersOf p, isArray row = false := by
  intro source c
  have hclean : (extract "A.cs" source).hasSyntaxErrors = false := by decide +kernel
  have hc : .constructor c ∈ TypeDeclaration.listingAll (extract "A.cs" source).types := by
    decide +kernel
  obtain ⟨p, hdeclared, -, hiff, -⟩ := hasParameters_iff_exists hclean hc
  exact ⟨⟨hclean, hc⟩, p, hdeclared, hiff.mp rfl⟩

/-- **An array is not counted.**  A private constructor of an aggregate, to which any number of
arguments can be handed, passes for one without parameters that should be public. -/
theorem Constructor.not_hasParameters_of_array :
    let source := "class AggregateA { private AggregateA(params int[] xs) { } }"
    let c : Constructor :=
      ⟨"AggregateA", "AggregateA", [.privateAccess], 0, .block 0, ⟨"A.cs", 1, 20, 19, 39⟩⟩
    (extract "A.cs" source).hasSyntaxErrors = false
      ∧ .constructor c ∈ TypeDeclaration.listingAll (extract "A.cs" source).types
      ∧ (∃ p, IsDeclaredWith "A.cs" source c p ∧ p.inside ≠ [])
      ∧ c.hasParameters = false
      ∧ Engine.check { rules := Rule.all } (.constructor c) = findingOf "AG0004" c.location := by
  intro source c
  refine ⟨by decide +kernel, by decide +kernel, ?_, rfl, by decide +kernel⟩
  have hpiece : ((Source.piecesOf source).any fun q => q.inside.any fun p =>
      p.isGroup .paren && !p.inside.isEmpty
        && Source.charsOf p.detached.lexemes = "(params int[] xs)".toList) = true := by
    decide +kernel
  have hnode : (((Source.parse source).at? [0, 4, 2]).any fun n =>
      n.isBranch .constructorDeclaration
        && c = Source.constructorOf "A.cs" "AggregateA" ((Source.parse source).startOf {} [0, 4, 2]) n
        && (n.children.find? (·.isBranch .parameterList)).any fun list =>
          list.chars = "(params int[] xs)".toList) = true := by
    decide +kernel
  obtain ⟨q, hq, hpiece⟩ := List.any_eq_true.mp hpiece
  obtain ⟨p, hp, hpiece⟩ := List.any_eq_true.mp hpiece
  simp only [Bool.and_eq_true, decide_eq_true_eq, Bool.not_eq_true', List.isEmpty_eq_false_iff]
    at hpiece
  obtain ⟨⟨hparen, hinside⟩, hchars⟩ := hpiece
  obtain ⟨n, hat, hnode⟩ := (Option.any_eq_true _ _).mp hnode
  simp only [Bool.and_eq_true, decide_eq_true_eq, Option.any_eq_true] at hnode
  obtain ⟨⟨hkind, hread⟩, list, hfind, hlist⟩ := hnode
  exact ⟨p, ⟨hparen, .inside (.listed hq) hp, [0, 4, 2], n, "AggregateA", list, hat, hkind, hread,
    hfind, hlist.trans hchars.symm⟩, hinside⟩

end AggregateAudit
