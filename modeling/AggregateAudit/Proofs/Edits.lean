import AggregateAudit.Proofs.Placement
import AggregateAudit.Proofs.RoundTrip
import Mathlib.Logic.Relation

/-!
# Edits that extraction does not notice

Comments may stand nearly anywhere in a tree, directives may enclose any members of a type, and
namespaces and the like may enclose any types.  This file says that the declarations of a tree are
the same, but for their locations, whichever of these are put in or taken out.

What an edit may be depends on where it is made, and the walk through a tree tells five *zones*
apart.  Outside of types it goes down through everything; in the children of a type it looks for
a name, a base list and braces; in a base list it keeps entries as they are written; in the braces
it goes down through directives; and everywhere else it reads single facts off a row of children
and goes no further.  `Zone.below` is this map, and it stops at one place only: inside an entry of a
base list, whose text is kept.

`Edit` is the relation of one edit, at any depth.  For each zone it is said what two rows must have
in common for the walk (`Zone.Alike`), and each edit is shown to leave that alone
(`Edit.alike`): the induction is on the depth of the edit, and at each level the walk of one zone
is compared with itself.
-/

namespace AggregateAudit
namespace Source

/-- Of a branch only the kind is asked. -/
theorem Node.isBranch_branch (k l : BranchKind) (cs : List Node) :
    (branch l cs).isBranch k = decide (l = k) := rfl

/-! ## Zones and edits -/

/-- Where a row of nodes stands, as the walk sees it. -/
inductive Zone where
  /-- Outside of all types. -/
  | outside
  /-- Among the children of a type. -/
  | head
  /-- In the base list of a type. -/
  | bases
  /-- In the braces of a type, or under directives there. -/
  | body
  /-- Anywhere else: in a member, in its parameters or its block, or further down. -/
  | inert

/-- The zone of what is inside a branch.  What is inside an entry of a base list is in none. -/
def Zone.below : Zone → BranchKind → Option Zone
  | .outside, .typeDeclaration _ => some .head
  | .outside, _ => some .outside
  | .head, .declarationList => some .body
  | .head, .baseList => some .bases
  | .head, _ => some .inert
  | .bases, .conditional => some .inert
  | .bases, .alternative => some .inert
  | .bases, .argumentList => some .inert
  | .bases, _ => none
  | .body, .typeDeclaration _ => some .head
  | .body, .conditional => some .body
  | .body, .alternative => some .body
  | .body, _ => some .inert
  | .inert, _ => some .inert

/-- One edit of a row in a zone. -/
inductive Edit : Zone → List Node → List Node → Prop where
  /-- A comment is put in between. -/
  | comment (zone : Zone) (text : String) (front back : List Node) :
      Edit zone (front ++ back) (front ++ .leaf .comment text :: back)
  /-- A run of members is enclosed in a directive, between the words of the directive. -/
  | direct {k : BranchKind} (hk : ∀ cs, (Node.branch k cs).isDirective = true)
      (opening closing front run back : List Node) (hopening : ∀ n ∈ opening, n.branchKind? = none)
      (hclosing : ∀ n ∈ closing, n.branchKind? = none) :
      Edit .body (front ++ run ++ back)
        (front ++ .branch k (opening ++ run ++ closing) :: back)
  /-- A run of declarations is enclosed in a branch that is no type, between words. -/
  | enclose {k : BranchKind} (hk : ∀ cs, (Node.branch k cs).isType = false)
      (opening closing front run back : List Node) (hopening : ∀ n ∈ opening, n.branchKind? = none)
      (hclosing : ∀ n ∈ closing, n.branchKind? = none) :
      Edit .outside (front ++ run ++ back)
        (front ++ .branch k (opening ++ run ++ closing) :: back)
  /-- A branch is edited inside. -/
  | inside {zone below : Zone} {k : BranchKind} {cs ds : List Node}
      (hbelow : zone.below k = some below) (h : Edit below cs ds) (front back : List Node) :
      Edit zone (front ++ .branch k cs :: back) (front ++ .branch k ds :: back)

/-! ## Where a row stands makes no difference -/

/-- Members are the same wherever they stand, but for their locations. -/
theorem unlocatedAll_membersOf (file : Path) :
    (∀ n, ∀ owner p q, Member.unlocatedAll (membersOf file owner p n)
        = Member.unlocatedAll (membersOf file owner q n))
      ∧ (∀ cs, ∀ owner p q, Member.unlocatedAll (membersOfAll file owner p cs)
        = Member.unlocatedAll (membersOfAll file owner q cs))
      ∧ ∀ cs, ∀ owner p q, Member.unlocatedAll (bodyMembers file owner p cs)
        = Member.unlocatedAll (bodyMembers file owner q cs) := by
  apply Node.walk_induction
  case silent =>
    intro n hn hd owner p q
    rw [(placeMembers_of_silent file owner p [] hn hd).2,
      (placeMembers_of_silent file owner q [] hn hd).2]
  case constructor => intros; rfl
  case method => intros; rfl
  case type =>
    intro k cs ih owner p q
    simp only [membersOf, Member.unlocatedAll, Member.unlocated, headerOf, ih _ p q]
  case directive =>
    intro k cs hk ih owner p q
    rw [(placeMembers_of_directive file owner p [] hk).2,
      (placeMembers_of_directive file owner q [] hk).2]
    exact ih owner p q
  case nil => intros; rfl
  case cons =>
    intro c cs ihc ihcs owner p q
    rw [membersOfAll, membersOfAll, Member.unlocatedAll_append, Member.unlocatedAll_append,
      ihc owner p q, ihcs owner (p.past c) (q.past c)]
  case noBody => intros; rfl
  case body =>
    intro inside cs ih owner p q
    rw [bodyMembers, bodyMembers]
    exact ih owner p q
  case skip =>
    intro c cs hc ih owner p q
    rw [(placeBody_of_ne file owner p [] 0 hc cs).2, (placeBody_of_ne file owner q [] 0 hc cs).2]
    exact ih owner (p.past c) (q.past c)

/-- Types are the same wherever they stand, but for their locations. -/
theorem unlocated_typesOf (file : Path) :
    (∀ n, ∀ p q, (typesOf file p n).map TypeDeclaration.unlocated
        = (typesOf file q n).map TypeDeclaration.unlocated)
      ∧ ∀ cs, ∀ p q, (typesOfAll file p cs).map TypeDeclaration.unlocated
        = (typesOfAll file q cs).map TypeDeclaration.unlocated := by
  apply Node.type_induction
  case leaf => intros; rfl
  case type =>
    intro k cs p q
    simp only [typesOf, List.map_cons, List.map_nil, TypeDeclaration.unlocated, headerOf,
      (unlocatedAll_membersOf file).2.2 cs _ p q]
  case other =>
    intro k cs hk ih p q
    rw [(placeTypes_of_not_type file p [] hk).2, (placeTypes_of_not_type file q [] hk).2]
    exact ih p q
  case nil => intros; rfl
  case cons =>
    intro c cs ihc ihcs p q
    rw [typesOfAll, typesOfAll, List.map_append, List.map_append, ihc p q,
      ihcs (p.past c) (q.past c)]

/-- What stands in the first braces of a row. -/
def Node.braced (cs : List Node) : List Node :=
  ((cs.find? (·.isBranch .declarationList)).map children).getD []

/-- The members of a type are those in its first braces. -/
theorem unlocatedAll_bodyMembers (file : Path) (owner : String) (p q : Position) (cs : List Node) :
    Member.unlocatedAll (bodyMembers file owner p cs)
      = Member.unlocatedAll (membersOfAll file owner q (Node.braced cs)) := by
  induction cs generalizing p with
  | nil => rfl
  | cons c cs ih =>
    by_cases hc : c.isBranch .declarationList = true
    · obtain ⟨inside, rfl⟩ := Node.exists_of_isBranch hc
      have hbraced : Node.braced (.branch .declarationList inside :: cs) = inside := rfl
      rw [bodyMembers, hbraced]
      exact (unlocatedAll_membersOf file).2.1 inside owner p q
    · have hbraced : Node.braced (c :: cs) = Node.braced cs := by
        rw [Node.braced, List.find?_cons_of_neg hc, Node.braced]
      rw [(placeBody_of_ne file owner p [] 0 (Bool.eq_false_iff.mpr hc) cs).2, hbraced]
      exact ih (p.past c)

/-! ## Rows that are alike

Members are looked for with the name of the type they stand in and types without one, but both
walks go along a row in the same way, and what follows from that alone is said of any walk that
does (`Walk`). -/

/-- A walk along the children of nodes, where locations are left out of what it finds. -/
structure Walk (α : Type) where
  /-- What is found in a row that stands at a position. -/
  found : Position → List Node → List α
  /-- In a row is found what is in its parts, each where it stands. -/
  found_append : ∀ p cs ds, found p (cs ++ ds) = found p cs ++ found (p.pastAll cs) ds
  /-- In a word nothing is found. -/
  found_word : ∀ p k text, found p [.leaf k text] = []
  /-- Where a row stands makes no difference. -/
  found_moved : ∀ p q cs, found p cs = found q cs

/-- The members of a type with this name. -/
def Walk.members (file : Path) (owner : String) : Walk Member where
  found p cs := Member.unlocatedAll (membersOfAll file owner p cs)
  found_append p cs ds := by rw [membersOfAll_append, Member.unlocatedAll_append]
  found_word _ _ _ := rfl
  found_moved p q cs := (unlocatedAll_membersOf file).2.1 cs owner p q

/-- The types outside of types. -/
def Walk.types (file : Path) : Walk TypeDeclaration where
  found p cs := (typesOfAll file p cs).map TypeDeclaration.unlocated
  found_append p cs ds := by rw [typesOfAll_append, List.map_append]
  found_word _ _ _ := rfl
  found_moved p q cs := (unlocated_typesOf file).2 cs p q

/-- Whether a walk finds the same in two rows, wherever they stand. -/
def Walk.Alike {α : Type} (walk : Walk α) (cs ds : List Node) : Prop :=
  ∀ p q, walk.found p cs = walk.found q ds

namespace Walk.Alike

variable {α : Type} {walk : Walk α} {cs ds es cs' ds' : List Node}

theorem refl (walk : Walk α) (cs : List Node) : walk.Alike cs cs := fun p q =>
  walk.found_moved p q cs

theorem symm (h : walk.Alike cs ds) : walk.Alike ds cs := fun p q => (h q p).symm

theorem trans (h : walk.Alike cs ds) (h' : walk.Alike ds es) : walk.Alike cs es := fun p q =>
  (h p q).trans (h' q q)

theorem append (h : walk.Alike cs ds) (h' : walk.Alike cs' ds') :
    walk.Alike (cs ++ cs') (ds ++ ds') := by
  intro p q
  rw [walk.found_append, walk.found_append, h p q, h' _ (q.pastAll ds)]

/-- What stands around two rows makes no difference. -/
theorem between (h : walk.Alike cs ds) (front back : List Node) :
    walk.Alike (front ++ cs ++ back) (front ++ ds ++ back) :=
  ((refl walk front).append h).append (refl walk back)

/-- A word stands for nothing. -/
theorem word (walk : Walk α) (k : LeafKind) (text : String) :
    walk.Alike [] [.leaf k text] := by
  intro p q
  -- the empty row behind a word
  have hword := walk.found_append p [.leaf k text] []
  rw [List.append_nil, walk.found_word, List.nil_append] at hword
  rw [walk.found_moved p _ [], ← hword, walk.found_word]

theorem words (walk : Walk α) (h : ∀ n ∈ cs, n.branchKind? = none) : walk.Alike [] cs := by
  induction cs with
  | nil => exact refl walk []
  | cons c cs ih =>
    obtain ⟨hc, hcs⟩ := List.forall_mem_cons.mp h
    cases c with
    | leaf k text => exact (word walk k text).append (ih hcs)
    | branch k ds => cases hc

/-- A branch may take the place of a run of its children if it stands for what is in it. -/
theorem group {k : BranchKind} {opening closing : List Node}
    (hopening : ∀ n ∈ opening, n.branchKind? = none)
    (hclosing : ∀ n ∈ closing, n.branchKind? = none) (front run back : List Node)
    (hk : ∀ row, walk.Alike row [.branch k row]) :
    walk.Alike (front ++ run ++ back)
      (front ++ .branch k (opening ++ run ++ closing) :: back) := by
  have hrun : walk.Alike run (opening ++ run ++ closing) := by
    simpa using ((words walk hopening).append (refl walk run)).append (words walk hclosing)
  simpa using (hrun.trans (hk _)).between front back

/-- Rows are alike if they differ in one branch that stands for the same in both. -/
theorem inside {k : BranchKind} (h : walk.Alike [.branch k cs] [.branch k ds])
    (front back : List Node) :
    walk.Alike (front ++ .branch k cs :: back) (front ++ .branch k ds :: back) := by
  simpa using h.between front back

end Walk.Alike

/-- Whether two rows in the braces of a type stand for the same members, whatever its name. -/
def AlikeMembers (file : Path) (cs ds : List Node) : Prop :=
  ∀ owner, (Walk.members file owner).Alike cs ds

/-- What is read off the children of a node that is not a type: as those of a member, as those of
its list of parameters, and as those of its block. -/
structure AlikeInside (cs ds : List Node) : Prop where
  name : Node.declaredName cs = Node.declaredName ds
  modifiers : Node.modifiers cs = Node.modifiers ds
  parameters : Node.parameterCount cs = Node.parameterCount ds
  body : Node.bodyOf cs = Node.bodyOf ds
  listed : cs.countP (·.isBranch .parameter) = ds.countP (·.isBranch .parameter)
  statements : cs.countP (fun n => n.isNamed && !n.isTrivia)
    = ds.countP fun n => n.isNamed && !n.isTrivia

/-- What is read off the children of a type. -/
structure AlikeHeads (file : Path) (cs ds : List Node) : Prop where
  name : Node.declaredName cs = Node.declaredName ds
  bases : Node.baseTypes cs = Node.baseTypes ds
  members : AlikeMembers file (Node.braced cs) (Node.braced ds)

/-- What two rows must have in common for the walk to find the same in them. -/
def Zone.Alike (file : Path) : Zone → List Node → List Node → Prop
  | .outside => (Walk.types file).Alike
  | .head => AlikeHeads file
  | .bases => fun cs ds =>
    Node.baseEntries (.branch .baseList cs) = Node.baseEntries (.branch .baseList ds)
  | .body => AlikeMembers file
  | .inert => AlikeInside

/-! ## Comments -/

section Comment

variable (file : Path) (text : String) (front back : List Node)

theorem AlikeInside.comment :
    AlikeInside (front ++ back) (front ++ .leaf .comment text :: back) where
  name := by simp [Node.declaredName, List.find?_append, Node.isLeaf]
  modifiers := by simp [Node.modifiers, Node.isLeaf]
  parameters := by simp [Node.parameterCount, List.find?_append, Node.isBranch]
  body := by simp [Node.bodyOf]
  listed := by simp [Node.isBranch]
  statements := by simp [Node.isTrivia]

theorem AlikeHeads.comment :
    AlikeHeads file (front ++ back) (front ++ .leaf .comment text :: back) where
  name := (AlikeInside.comment text front back).name
  bases := by simp [Node.baseTypes, Node.isBranch]
  members := by
    have hbraced :
        Node.braced (front ++ .leaf .comment text :: back) = Node.braced (front ++ back) := by
      simp [Node.braced, List.find?_append, Node.isBranch]
    rw [hbraced]
    exact fun owner => .refl _ _

/-- A comment stands for no declaration and is none of the facts that are read off a row. -/
theorem Zone.alike_comment (zone : Zone) :
    zone.Alike file (front ++ back) (front ++ .leaf .comment text :: back) := by
  cases zone with
  | outside =>
    simpa [Zone.Alike] using (Walk.Alike.word (Walk.types file) .comment text).between front back
  | head => exact .comment file text front back
  | bases => simp [Zone.Alike, Node.baseEntries, Node.isTrivia]
  | body =>
    exact fun owner => by
      simpa using (Walk.Alike.word (Walk.members file owner) .comment text).between front back
  | inert => exact .comment text front back

end Comment

/-! ## Groups -/

/-- A directive stands for the members of its branches. -/
theorem Walk.members_direct (file : Path) (owner : String) {k : BranchKind} {cs : List Node}
    (hk : (Node.branch k cs).isDirective = true) :
    (Walk.members file owner).Alike cs [.branch k cs] := by
  intro p q
  simp only [Walk.members, membersOfAll, (placeMembers_of_directive file owner q [] hk).2,
    List.append_nil]
  exact (unlocatedAll_membersOf file).2.1 cs owner p q

/-- A branch that is no type stands for the types inside it. -/
theorem Walk.types_enclose (file : Path) {k : BranchKind} {cs : List Node}
    (hk : (Node.branch k cs).isType = false) : (Walk.types file).Alike cs [.branch k cs] := by
  intro p q
  simp only [Walk.types, typesOfAll, (placeTypes_of_not_type file q [] hk).2, List.append_nil]
  exact (unlocated_typesOf file).2 cs p q

/-! ## Edits inside a branch -/

section Inside

variable {file : Path} {k : BranchKind} {cs ds : List Node} (front back : List Node)

/-- Of a branch in a member only the kind matters, and the parameters or statements in it. -/
theorem AlikeInside.inside (h : AlikeInside cs ds) :
    AlikeInside (front ++ .branch k cs :: back) (front ++ .branch k ds :: back) where
  name := by simp [Node.declaredName, List.find?_append, Node.isLeaf]
  modifiers := by simp [Node.modifiers, Node.isLeaf]
  parameters := by
    have hlisted := h.listed
    cases hfront : front.find? (·.isBranch .parameterList) with
    | some list => simp [Node.parameterCount, List.find?_append, hfront]
    | none =>
      by_cases hk : k = .parameterList
      · simp [Node.parameterCount, List.find?_append, hfront, hk, Node.isBranch_branch, hlisted]
      · simp [Node.parameterCount, List.find?_append, hfront, hk, Node.isBranch_branch]
  body := by
    have hstatements := h.statements
    simp only [Node.bodyOf, List.foldl_append, List.foldl_cons]
    cases k <;> simp [Node.statementCount, hstatements]
  listed := by simp [List.countP_cons, Node.isBranch_branch]
  statements := by
    have hkind : Node.isTrivia (.branch k cs) = Node.isTrivia (.branch k ds) := by cases k <;> rfl
    simp [List.countP_cons, Node.isNamed, hkind]

/-- Of a branch in a type the base list matters and the braces. -/
theorem AlikeHeads.inside
    (hbases : k = .baseList →
      Node.baseEntries (.branch .baseList cs) = Node.baseEntries (.branch .baseList ds))
    (hbody : k = .declarationList → AlikeMembers file cs ds) :
    AlikeHeads file (front ++ .branch k cs :: back) (front ++ .branch k ds :: back) where
  name := by simp [Node.declaredName, List.find?_append, Node.isLeaf]
  bases := by
    rw [Node.baseTypes, Node.baseTypes, ← List.getLast?_map, ← List.getLast?_map]
    by_cases hk : k = .baseList
    · simp [List.filter_append, Node.isBranch_branch, hk, hbases hk]
    · simp [List.filter_append, Node.isBranch_branch, hk]
  members := by
    cases hfront : front.find? (·.isBranch .declarationList) with
    | some braces =>
      have hbraced : ∀ rest, Node.braced (front ++ rest) = braces.children := fun rest => by
        simp [Node.braced, List.find?_append, hfront]
      rw [hbraced, hbraced]
      exact fun owner => .refl _ _
    | none =>
      by_cases hk : k = .declarationList
      · have hbraced : ∀ row, Node.braced (front ++ .branch k row :: back) = row := fun row => by
          simp [Node.braced, List.find?_append, hfront, hk, Node.isBranch_branch]
        rw [hbraced, hbraced]
        exact hbody hk
      · have hbraced : ∀ row, Node.braced (front ++ .branch k row :: back) = Node.braced back :=
          fun row => by simp [Node.braced, List.find?_append, hfront, hk, Node.isBranch_branch]
        rw [hbraced, hbraced]
        exact fun owner => .refl _ _

/-- A type is the same, but for locations, if its children are alike. -/
theorem AlikeHeads.type_eq (h : AlikeHeads file cs ds) (kind : TypeKind) (p q : Position) :
    TypeDeclaration.unlocated ⟨headerOf file kind p (.branch (.typeDeclaration kind) cs),
        bodyMembers file (Node.declaredName cs) p cs⟩
      = TypeDeclaration.unlocated ⟨headerOf file kind q (.branch (.typeDeclaration kind) ds),
        bodyMembers file (Node.declaredName ds) q ds⟩ := by
  have hmembers : Member.unlocatedAll (bodyMembers file (Node.declaredName ds) p cs)
      = Member.unlocatedAll (bodyMembers file (Node.declaredName ds) q ds) := by
    rw [unlocatedAll_bodyMembers file _ p {}, unlocatedAll_bodyMembers file _ q {}]
    exact h.members _ {} {}
  simp only [TypeDeclaration.unlocated, headerOf, Node.children_branch, h.name, h.bases, hmembers]

/-- In the braces of a type a branch is a type, a directive or a member, or it does not count. -/
theorem Walk.members_inside {below : Zone} (hbelow : Zone.body.below k = some below)
    (h : below.Alike file cs ds) (owner : String) :
    (Walk.members file owner).Alike [.branch k cs] [.branch k ds] := by
  by_cases hdirective : k = .conditional ∨ k = .alternative
  · have hk : ∀ row, (Node.branch k row).isDirective = true := by
      rcases hdirective with rfl | rfl <;> exact fun _ => rfl
    obtain rfl : below = .body := by rcases hdirective with rfl | rfl <;> cases hbelow <;> rfl
    exact ((members_direct file owner (hk cs)).symm.trans (h owner)).trans
      (members_direct file owner (hk ds))
  intro p q
  simp only [Walk.members, membersOfAll, List.append_nil]
  by_cases htype : ∃ kind, k = .typeDeclaration kind
  · obtain ⟨kind, rfl⟩ := htype
    cases hbelow
    exact congrArg (fun t => [TypeDeclaration.toMember t]) (h.type_eq kind p q)
  obtain rfl : below = .inert := by cases k <;> simp_all [Zone.below]
  have hinside : AlikeInside cs ds := h
  by_cases hconstructor : k = .constructorDeclaration
  · rw [hconstructor]
    simp only [membersOf, Member.unlocatedAll, Member.unlocated, constructorOf,
      Node.children_branch, hinside.name, hinside.modifiers, hinside.parameters, hinside.body]
  by_cases hmethod : k = .methodDeclaration
  · rw [hmethod]
    simp only [membersOf, Member.unlocatedAll, Member.unlocated, methodOf, Node.children_branch,
      hinside.name, hinside.modifiers]
  · have hsilent : ∀ row, (Node.branch k row).isDeclaration = false :=
      Node.not_isDeclaration_of_ne hconstructor hmethod fun kind hkind => htype ⟨kind, hkind⟩
    have hdown : ∀ row, (Node.branch k row).isDirective = false :=
      Node.not_isDirective_of_ne (fun hk => hdirective (.inl hk)) fun hk => hdirective (.inr hk)
    rw [(placeMembers_of_silent file owner p [] (hsilent cs) (hdown cs)).2,
      (placeMembers_of_silent file owner q [] (hsilent ds) (hdown ds)).2]

/-- Outside of types a branch is a type, or it stands for the types inside it. -/
theorem Walk.types_inside {below : Zone} (hbelow : Zone.outside.below k = some below)
    (h : below.Alike file cs ds) : (Walk.types file).Alike [.branch k cs] [.branch k ds] := by
  by_cases htype : ∃ kind, k = .typeDeclaration kind
  · obtain ⟨kind, rfl⟩ := htype
    cases hbelow
    intro p q
    simp only [Walk.types, typesOfAll, typesOf, List.map_cons, List.map_nil, List.append_nil,
      h.type_eq kind p q]
  · have hother : ∀ row, (Node.branch k row).isType = false :=
      Node.not_isType_of_ne fun kind hkind => htype ⟨kind, hkind⟩
    obtain rfl : below = .outside := by cases k <;> simp_all [Zone.below]
    exact ((types_enclose file (hother cs)).symm.trans h).trans (types_enclose file (hother ds))

/-- **A branch may be edited inside** where its zone allows it: what the walk finds in the row
around it is the same if what it finds inside is. -/
theorem Zone.alike_inside {zone below : Zone} (hbelow : zone.below k = some below)
    (h : below.Alike file cs ds) :
    zone.Alike file (front ++ .branch k cs :: back) (front ++ .branch k ds :: back) := by
  cases zone with
  | outside => exact (Walk.types_inside hbelow h).inside front back
  | head =>
    refine .inside front back ?_ ?_
    · rintro rfl
      cases hbelow
      exact h
    · rintro rfl
      cases hbelow
      exact h
  | bases =>
    have hkeep : ∀ row, (Node.isNamed (.branch k row) && !Node.isTrivia (.branch k row)
        && !Node.isBranch .argumentList (.branch k row)) = false := by
      intro row
      cases k <;> simp_all [Zone.below, Node.isNamed, Node.isTrivia, Node.isBranch_branch]
    simp [Zone.Alike, Node.baseEntries, List.filter_append, hkeep]
  | body => exact fun owner => (Walk.members_inside hbelow h owner).inside front back
  | inert =>
    obtain rfl : below = .inert := by cases k <;> simp_all [Zone.below]
    exact h.inside front back

end Inside

/-! ## What extraction does not notice -/

/-- One edit leaves alone what the walk finds. -/
theorem Edit.alike {zone : Zone} {cs ds : List Node} (h : Edit zone cs ds) (file : Path) :
    zone.Alike file cs ds := by
  induction h with
  | comment zone text front back => exact zone.alike_comment file text front back
  | direct hk _ _ front run back hopening hclosing =>
    exact fun owner => .group hopening hclosing front run back fun row =>
      Walk.members_direct file owner (hk row)
  | enclose hk _ _ front run back hopening hclosing =>
    exact .group hopening hclosing front run back fun row => Walk.types_enclose file (hk row)
  | inside hbelow h front back ih => exact Zone.alike_inside front back hbelow ih

/-- **Extraction does not notice comments and groups.**  For every tree and any number of edits of
it --- comments put in or taken out anywhere but inside an entry of a base list, members of types
enclosed in directives or freed from them, declarations outside of types enclosed in branches that
are no types or freed from them, each at any depth --- the types that are found are the same in
everything but their locations. -/
theorem unlocated_types_of_edits (file : Path) (k : BranchKind) {cs ds : List Node}
    (h : Relation.EqvGen (Edit .outside) cs ds) :
    (SourceUnit.ofTree file (.branch k cs)).types.map TypeDeclaration.unlocated
      = (SourceUnit.ofTree file (.branch k ds)).types.map TypeDeclaration.unlocated := by
  have halike : (Walk.types file).Alike cs ds := by
    induction h with
    | rel cs ds h => exact h.alike file
    | refl cs => exact .refl _ cs
    | symm cs ds _ ih => exact ih.symm
    | trans cs ds es _ _ ih ih' => exact ih.trans ih'
  exact halike {} {}

/-- A class with a constructor, and the same with comments in its base list and in the block of the
constructor, with the constructor under a directive and the class in a namespace. -/
theorem unlocated_types_of_four_edits :
    let order (bases : List Node) (member : Node) : Node :=
      .branch (.typeDeclaration .classType) [.leaf .name "Order", .branch .baseList bases,
        .branch .declarationList [.leaf .token "\x7b", member, .leaf .token "\x7d"]]
    let constructor (statements : List Node) : Node :=
      .branch .constructorDeclaration [.leaf .name "Order", .branch .parameterList [],
        .branch .block statements]
    let base : Node := .branch .baseType [.leaf .token "AggregateRoot"]
    let call : Node := .branch .statement [.leaf .token "F();"]
    let before := [order [.leaf .token ":", base] (constructor [call])]
    let after := [.branch .namespaceDeclaration [.leaf .token "namespace N;",
      order [.leaf .token ":", .leaf .comment "/* a */", base]
        (.branch .conditional [.leaf .token "#if X",
          constructor [.leaf .comment "/* b */", call], .leaf .token "#endif"])]]
    Relation.EqvGen (Edit .outside) before after
      ∧ (SourceUnit.ofTree "a.cs" (.branch .unit before)).types.map TypeDeclaration.unlocated
        = (SourceUnit.ofTree "a.cs" (.branch .unit after)).types.map TypeDeclaration.unlocated := by
  intro order constructor base call before after
  have hword : ∀ text, ∀ n ∈ [Node.leaf .token text], n.branchKind? = none := by
    simp [Node.branchKind?]
  -- from the inside out: the block, the members, the base list, the namespace
  let commented := constructor [.leaf .comment "/* b */", call]
  let member : Node :=
    .branch .conditional [.leaf .token "#if X", commented, .leaf .token "#endif"]
  have hblock : Edit .outside before [order [.leaf .token ":", base] commented] :=
    .inside rfl (.inside rfl (.inside rfl (.inside rfl (.comment .inert "/* b */" [] [call])
      [_, _] []) [_] [_]) [_, _] []) [] []
  have hmembers : Edit .outside [order [.leaf .token ":", base] commented]
      [order [.leaf .token ":", base] member] :=
    .inside rfl (.inside rfl (.direct (fun _ => rfl) [.leaf .token "#if X"] [.leaf .token "#endif"]
      [_] [commented] [_] (hword _) (hword _)) [_, _] []) [] []
  have hbases : Edit .outside [order [.leaf .token ":", base] member]
      [order [.leaf .token ":", .leaf .comment "/* a */", base] member] :=
    .inside rfl (.inside rfl (.comment .bases "/* a */" [_] [base]) [_] [_]) [] []
  have hnamespace : Edit .outside
      [order [.leaf .token ":", .leaf .comment "/* a */", base] member] after :=
    .enclose (fun _ => rfl) [.leaf .token "namespace N;"] [] [] [_] [] (hword _) (by simp)
  have hedits : Relation.EqvGen (Edit .outside) before after :=
    .trans _ _ _ (.rel _ _ hblock) (.trans _ _ _ (.rel _ _ hmembers)
      (.trans _ _ _ (.rel _ _ hbases) (.rel _ _ hnamespace)))
  exact ⟨hedits, unlocated_types_of_edits "a.cs" .unit hedits⟩

end Source
end AggregateAudit
