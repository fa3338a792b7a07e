import AggregateAudit.Proofs.Address
import AggregateAudit.Source.Extraction

/-!
# Declarations with addresses

The walk through a tree forgets which node a declaration was read from: a declaration
carries a place in the text, but two nodes can start at the same place.  So the walk is
written a second time, with each declaration tagged by the address of its node.
Forgetting the tags gives the declarations back (`memberAll_placeMembers`,
`memberAll_placeTypes`), and what is said about the tags is said about the walk.

Two things are said here and in the files after this one by the same induction, along
the walk (`Node.walk_induction`, `Node.type_induction`).  Here it is that the walk goes
forward: the addresses of a listing increase (`inOrder_placeMembers`,
`inOrder_placeTypes`), so no node is met twice.
-/

namespace AggregateAudit
namespace Source

/-! ## Declarations with addresses -/

/-- A declaration and the address of the node it was read from. -/
inductive Placed where
  | constructor (address : Address) (c : Constructor)
  | method (address : Address) (m : Method)
  | type (address : Address) (header : TypeHeader) (members : List Placed)

namespace Placed

/-- The address of the node that a declaration was read from. -/
def address : Placed → Address
  | constructor a _ => a
  | method a _ => a
  | type a _ _ => a

/-- The place of a declaration in the text. -/
def location : Placed → Location
  | constructor _ c => c.location
  | method _ m => m.location
  | type _ h _ => h.location

/-- The owner that a declaration names; a type names none. -/
def owner? : Placed → Option String
  | constructor _ c => some c.owner
  | method _ m => some m.owner
  | type .. => none

mutual

/-- The declaration without its address. -/
def member : Placed → Member
  | constructor _ c => .constructor c
  | method _ m => .method m
  | type _ h ms => .type h (memberAll ms)

/-- A row of declarations without their addresses. -/
def memberAll : List Placed → List Member
  | [] => []
  | x :: xs => member x :: memberAll xs

end

mutual

/-- A declaration and everything inside it, in pre-order. -/
def listing : Placed → List Placed
  | constructor a c => [constructor a c]
  | method a m => [method a m]
  | type a h ms => type a h ms :: listingAll ms

/-- A row of declarations and everything inside them, in pre-order. -/
def listingAll : List Placed → List Placed
  | [] => []
  | x :: xs => listing x ++ listingAll xs

end

theorem memberAll_cons (x : Placed) (xs : List Placed) :
    memberAll (x :: xs) = x.member :: memberAll xs := rfl

theorem listingAll_cons (x : Placed) (xs : List Placed) :
    listingAll (x :: xs) = x.listing ++ listingAll xs := rfl

theorem memberAll_append (xs ys : List Placed) :
    memberAll (xs ++ ys) = memberAll xs ++ memberAll ys := by
  induction xs with
  | nil => rfl
  | cons x xs ih => rw [List.cons_append, memberAll_cons, memberAll_cons, ih, List.cons_append]

theorem memberAll_eq_map (xs : List Placed) : memberAll xs = xs.map member := by
  induction xs with
  | nil => rfl
  | cons x xs ih => rw [memberAll_cons, ih, List.map_cons]

theorem listingAll_append (xs ys : List Placed) :
    listingAll (xs ++ ys) = listingAll xs ++ listingAll ys := by
  induction xs with
  | nil => rfl
  | cons x xs ih => rw [List.cons_append, listingAll_cons, listingAll_cons, ih, List.append_assoc]

/-- A declaration is the first of its listing. -/
theorem mem_listing_self (x : Placed) : x ∈ x.listing := by
  cases x <;> simp [listing]

theorem mem_listingAll_of_mem {x : Placed} {xs : List Placed} (h : x ∈ xs) :
    x ∈ listingAll xs := by
  induction xs with
  | nil => cases h
  | cons y ys ih =>
    rw [listingAll_cons, List.mem_append]
    rcases List.mem_cons.mp h with rfl | h
    · exact .inl x.mem_listing_self
    · exact .inr (ih h)

end Placed

/-- The addresses of a row of declarations. -/
def addresses (xs : List Placed) : List Address := xs.map Placed.address

theorem addresses_append (xs ys : List Placed) :
    addresses (xs ++ ys) = addresses xs ++ addresses ys := List.map_append

/-! ## The walk with addresses -/

mutual

/-- The members that the node at an address inside the braces of a type stands for. -/
def placeMembers (file : Path) (owner : String) (p : Position) (a : Address) : Node → List Placed
  | .leaf .. => []
  | .branch kind cs =>
    match kind with
    | .constructorDeclaration =>
      [.constructor a (constructorOf file owner p (.branch .constructorDeclaration cs))]
    | .methodDeclaration => [.method a (methodOf file owner p (.branch .methodDeclaration cs))]
    | .typeDeclaration k =>
      [.type a (headerOf file k p (.branch (.typeDeclaration k) cs))
        (placeBody file (Node.declaredName cs) p a 0 cs)]
    | .conditional => placeMembersAll file owner p a 0 cs
    | .alternative => placeMembersAll file owner p a 0 cs
    | _ => []

/-- The members that the children of the node at an address stand for, from the `i`-th
one on. -/
def placeMembersAll (file : Path) (owner : String) (p : Position) (a : Address) (i : Nat) :
    List Node → List Placed
  | [] => []
  | c :: cs =>
    placeMembers file owner p (a ++ [i]) c ++ placeMembersAll file owner (p.past c) a (i + 1) cs

/-- The members in the first pair of braces among the children of the node at an
address, from the `i`-th one on. -/
def placeBody (file : Path) (owner : String) (p : Position) (a : Address) (i : Nat) :
    List Node → List Placed
  | [] => []
  | c :: cs =>
    match c with
    | .branch .declarationList inside => placeMembersAll file owner p (a ++ [i]) 0 inside
    | _ => placeBody file owner (p.past c) a (i + 1) cs

end

mutual

/-- The types of the node at an address: itself, or the outermost types inside it. -/
def placeTypes (file : Path) (p : Position) (a : Address) : Node → List Placed
  | .leaf .. => []
  | .branch kind cs =>
    match kind with
    | .typeDeclaration k =>
      [.type a (headerOf file k p (.branch (.typeDeclaration k) cs))
        (placeBody file (Node.declaredName cs) p a 0 cs)]
    | _ => placeTypesAll file p a 0 cs

/-- The types of the children of the node at an address, from the `i`-th one on. -/
def placeTypesAll (file : Path) (p : Position) (a : Address) (i : Nat) : List Node → List Placed
  | [] => []
  | c :: cs => placeTypes file p (a ++ [i]) c ++ placeTypesAll file (p.past c) a (i + 1) cs

end

/-! ## Induction along the walk

Nodes are of few sorts for the walk through members: declarations, directives, and all
others, of which it takes no notice. -/

namespace Node

/-- Whether a node is a type. -/
def isType : Node → Bool
  | .branch (.typeDeclaration _) _ => true
  | _ => false

/-- Whether a node is a constructor, a method or a type. -/
def isDeclaration : Node → Bool
  | .branch .constructorDeclaration _ => true
  | .branch .methodDeclaration _ => true
  | n => n.isType

theorem not_isType_of_ne {kind : BranchKind} (h : ∀ k, kind ≠ .typeDeclaration k)
    (cs : List Node) : (branch kind cs).isType = false := by
  cases kind <;> simp_all [isType]

theorem not_isDeclaration_of_ne {kind : BranchKind} (h₁ : kind ≠ .constructorDeclaration)
    (h₂ : kind ≠ .methodDeclaration) (h₃ : ∀ k, kind ≠ .typeDeclaration k) (cs : List Node) :
    (branch kind cs).isDeclaration = false := by
  cases kind <;> simp_all [isDeclaration, isType]

theorem not_isDirective_of_ne {kind : BranchKind} (h₁ : kind ≠ .conditional)
    (h₂ : kind ≠ .alternative) (cs : List Node) : (branch kind cs).isDirective = false := by
  cases kind <;> simp_all [isDirective]

theorem not_isBranch_of_ne {c : Node} (h : ∀ inside, c ≠ .branch .declarationList inside) :
    c.isBranch .declarationList = false := by
  cases c <;> simp_all [isBranch]

theorem exists_of_isBranch {c : Node} {k : BranchKind} (h : c.isBranch k = true) :
    ∃ cs, c = .branch k cs := by
  cases c with
  | leaf l t => cases h
  | branch k' cs => exact ⟨cs, by rw [of_decide_eq_true h]⟩

/-- What holds of every node and every row of nodes if it holds along the walk: of rows
in the braces of a type, and of rows in which such braces are looked for. -/
theorem walk_induction {onNode : Node → Prop} {onRow onBody : List Node → Prop}
    (silent : ∀ n, n.isDeclaration = false → n.isDirective = false → onNode n)
    (constructor : ∀ cs, onNode (.branch .constructorDeclaration cs))
    (method : ∀ cs, onNode (.branch .methodDeclaration cs))
    (type : ∀ k cs, onBody cs → onNode (.branch (.typeDeclaration k) cs))
    (directive : ∀ k cs, (branch k cs).isDirective = true → onRow cs → onNode (.branch k cs))
    (nil : onRow []) (cons : ∀ c cs, onNode c → onRow cs → onRow (c :: cs))
    (noBody : onBody [])
    (body : ∀ inside cs, onRow inside → onBody (.branch .declarationList inside :: cs))
    (skip : ∀ c cs, c.isBranch .declarationList = false → onBody cs → onBody (c :: cs)) :
    (∀ n, onNode n) ∧ (∀ cs, onRow cs) ∧ ∀ cs, onBody cs := by
  have h := membersOf.mutual_induct (fun _ _ n => onNode n) (fun _ _ cs => onRow cs)
    (fun _ _ cs => onBody cs)
    (fun _ _ _ _ => silent _ rfl rfl)
    (fun _ _ cs => constructor cs) (fun _ _ cs => method cs)
    (fun _ _ cs k ih => type k cs ih)
    (fun _ _ cs ih => directive _ cs rfl ih) (fun _ _ cs ih => directive _ cs rfl ih)
    (fun _ _ _ cs h₁ h₂ h₃ h₄ h₅ =>
      silent _ (not_isDeclaration_of_ne h₁ h₂ h₃ cs) (not_isDirective_of_ne h₄ h₅ cs))
    (fun _ _ => nil) (fun _ _ c cs ihc ihcs => cons c cs ihc ihcs)
    (fun _ _ => noBody) (fun _ _ cs inside ih => body inside cs ih)
    (fun _ _ c cs hc ih => skip c cs (not_isBranch_of_ne hc) ih)
  exact ⟨h.1 "" {}, h.2.1 "" {}, h.2.2 "" {}⟩

/-- What holds of every node and every row of nodes if it holds along the walk that
looks for types: it stops at types and goes on into everything else. -/
theorem type_induction {onNode : Node → Prop} {onRow : List Node → Prop}
    (leaf : ∀ k t, onNode (.leaf k t))
    (type : ∀ k cs, onNode (.branch (.typeDeclaration k) cs))
    (other : ∀ k cs, (branch k cs).isType = false → onRow cs → onNode (.branch k cs))
    (nil : onRow []) (cons : ∀ c cs, onNode c → onRow cs → onRow (c :: cs)) :
    (∀ n, onNode n) ∧ ∀ cs, onRow cs := by
  have h := typesOf.mutual_induct (fun _ n => onNode n) (fun _ cs => onRow cs)
    (fun _ k t => leaf k t) (fun _ cs k => type k cs)
    (fun _ kind cs hk ih => other kind cs (not_isType_of_ne hk cs) ih)
    (fun _ => nil) (fun _ c cs ihc ihcs => cons c cs ihc ihcs)
  exact ⟨h.1 {}, h.2 {}⟩

end Node

section Cases

variable (file : Path) (owner : String) (p : Position) (a : Address) (i : Nat)

theorem placeMembers_of_silent {n : Node} (hn : n.isDeclaration = false)
    (hd : n.isDirective = false) :
    placeMembers file owner p a n = [] ∧ membersOf file owner p n = [] := by
  cases n with
  | leaf k t => simp [placeMembers, membersOf]
  | branch k cs =>
    cases k <;> simp_all [placeMembers, membersOf, Node.isDeclaration, Node.isType,
      Node.isDirective]

theorem placeMembers_of_directive {k : BranchKind} {cs : List Node}
    (h : (Node.branch k cs).isDirective = true) :
    placeMembers file owner p a (.branch k cs) = placeMembersAll file owner p a 0 cs
      ∧ membersOf file owner p (.branch k cs) = membersOfAll file owner p cs := by
  cases k <;> simp_all [placeMembers, membersOf, Node.isDirective]

theorem placeBody_of_ne {c : Node} (h : c.isBranch .declarationList = false) (cs : List Node) :
    placeBody file owner p a i (c :: cs) = placeBody file owner (p.past c) a (i + 1) cs
      ∧ bodyMembers file owner p (c :: cs) = bodyMembers file owner (p.past c) cs := by
  cases c with
  | leaf k t => simp [placeBody, bodyMembers]
  | branch k cs => cases k <;> simp_all [placeBody, bodyMembers, Node.isBranch]

theorem placeTypes_of_not_type {k : BranchKind} {cs : List Node}
    (h : (Node.branch k cs).isType = false) :
    placeTypes file p a (.branch k cs) = placeTypesAll file p a 0 cs
      ∧ typesOf file p (.branch k cs) = typesOfAll file p cs := by
  cases k <;> simp_all [placeTypes, typesOf, Node.isType]

end Cases

/-! ## Forgetting the addresses -/

/-- The walk through members with addresses is the walk through members. -/
theorem memberAll_placeMembers (file : Path) :
    (∀ n, ∀ owner p a,
        Placed.memberAll (placeMembers file owner p a n) = membersOf file owner p n)
      ∧ (∀ cs, ∀ owner p a i,
        Placed.memberAll (placeMembersAll file owner p a i cs) = membersOfAll file owner p cs)
      ∧ ∀ cs, ∀ owner p a i,
        Placed.memberAll (placeBody file owner p a i cs) = bodyMembers file owner p cs := by
  apply Node.walk_induction
  case silent =>
    intro n hn hd owner p a
    obtain ⟨h₁, h₂⟩ := placeMembers_of_silent file owner p a hn hd
    rw [h₁, h₂, Placed.memberAll]
  case constructor => intros; rfl
  case method => intros; rfl
  case type =>
    intro k cs ih owner p a
    simp [placeMembers, membersOf, Placed.memberAll, Placed.member, ih]
  case directive =>
    intro k cs hk ih owner p a
    obtain ⟨h₁, h₂⟩ := placeMembers_of_directive file owner p a hk
    rw [h₁, h₂, ih]
  case nil => intros; rfl
  case cons =>
    intro c cs ihc ihcs owner p a i
    rw [placeMembersAll, membersOfAll, Placed.memberAll_append, ihc, ihcs]
  case noBody => intros; rfl
  case body =>
    intro inside cs ih owner p a i
    rw [placeBody, bodyMembers, ih]
  case skip =>
    intro c cs hc ih owner p a i
    obtain ⟨h₁, h₂⟩ := placeBody_of_ne file owner p a i hc cs
    rw [h₁, h₂, ih]

/-- The walk that looks for types with addresses is the walk that looks for types. -/
theorem memberAll_placeTypes (file : Path) :
    (∀ n, ∀ p a, Placed.memberAll (placeTypes file p a n) =
        (typesOf file p n).map TypeDeclaration.toMember)
      ∧ ∀ cs, ∀ p a i, Placed.memberAll (placeTypesAll file p a i cs) =
        (typesOfAll file p cs).map TypeDeclaration.toMember := by
  apply Node.type_induction
  case leaf => intros; rfl
  case type =>
    intro k cs p a
    simp [placeTypes, typesOf, Placed.memberAll, Placed.member, TypeDeclaration.toMember,
      (memberAll_placeMembers file).2.2]
  case other =>
    intro k cs hk ih p a
    obtain ⟨h₁, h₂⟩ := placeTypes_of_not_type file p a hk
    rw [h₁, h₂, ih]
  case nil => intros; rfl
  case cons =>
    intro c cs ihc ihcs p a i
    rw [placeTypesAll, typesOfAll, Placed.memberAll_append, List.map_append, ihc, ihcs]

/-! ## In which order they come -/

/-- The listing of a row of declarations is in source order, inside the children of the
node at `a` from the `i`-th one on. -/
structure InOrderFrom (a : Address) (i : Nat) (xs : List Placed) : Prop where
  increasing : (addresses (Placed.listingAll xs)).Pairwise (· < ·)
  inside : ∀ b ∈ addresses (Placed.listingAll xs), ∃ j, i ≤ j ∧ a ++ [j] <+: b

/-- The listing of a row of declarations is in source order, in the node at `a`. -/
structure InOrderAt (a : Address) (xs : List Placed) : Prop where
  increasing : (addresses (Placed.listingAll xs)).Pairwise (· < ·)
  inside : ∀ b ∈ addresses (Placed.listingAll xs), a <+: b

theorem InOrderFrom.toAt {a : Address} {i : Nat} {xs : List Placed} (h : InOrderFrom a i xs) :
    InOrderAt a xs where
  increasing := h.increasing
  inside b hb := by
    obtain ⟨j, -, hj⟩ := h.inside b hb
    exact (List.prefix_append a [j]).trans hj

theorem inOrderFrom_nil (a : Address) (i : Nat) : InOrderFrom a i [] where
  increasing := .nil
  inside _ hb := absurd hb List.not_mem_nil

theorem InOrderFrom.of_succ {a : Address} {i : Nat} {xs : List Placed}
    (h : InOrderFrom a (i + 1) xs) : InOrderFrom a i xs where
  increasing := h.increasing
  inside b hb := by
    obtain ⟨j, hij, hj⟩ := h.inside b hb
    exact ⟨j, Nat.le_of_succ_le hij, hj⟩

/-- What is in a child and what is in later ones, put one after the other. -/
theorem InOrderAt.append {a : Address} {i : Nat} {xs ys : List Placed}
    (hxs : InOrderAt (a ++ [i]) xs) (hys : InOrderFrom a (i + 1) ys) :
    InOrderFrom a i (xs ++ ys) where
  increasing := by
    rw [Placed.listingAll_append, addresses_append, List.pairwise_append]
    refine ⟨hxs.increasing, hys.increasing, ?_⟩
    intro b hb c hc
    obtain ⟨j, hij, hj⟩ := hys.inside c hc
    exact Address.lt_of_lt_child hij (hxs.inside b hb) hj
  inside b hb := by
    rw [Placed.listingAll_append, addresses_append, List.mem_append] at hb
    rcases hb with hb | hb
    · exact ⟨i, Nat.le_refl i, hxs.inside b hb⟩
    · exact hys.of_succ.inside b hb

/-- What is inside a single child of the node. -/
theorem InOrderAt.toFrom {a : Address} {i : Nat} {xs : List Placed} (h : InOrderAt (a ++ [i]) xs) :
    InOrderFrom a i xs where
  increasing := h.increasing
  inside b hb := ⟨i, Nat.le_refl i, h.inside b hb⟩

/-- A declaration with nothing inside it. -/
theorem inOrderAt_single {x : Placed} (hx : x.listing = [x]) : InOrderAt x.address [x] := by
  constructor <;> simp [addresses, Placed.listingAll, hx]

/-- A type comes before its members. -/
theorem InOrderFrom.type {a : Address} {i : Nat} {ms : List Placed} (h : InOrderFrom a i ms)
    (header : TypeHeader) : InOrderAt a [.type a header ms] where
  increasing := by
    simp only [Placed.listingAll, Placed.listing, List.append_nil, addresses, List.map_cons,
      List.pairwise_cons]
    refine ⟨?_, h.increasing⟩
    intro b hb
    obtain ⟨j, -, t, rfl⟩ := h.inside b hb
    rw [List.append_assoc]
    exact Address.Above.lt ⟨List.prefix_append a _, by simp [Placed.address]⟩
  inside b hb := by
    simp only [Placed.listingAll, Placed.listing, List.append_nil, addresses, List.map_cons,
      List.mem_cons] at hb
    rcases hb with rfl | hb
    · exact List.prefix_rfl
    · exact h.toAt.inside b hb

/-- **The walk through members goes forward.** -/
theorem inOrder_placeMembers (file : Path) :
    (∀ n, ∀ owner p a, InOrderAt a (placeMembers file owner p a n))
      ∧ (∀ cs, ∀ owner p a i, InOrderFrom a i (placeMembersAll file owner p a i cs))
      ∧ ∀ cs, ∀ owner p a i, InOrderFrom a i (placeBody file owner p a i cs) := by
  apply Node.walk_induction
  case silent =>
    intro n hn hd owner p a
    rw [(placeMembers_of_silent file owner p a hn hd).1]
    exact (inOrderFrom_nil a 0).toAt
  case constructor =>
    intro cs owner p a
    rw [placeMembers]
    exact inOrderAt_single (x := .constructor a _) rfl
  case method =>
    intro cs owner p a
    rw [placeMembers]
    exact inOrderAt_single (x := .method a _) rfl
  case type =>
    intro k cs ih owner p a
    rw [placeMembers]
    exact (ih _ p a 0).type _
  case directive =>
    intro k cs hk ih owner p a
    rw [(placeMembers_of_directive file owner p a hk).1]
    exact (ih owner p a 0).toAt
  case nil => exact fun _ _ a i => inOrderFrom_nil a i
  case cons =>
    intro c cs ihc ihcs owner p a i
    rw [placeMembersAll]
    exact (ihc owner p (a ++ [i])).append (ihcs owner (p.past c) a (i + 1))
  case noBody => exact fun _ _ a i => inOrderFrom_nil a i
  case body =>
    intro inside cs ih owner p a i
    rw [placeBody]
    exact (ih owner p (a ++ [i]) 0).toAt.toFrom
  case skip =>
    intro c cs hc ih owner p a i
    rw [(placeBody_of_ne file owner p a i hc cs).1]
    exact (ih owner (p.past c) a (i + 1)).of_succ

/-- **The walk that looks for types goes forward.** -/
theorem inOrder_placeTypes (file : Path) :
    (∀ n, ∀ p a, InOrderAt a (placeTypes file p a n))
      ∧ ∀ cs, ∀ p a i, InOrderFrom a i (placeTypesAll file p a i cs) := by
  apply Node.type_induction
  case leaf =>
    intro k t p a
    rw [placeTypes]
    exact (inOrderFrom_nil a 0).toAt
  case type =>
    intro k cs p a
    rw [placeTypes]
    exact ((inOrder_placeMembers file).2.2 cs _ p a 0).type _
  case other =>
    intro k cs hk ih p a
    rw [(placeTypes_of_not_type file p a hk).1]
    exact (ih p a 0).toAt
  case nil => exact fun _ a i => inOrderFrom_nil a i
  case cons =>
    intro c cs ihc ihcs p a i
    rw [placeTypesAll]
    exact (ihc p (a ++ [i])).append (ihcs (p.past c) a (i + 1))

end Source
end AggregateAudit
