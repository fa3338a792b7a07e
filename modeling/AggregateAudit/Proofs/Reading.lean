import AggregateAudit.Proofs.Placement

/-!
# What declarations are read from

Every declaration that the walk with addresses collects says what the node at its
address says, and says it of the place where that node starts.  The walk hands a place
on from node to node; that this place is the right one is what `Stands` and `RowStands`
say, and they are kept at every step.

`forestOf` is the forest of a whole tree with its addresses.  From addresses that
increase and places that belong to them it follows that its listing goes forward in the
text as well (`places_forestOf`).
-/

namespace AggregateAudit
namespace Source

/-! ## What they were read from -/

/-- The node `n` is at the address `a` of a tree and starts at `p`. -/
structure Stands (root : Node) (a : Address) (p : Position) (n : Node) : Prop where
  found : root.at? a = some n
  start : root.startOf {} a = p

/-- The row `cs` is that of the children of the node at `a` from the `i`-th one on, and
it starts at `p`. -/
structure RowStands (root : Node) (a : Address) (i : Nat) (p : Position) (cs : List Node) :
    Prop where
  row : ∃ q n, Stands root a q n ∧ n.children.drop i = cs ∧ q.pastAll (n.children.take i) = p

theorem stands_root (root : Node) : Stands root [] {} root := ⟨rfl, rfl⟩

theorem Stands.children {root : Node} {a : Address} {p : Position} {n : Node}
    (h : Stands root a p n) : RowStands root a 0 p n.children :=
  ⟨p, n, h, rfl, rfl⟩

/-- The first node of a row of children stands where the row starts. -/
theorem RowStands.head {root : Node} {a : Address} {i : Nat} {p : Position} {c : Node}
    {cs : List Node} (h : RowStands root a i p (c :: cs)) : Stands root (a ++ [i]) p c := by
  obtain ⟨q, n, hn, hdrop, rfl⟩ := h.row
  have hc : n.children[i]? = some c := by rw [← List.head?_drop, hdrop, List.head?_cons]
  constructor
  · rw [Node.at?_append, hn.found]
    simp [Node.at?_cons, hc]
  · rw [Node.startOf_append hn.found, hn.start, Node.startOf_cons hc, Node.startOf_nil]

/-- The rest of a row of children starts behind its first node. -/
theorem RowStands.tail {root : Node} {a : Address} {i : Nat} {p : Position} {c : Node}
    {cs : List Node} (h : RowStands root a i p (c :: cs)) :
    RowStands root a (i + 1) (p.past c) cs := by
  obtain ⟨q, n, hn, hdrop, rfl⟩ := h.row
  have hc : n.children[i]? = some c := by rw [← List.head?_drop, hdrop, List.head?_cons]
  refine ⟨q, n, hn, ?_, ?_⟩
  · rw [← List.tail_drop, hdrop, List.tail_cons]
  · rw [List.take_add_one, hc, Position.pastAll_append]
    rfl

/-- Whether a declaration says what the node at its address says, and a type holds what
the walk finds in the node. -/
def Placed.IsRead (file : Path) (root : Node) : Placed → Prop
  | .constructor a c => ∃ p cs owner, Stands root a p (.branch .constructorDeclaration cs)
      ∧ c = constructorOf file owner p (.branch .constructorDeclaration cs)
  | .method a m => ∃ p cs owner, Stands root a p (.branch .methodDeclaration cs)
      ∧ m = methodOf file owner p (.branch .methodDeclaration cs)
  | .type a h ms => ∃ p k cs, Stands root a p (.branch (.typeDeclaration k) cs)
      ∧ h = headerOf file k p (.branch (.typeDeclaration k) cs)
      ∧ ms = placeBody file (Node.declaredName cs) p a 0 cs

/-- A row of declarations with one owner, everything in which was read from its node. -/
structure IsReadWith (file : Path) (root : Node) (owner : String) (xs : List Placed) :
    Prop where
  owners : ∀ x ∈ xs, ∀ name ∈ x.owner?, name = owner
  read : ∀ x ∈ Placed.listingAll xs, x.IsRead file root

theorem isReadWith_nil (file : Path) (root : Node) (owner : String) :
    IsReadWith file root owner [] where
  owners _ hx := absurd hx List.not_mem_nil
  read _ hx := absurd hx List.not_mem_nil

theorem IsReadWith.append {file : Path} {root : Node} {owner : String} {xs ys : List Placed}
    (hxs : IsReadWith file root owner xs) (hys : IsReadWith file root owner ys) :
    IsReadWith file root owner (xs ++ ys) where
  owners x hx := (List.mem_append.mp hx).elim (hxs.owners x) (hys.owners x)
  read x hx := by
    rw [Placed.listingAll_append, List.mem_append] at hx
    exact hx.elim (hxs.read x) (hys.read x)

theorem isReadWith_single {file : Path} {root : Node} {owner : String} {x : Placed}
    (hlist : x.listing = [x]) (howner : ∀ name ∈ x.owner?, name = owner)
    (hread : x.IsRead file root) : IsReadWith file root owner [x] where
  owners y hy := by
    cases List.mem_singleton.mp hy
    exact howner
  read y hy := by
    rw [Placed.listingAll, Placed.listingAll, List.append_nil, hlist] at hy
    cases List.mem_singleton.mp hy
    exact hread

/-- A type, whatever the owner around it. -/
theorem isReadWith_type {file : Path} {root : Node} {owner name : String} {a : Address}
    {header : TypeHeader} {ms : List Placed} (hread : Placed.IsRead file root (.type a header ms))
    (hms : IsReadWith file root name ms) : IsReadWith file root owner [.type a header ms] where
  owners x hx := by
    cases List.mem_singleton.mp hx
    simp [Placed.owner?]
  read x hx := by
    rw [Placed.listingAll, Placed.listingAll, List.append_nil, Placed.listing] at hx
    rcases List.mem_cons.mp hx with rfl | hx
    · exact hread
    · exact hms.read x hx

/-- **The walk through members reads every declaration from its node**, and gives the
owner to all of them. -/
theorem isReadWith_placeMembers (file : Path) (root : Node) :
    (∀ n, ∀ owner p a, Stands root a p n →
        IsReadWith file root owner (placeMembers file owner p a n))
      ∧ (∀ cs, ∀ owner p a i, RowStands root a i p cs →
        IsReadWith file root owner (placeMembersAll file owner p a i cs))
      ∧ ∀ cs, ∀ owner p a i, RowStands root a i p cs →
        IsReadWith file root owner (placeBody file owner p a i cs) := by
  apply Node.walk_induction
  case silent =>
    intro n hn hd owner p a _
    rw [(placeMembers_of_silent file owner p a hn hd).1]
    exact isReadWith_nil file root owner
  case constructor =>
    intro cs owner p a h
    rw [placeMembers]
    exact isReadWith_single rfl (by simp [Placed.owner?, constructorOf]) ⟨p, cs, owner, h, rfl⟩
  case method =>
    intro cs owner p a h
    rw [placeMembers]
    exact isReadWith_single rfl (by simp [Placed.owner?, methodOf]) ⟨p, cs, owner, h, rfl⟩
  case type =>
    intro k cs ih owner p a h
    rw [placeMembers]
    exact isReadWith_type ⟨p, k, cs, h, rfl, rfl⟩ (ih _ p a 0 h.children)
  case directive =>
    intro k cs hk ih owner p a h
    rw [(placeMembers_of_directive file owner p a hk).1]
    exact ih owner p a 0 h.children
  case nil => exact fun owner _ _ _ _ => isReadWith_nil file root owner
  case cons =>
    intro c cs ihc ihcs owner p a i h
    rw [placeMembersAll]
    exact (ihc owner p (a ++ [i]) h.head).append (ihcs owner (p.past c) a (i + 1) h.tail)
  case noBody => exact fun owner _ _ _ _ => isReadWith_nil file root owner
  case body =>
    intro inside cs ih owner p a i h
    rw [placeBody]
    exact ih owner p (a ++ [i]) 0 h.head.children
  case skip =>
    intro c cs hc ih owner p a i h
    rw [(placeBody_of_ne file owner p a i hc cs).1]
    exact ih owner (p.past c) a (i + 1) h.tail

/-- **The walk that looks for types reads every declaration from its node.** -/
theorem isReadWith_placeTypes (file : Path) (root : Node) (owner : String) :
    (∀ n, ∀ p a, Stands root a p n → IsReadWith file root owner (placeTypes file p a n))
      ∧ ∀ cs, ∀ p a i, RowStands root a i p cs →
        IsReadWith file root owner (placeTypesAll file p a i cs) := by
  apply Node.type_induction
  case leaf =>
    intro k t p a _
    rw [placeTypes]
    exact isReadWith_nil file root owner
  case type =>
    intro k cs p a h
    rw [placeTypes]
    exact isReadWith_type ⟨p, k, cs, h, rfl, rfl⟩
      ((isReadWith_placeMembers file root).2.2 cs _ p a 0 h.children)
  case other =>
    intro k cs hk ih p a h
    rw [(placeTypes_of_not_type file p a hk).1]
    exact ih p a 0 h.children
  case nil => exact fun _ _ _ _ => isReadWith_nil file root owner
  case cons =>
    intro c cs ihc ihcs p a i h
    rw [placeTypesAll]
    exact (ihc p (a ++ [i]) h.head).append (ihcs (p.past c) a (i + 1) h.tail)

/-! ## The forest of a tree -/

/-- The types of a tree that no other type encloses, and everything inside them, with
their addresses.  The root itself is not looked at. -/
def forestOf (file : Path) (root : Node) : List Placed := placeTypesAll file {} [] 0 root.children

/-- Without the addresses it is the forest that extraction finds. -/
theorem memberAll_forestOf (file : Path) (root : Node) :
    Placed.memberAll (forestOf file root) =
      (SourceUnit.ofTree file root).types.map TypeDeclaration.toMember :=
  (memberAll_placeTypes file).2 root.children {} [] 0

theorem isRead_of_mem_forestOf {file : Path} {root : Node} {x : Placed}
    (h : x ∈ Placed.listingAll (forestOf file root)) : x.IsRead file root :=
  ((isReadWith_placeTypes file root "").2 root.children {} [] 0 (stands_root root).children).read
    x h

theorem increasing_forestOf (file : Path) (root : Node) :
    (addresses (Placed.listingAll (forestOf file root))).Pairwise (· < ·) :=
  ((inOrder_placeTypes file).2 root.children {} [] 0).increasing

/-- A declaration is located where the node at its address starts. -/
theorem Placed.IsRead.location {file : Path} {root : Node} {x : Placed}
    (h : x.IsRead file root) :
    ∃ n, root.at? x.address = some n
      ∧ x.location = (root.startOf {} x.address).locate file n := by
  cases x with
  | constructor a c =>
    obtain ⟨p, cs, owner, hs, rfl⟩ := h
    exact ⟨_, hs.found, by rw [Placed.address, hs.start]; rfl⟩
  | method a m =>
    obtain ⟨p, cs, owner, hs, rfl⟩ := h
    exact ⟨_, hs.found, by rw [Placed.address, hs.start]; rfl⟩
  | type a header ms =>
    obtain ⟨p, k, cs, hs, rfl, -⟩ := h
    exact ⟨_, hs.found, by rw [Placed.address, hs.start]; rfl⟩

end Source

/-- Whether the first location is in the same file as the second one and not behind
it. -/
structure Location.NotBehind (x y : Location) : Prop where
  file : x.file = y.file
  offset : x.offset ≤ y.offset
  column : x.line < y.line ∨ x.line = y.line ∧ x.column ≤ y.column

namespace Source

/-- Of two places, one of which leads to the other, the first is not behind the second. -/
theorem Position.Reaches.notBehind {p q : Position} (h : p.Reaches q) (file : Path)
    (m n : Node) : (p.locate file m).NotBehind (q.locate file n) where
  file := rfl
  offset := h.le.1
  column := h.le.2

/-- **The listing of the forest goes forward in the text.** -/
theorem places_forestOf (file : Path) (root : Node) :
    (Placed.listingAll (forestOf file root)).Pairwise fun x y =>
      x.location.NotBehind y.location := by
  have hincreasing := increasing_forestOf file root
  rw [addresses, List.pairwise_map] at hincreasing
  refine hincreasing.imp_of_mem ?_
  intro x y hx hy hlt
  obtain ⟨m, hm, hxloc⟩ := (isRead_of_mem_forestOf hx).location
  obtain ⟨n, hn, hyloc⟩ := (isRead_of_mem_forestOf hy).location
  rw [hxloc, hyloc]
  exact (Node.startOf_reaches hlt hm hn {}).notBehind file m n

end Source
end AggregateAudit
