import AggregateAudit.Proofs.Exposure
import AggregateAudit.Proofs.Reading

/-!
# Extraction is faithful

Extraction turns a tree into a forest of types.  This file says what the forest has to
do with the tree, for every tree: no declaration is lost, none appears twice, and none
is given to the wrong type.

Everything is said with addresses.  Top-level types are the types that no type
encloses, whatever else encloses them.  A declaration inside a type belongs to the
nearest type around it, and it appears if it lies in the braces of that type with
nothing but directives in between and that type appears.  `IsFaithful` collects these
facts about a forest with addresses, and `exists_isFaithful` says that the extracted
forest is one of these.  The root is the one node that the walk does not look at, so
it must not be a type; the root of a parsed text is none.
-/

namespace AggregateAudit
namespace Source

/-! ## Nodes and the types around them -/

namespace Node

/-- Whether there is a type at an address. -/
def IsTypeAt (root : Node) (a : Address) : Prop := ∃ n, root.at? a = some n ∧ n.isType = true

/-- Whether there is a constructor, a method or a type at an address. -/
def IsDeclarationAt (root : Node) (a : Address) : Prop :=
  ∃ n, root.at? a = some n ∧ n.isDeclaration = true

/-- Whether there is a type at an address that no other type encloses. -/
def IsOutermostType (root : Node) (a : Address) : Prop :=
  root.IsTypeAt a ∧ ∀ b, Address.Above b a → ¬ root.IsTypeAt b

/-- Whether the nearest type around the node at `b` is the one at `a`. -/
def IsNearestType (root : Node) (a b : Address) : Prop :=
  root.IsTypeAt a ∧ Address.Above a b
    ∧ ∀ c, Address.Above a c → Address.Above c b → ¬ root.IsTypeAt c

/-- Whether the node at `b` lies in the braces of the type at `a` with nothing but
directives between the braces and it.  The braces are the first ones among the type's
children. -/
def LiesInBody (root : Node) (a b : Address) : Prop :=
  ∃ n j, root.at? a = some n ∧ n.children.findIdx? (·.isBranch .declarationList) = some j
    ∧ Address.Above (a ++ [j]) b
    ∧ ∀ c m, Address.Above (a ++ [j]) c → Address.Above c b → root.at? c = some m →
        m.isDirective = true

/-- Whether the node at `b` is a declaration that belongs to the type at `a`. -/
def IsMemberOf (root : Node) (a b : Address) : Prop :=
  root.IsDeclarationAt b ∧ root.IsNearestType a b ∧ root.LiesInBody a b

end Node

/-- Whether a declaration says what the node at its address says. -/
def Placed.Tells (file : Path) (root : Node) : Placed → Prop
  | .constructor a c => ∃ n owner, root.at? a = some n
      ∧ n.isBranch .constructorDeclaration = true
      ∧ c = constructorOf file owner (root.startOf {} a) n
  | .method a m => ∃ n owner, root.at? a = some n
      ∧ n.isBranch .methodDeclaration = true
      ∧ m = methodOf file owner (root.startOf {} a) n
  | .type a h _ => ∃ n k, root.at? a = some n
      ∧ n.isBranch (.typeDeclaration k) = true
      ∧ h = headerOf file k (root.startOf {} a) n

/-- What a forest with addresses has to do with the tree it was read from. -/
structure IsFaithful (file : Path) (root : Node) (forest : List Placed) : Prop where
  /-- Every declaration says what its node says. -/
  tells : ∀ x ∈ Placed.listingAll forest, x.Tells file root
  /-- Every node appears once, and the listing is in source order. -/
  increasing : (addresses (Placed.listingAll forest)).Pairwise (· < ·)
  /-- Source order is also order in the text. -/
  places : (Placed.listingAll forest).Pairwise fun x y => x.location.NotBehind y.location
  /-- At the top are the types that no other one encloses. -/
  top : ∀ a, a ∈ addresses forest ↔ root.IsOutermostType a
  /-- A type that appears has the members that belong to it. -/
  members : ∀ a h ms, .type a h ms ∈ Placed.listingAll forest →
    ∀ b, b ∈ addresses ms ↔ root.IsMemberOf a b
  /-- What appears is at the top or belongs to a type that appears. -/
  appears : ∀ b, b ∈ addresses (Placed.listingAll forest) ↔
    root.IsOutermostType b ∨ ∃ a ∈ addresses (Placed.listingAll forest), root.IsMemberOf a b
  /-- Constructors and methods name the type that holds them as their owner. -/
  owners : ∀ a h ms, .type a h ms ∈ Placed.listingAll forest →
    ∀ x ∈ ms, ∀ name ∈ x.owner?, name = h.name

/-! ## Addresses between two others -/

theorem Node.at?_append_of {root n : Node} {a : Address} (h : root.at? a = some n)
    (r : Address) : root.at? (a ++ r) = n.at? r := by
  rw [Node.at?_append, h]
  rfl

/-- What lies between a node and something below it, seen from the node. -/
theorem Address.between_iff {a c s : Address} :
    Address.Above a c ∧ Address.Above c (a ++ s) ↔
      ∃ t, c = a ++ t ∧ t ≠ [] ∧ Address.Above t s := by
  constructor
  · rintro ⟨⟨⟨t, rfl⟩, hne⟩, hc⟩
    refine ⟨t, rfl, ?_, (Address.append_above_append_iff a t s).mp hc⟩
    rintro rfl
    exact hne (List.append_nil a).symm
  · rintro ⟨t, rfl, hne, ht⟩
    refine ⟨⟨List.prefix_append a t, ?_⟩, (Address.append_above_append_iff a t s).mpr ht⟩
    intro h
    exact hne (List.self_eq_append_right.mp h)

/-! ## What is seen from the root -/

/-- Seen from the root are the types that no other one encloses. -/
theorem rowSees_root_iff {root : Node} (hroot : root.isType = false) {b : Address} :
    RowSees Node.isType Node.isNoType root.children [] 0 b ↔ root.IsOutermostType b := by
  have hvia : root.isNoType = true := by simp [Node.isNoType, hroot]
  rw [rowSees_children_iff hvia hroot]
  constructor
  · rintro ⟨r, rfl, htype, habove⟩
    refine ⟨htype, ?_⟩
    rintro s hs ⟨m, hm, hmtype⟩
    have hno := habove s m hs hm
    simp [Node.isNoType, hmtype] at hno
  · rintro ⟨htype, habove⟩
    refine ⟨b, rfl, htype, ?_⟩
    intro s m hs hm
    cases hmtype : m.isType with
    | false => simp [Node.isNoType, hmtype]
    | true => exact absurd ⟨m, hm, hmtype⟩ (habove s hs)

/-! ## What is seen from the braces of a type -/

/-- What is seen from the children of a node, whether or not the node itself can be gone
through. -/
theorem rowSees_children_iff_below {goal via : Node → Bool} {n : Node} {a b : Address} :
    RowSees goal via n.children a 0 b ↔
      ∃ r, b = a ++ r ∧ r ≠ [] ∧ (∃ m, n.at? r = some m ∧ goal m = true)
        ∧ ∀ s m, s ≠ [] → Address.Above s r → n.at? s = some m → via m = true := by
  constructor
  · rintro ⟨j, r, c, rfl, hc, ⟨m, hm, hgoal⟩, habove⟩
    refine ⟨j :: r, by rw [Nat.zero_add], List.cons_ne_nil j r,
      ⟨m, Node.at?_cons_eq_some_iff.mpr ⟨c, hc, hm⟩, hgoal⟩, ?_⟩
    intro s m' hne hs hm'
    rcases Address.above_cons_iff.mp hs with rfl | ⟨t, rfl, ht⟩
    · exact absurd rfl hne
    · obtain ⟨d, hd, hdm⟩ := Node.at?_cons_eq_some_iff.mp hm'
      cases hc.symm.trans hd
      exact habove t m' ht hdm
  · rintro ⟨r, rfl, hne, ⟨m, hm, hgoal⟩, habove⟩
    cases r with
    | nil => exact absurd rfl hne
    | cons j r =>
      obtain ⟨c, hc, hcm⟩ := Node.at?_cons_eq_some_iff.mp hm
      refine ⟨j, r, c, by rw [Nat.zero_add], hc, ⟨m, hcm, hgoal⟩, ?_⟩
      intro s m' hs hm'
      exact habove (j :: s) m' (List.cons_ne_nil j s)
        (Address.above_cons_iff.mpr (.inr ⟨s, rfl, hs⟩))
        (Node.at?_cons_eq_some_iff.mpr ⟨c, hc, hm'⟩)

theorem Node.not_isType_of_isDirective {n : Node} (h : n.isDirective = true) :
    n.isType = false := by
  cases n with
  | leaf k t => rfl
  | branch k cs => cases k <;> simp_all [isDirective, isType]

theorem Node.not_isType_of_isBranch {n : Node} (h : n.isBranch .declarationList = true) :
    n.isType = false := by
  cases n with
  | leaf k t => rfl
  | branch k cs => cases k <;> simp_all [isBranch, isType]

/-- What lies in the braces of a type has no other type around it inside that one. -/
theorem Node.isNearestType_of_liesInBody {root : Node} {a b : Address} (ha : root.IsTypeAt a)
    (h : root.LiesInBody a b) : root.IsNearestType a b := by
  obtain ⟨n, j, hn, hj, hab, hbetween⟩ := h
  obtain ⟨⟨r, rfl⟩, hne⟩ := hab
  refine ⟨ha, ⟨by rw [List.append_assoc]; exact List.prefix_append a _, by simp⟩, ?_⟩
  rintro c hac hcb ⟨m, hm, hmtype⟩
  rw [List.append_assoc, List.singleton_append] at hcb
  obtain ⟨t, rfl, ht, htr⟩ := Address.between_iff.mp ⟨hac, hcb⟩
  rcases Address.above_cons_iff.mp htr with rfl | ⟨t, rfl, ht'⟩
  · exact ht rfl
  · have hm' : root.at? (a ++ [j] ++ t) = some m := by rwa [List.append_assoc]
    cases t with
    | nil =>
      -- the braces themselves
      obtain ⟨hlt, hbody, -⟩ := List.findIdx?_eq_some_iff_getElem.mp hj
      rw [List.append_nil, at?_append_of hn, at?_cons, List.getElem?_eq_getElem hlt] at hm'
      cases hm'
      rw [not_isType_of_isBranch hbody] at hmtype
      cases hmtype
    | cons i t =>
      obtain ⟨hjc, hcr⟩ := (Address.between_iff (a := a ++ [j])).mpr
        ⟨i :: t, rfl, List.cons_ne_nil i t, ht'⟩
      rw [not_isType_of_isDirective (hbetween _ m hjc hcr hm')] at hmtype
      cases hmtype

/-- Seen from the braces of a type are the declarations that belong to it. -/
theorem bodySees_iff_isMemberOf {root : Node} {a : Address} {k : TypeKind} {cs : List Node}
    (ha : root.at? a = some (.branch (.typeDeclaration k) cs)) {b : Address} :
    BodySees cs a 0 b ↔ root.IsMemberOf a b := by
  have hat : ∀ {j body}, cs[j]? = some body → root.at? (a ++ [j]) = some body := by
    intro j body hbody
    rw [Node.at?_append_of ha, Node.at?_cons]
    simp [hbody]
  constructor
  · rintro ⟨j, body, hj, hbody, hrow⟩
    rw [Nat.zero_add] at hrow
    obtain ⟨r, rfl, hne, ⟨m, hm, hdecl⟩, habove⟩ := rowSees_children_iff_below.mp hrow
    have hlies : root.LiesInBody a (a ++ [j] ++ r) := by
      refine ⟨_, j, ha, hj, ⟨List.prefix_append _ _, by simpa using hne⟩, ?_⟩
      intro c m' hac hcb hm'
      obtain ⟨t, rfl, ht, htr⟩ := Address.between_iff.mp ⟨hac, hcb⟩
      rw [Node.at?_append_of (hat hbody)] at hm'
      exact habove t m' ht htr hm'
    exact ⟨⟨m, by rwa [Node.at?_append_of (hat hbody)], hdecl⟩,
      Node.isNearestType_of_liesInBody ⟨_, ha, rfl⟩ hlies, hlies⟩
  · rintro ⟨⟨m, hm, hdecl⟩, -, n, j, hn, hj, ⟨⟨r, rfl⟩, hne⟩, hbetween⟩
    cases ha.symm.trans hn
    obtain ⟨hlt, -⟩ := List.findIdx?_eq_some_iff_getElem.mp hj
    have hbody := List.getElem?_eq_getElem hlt
    refine ⟨j, _, hj, hbody, ?_⟩
    rw [Nat.zero_add]
    refine rowSees_children_iff_below.mpr ⟨r, rfl, ?_, ⟨m, ?_, hdecl⟩, ?_⟩
    · rintro rfl
      exact hne (List.append_nil _).symm
    · rwa [Node.at?_append_of (hat hbody)] at hm
    · intro s m' hs hsr hm'
      obtain ⟨hac, hcb⟩ := Address.between_iff.mpr ⟨s, rfl, hs, hsr⟩
      exact hbetween _ m' hac hcb (by rwa [Node.at?_append_of (hat hbody)])

/-! ## What a listing holds -/

namespace Placed

mutual

/-- What is listed with a declaration is the declaration itself or a member of a type
listed with it. -/
theorem mem_listing {y : Placed} (x : Placed) (h : y ∈ x.listing) :
    y = x ∨ ∃ a header ms, .type a header ms ∈ x.listing ∧ y ∈ ms := by
  match x with
  | .constructor a c => exact .inl (List.mem_singleton.mp h)
  | .method a m => exact .inl (List.mem_singleton.mp h)
  | .type a header ms =>
    rw [listing] at h ⊢
    rcases List.mem_cons.mp h with rfl | h
    · exact .inl rfl
    · right
      rcases mem_listingAll ms h with h | ⟨b, g, ns, hns, hy⟩
      · exact ⟨a, header, ms, List.mem_cons_self, h⟩
      · exact ⟨b, g, ns, List.mem_cons_of_mem _ hns, hy⟩

/-- What is listed with a row is in the row or a member of a type listed with it. -/
theorem mem_listingAll {y : Placed} (xs : List Placed) (h : y ∈ listingAll xs) :
    y ∈ xs ∨ ∃ a header ms, .type a header ms ∈ listingAll xs ∧ y ∈ ms := by
  match xs with
  | [] => cases h
  | x :: xs =>
    rw [listingAll] at h ⊢
    rcases List.mem_append.mp h with h | h
    · rcases mem_listing x h with rfl | ⟨a, header, ms, hms, hy⟩
      · exact .inl List.mem_cons_self
      · exact .inr ⟨a, header, ms, List.mem_append_left _ hms, hy⟩
    · rcases mem_listingAll xs h with h | ⟨a, header, ms, hms, hy⟩
      · exact .inl (List.mem_cons_of_mem x h)
      · exact .inr ⟨a, header, ms, List.mem_append_right _ hms, hy⟩

end

mutual

theorem mem_listing_of_mem_type {y : Placed} {a : Address} {header : TypeHeader}
    {ms : List Placed} (x : Placed) (h : .type a header ms ∈ x.listing) (hy : y ∈ ms) :
    y ∈ x.listing := by
  match x with
  | .constructor b c => cases List.mem_singleton.mp h
  | .method b m => cases List.mem_singleton.mp h
  | .type b g ns =>
    rw [listing] at h ⊢
    rcases List.mem_cons.mp h with h | h
    · cases h
      exact List.mem_cons_of_mem _ (mem_listingAll_of_mem hy)
    · exact List.mem_cons_of_mem _ (mem_listingAll_of_mem_type ns h hy)

/-- The members of a type that is listed are listed. -/
theorem mem_listingAll_of_mem_type {y : Placed} {a : Address} {header : TypeHeader}
    {ms : List Placed} (xs : List Placed) (h : .type a header ms ∈ listingAll xs) (hy : y ∈ ms) :
    y ∈ listingAll xs := by
  match xs with
  | [] => cases h
  | x :: xs =>
    rw [listingAll] at h ⊢
    rcases List.mem_append.mp h with h | h
    · exact List.mem_append_left _ (mem_listing_of_mem_type x h hy)
    · exact List.mem_append_right _ (mem_listingAll_of_mem_type xs h hy)

end

/-- Whatever was read from a type is a type. -/
theorem IsRead.eq_type {file : Path} {root : Node} {x : Placed} (h : x.IsRead file root)
    (htype : root.IsTypeAt x.address) : ∃ header ms, x = .type x.address header ms := by
  obtain ⟨n, hn, hntype⟩ := htype
  cases x with
  | constructor a c =>
    obtain ⟨p, cs, owner, hs, -⟩ := h
    cases hs.found.symm.trans hn
    cases hntype
  | method a m =>
    obtain ⟨p, cs, owner, hs, -⟩ := h
    cases hs.found.symm.trans hn
    cases hntype
  | type a header ms => exact ⟨header, ms, rfl⟩

theorem IsRead.tells {file : Path} {root : Node} {x : Placed} (h : x.IsRead file root) :
    x.Tells file root := by
  cases x with
  | constructor a c =>
    obtain ⟨p, cs, owner, ⟨hfound, rfl⟩, rfl⟩ := h
    exact ⟨_, owner, hfound, rfl, rfl⟩
  | method a m =>
    obtain ⟨p, cs, owner, ⟨hfound, rfl⟩, rfl⟩ := h
    exact ⟨_, owner, hfound, rfl, rfl⟩
  | type a header ms =>
    obtain ⟨p, k, cs, ⟨hfound, rfl⟩, rfl, -⟩ := h
    exact ⟨_, k, hfound, by simp [Node.isBranch], rfl⟩

end Placed

/-! ## The forest of a tree -/

section Forest

variable {file : Path} {root : Node}

variable (file) in
theorem mem_addresses_forestOf_iff (hroot : root.isType = false) (b : Address) :
    b ∈ addresses (forestOf file root) ↔ root.IsOutermostType b := by
  rw [forestOf, (mem_addresses_placeTypes_iff file).2, rowSees_root_iff hroot]

/-- A type of the forest has the members that belong to it, and they name it. -/
theorem members_of_mem_forestOf {a : Address} {header : TypeHeader} {ms : List Placed}
    (h : .type a header ms ∈ Placed.listingAll (forestOf file root)) :
    (∀ b, b ∈ addresses ms ↔ root.IsMemberOf a b)
      ∧ ∀ x ∈ ms, ∀ name ∈ x.owner?, name = header.name := by
  obtain ⟨p, k, cs, hs, rfl, rfl⟩ := isRead_of_mem_forestOf h
  constructor
  · intro b
    rw [(mem_addresses_placeMembers_iff file).2.2, bodySees_iff_isMemberOf hs.found]
  · exact ((isReadWith_placeMembers file root).2.2 cs _ p a 0 hs.children).owners

/-- What the forest lists is at its top, or belongs to a type that it lists. -/
theorem mem_addresses_listing_forestOf_iff (hroot : root.isType = false) (b : Address) :
    b ∈ addresses (Placed.listingAll (forestOf file root)) ↔
      root.IsOutermostType b
        ∨ ∃ a ∈ addresses (Placed.listingAll (forestOf file root)), root.IsMemberOf a b := by
  constructor
  · intro hb
    obtain ⟨y, hy, rfl⟩ := List.mem_map.mp hb
    rcases Placed.mem_listingAll _ hy with htop | ⟨a, header, ms, hms, hmem⟩
    · exact .inl ((mem_addresses_forestOf_iff file hroot _).mp (List.mem_map_of_mem htop))
    · exact .inr ⟨a, List.mem_map_of_mem hms,
        ((members_of_mem_forestOf hms).1 _).mp (List.mem_map_of_mem hmem)⟩
  · rintro (htop | ⟨a, ha, hmember⟩)
    · rw [← mem_addresses_forestOf_iff file hroot] at htop
      obtain ⟨x, hx, rfl⟩ := List.mem_map.mp htop
      exact List.mem_map_of_mem (Placed.mem_listingAll_of_mem hx)
    · obtain ⟨x, hx, rfl⟩ := List.mem_map.mp ha
      obtain ⟨header, ms, hxtype⟩ := (isRead_of_mem_forestOf hx).eq_type hmember.2.1.1
      rw [hxtype] at hx
      obtain ⟨y, hy, rfl⟩ := List.mem_map.mp (((members_of_mem_forestOf hx).1 b).mpr hmember)
      exact List.mem_map_of_mem (Placed.mem_listingAll_of_mem_type _ hx hy)

/-- **Extraction is faithful.**  The extracted types are, but for the addresses, a
forest in which every declaration appears that should, once, in its place. -/
theorem exists_isFaithful (file : Path) {root : Node} (hroot : root.isType = false) :
    ∃ forest : List Placed,
      forest.map Placed.member = (SourceUnit.ofTree file root).types.map TypeDeclaration.toMember
        ∧ IsFaithful file root forest := by
  refine ⟨forestOf file root, ?_, ?_⟩
  · rw [← Placed.memberAll_eq_map, memberAll_forestOf]
  · exact {
      tells := fun x hx => (isRead_of_mem_forestOf hx).tells
      increasing := increasing_forestOf file root
      places := places_forestOf file root
      top := mem_addresses_forestOf_iff file hroot
      members := fun a header ms h => (members_of_mem_forestOf h).1
      appears := mem_addresses_listing_forestOf_iff hroot
      owners := fun a header ms h => (members_of_mem_forestOf h).2 }

/-- A namespace around a class with a constructor behind a directive and a record in
the braces. -/
theorem exists_isFaithful_nested :
    let root : Node := .branch .unit [.branch .namespaceDeclaration [.branch .declarationList
      [.branch (.typeDeclaration .classType) [.leaf .name "Order", .branch .declarationList
        [.branch .conditional [.branch .constructorDeclaration [.leaf .name "Order"]],
          .branch (.typeDeclaration .recordType) [.leaf .name "Line"]]]]]]
    root.isType = false ∧
      ∃ forest : List Placed,
        forest.map Placed.member =
            (SourceUnit.ofTree "Order.cs" root).types.map TypeDeclaration.toMember
          ∧ IsFaithful "Order.cs" root forest :=
  ⟨rfl, exists_isFaithful "Order.cs" rfl⟩

end Forest

end Source
end AggregateAudit
