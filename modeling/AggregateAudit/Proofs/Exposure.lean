import AggregateAudit.Proofs.Placement

/-!
# What a walk sees

Both walks through a tree are of one kind: they go down through some nodes, and take
note of some others.  From a node, then, they *see* the addresses of nodes worth noting
above which everything can be gone through.  That is said with addresses alone and
knows nothing of a walk; going down one step gives it the shape of the recursion
(`Node.sees_nil_iff`, `Node.sees_cons_iff`), and with that both walks are shown to find
exactly what can be seen: the one through members goes through directives and notes
declarations, the one that looks for types goes through everything but types and notes
types.
-/

namespace AggregateAudit
namespace Source

/-! ## Seeing -/

namespace Node

variable {goal via : Node → Bool}

/-- Whether the node at an address satisfies `goal` and everything above it satisfies
`via`. -/
def Sees (goal via : Node → Bool) (n : Node) (r : Address) : Prop :=
  (∃ m, n.at? r = some m ∧ goal m = true)
    ∧ ∀ s m, Address.Above s r → n.at? s = some m → via m = true

theorem sees_nil_iff {n : Node} : n.Sees goal via [] ↔ goal n = true := by
  constructor
  · rintro ⟨⟨m, hm, hgoal⟩, -⟩
    cases hm
    exact hgoal
  · exact fun h => ⟨⟨n, rfl, h⟩, fun s m hs => absurd hs (Address.not_above_nil s)⟩

/-- Through a node its children see, if it can be gone through. -/
theorem sees_cons_iff {n : Node} {i : Nat} {r : Address} :
    n.Sees goal via (i :: r) ↔
      via n = true ∧ ∃ c, n.children[i]? = some c ∧ c.Sees goal via r := by
  constructor
  · rintro ⟨⟨m, hm, hgoal⟩, habove⟩
    obtain ⟨c, hc, hcm⟩ := at?_cons_eq_some_iff.mp hm
    refine ⟨habove [] n (Address.nil_above_cons i r) rfl, c, hc, ⟨m, hcm, hgoal⟩, ?_⟩
    intro s m' hs hm'
    exact habove (i :: s) m' (Address.above_cons_iff.mpr (.inr ⟨s, rfl, hs⟩))
      (at?_cons_eq_some_iff.mpr ⟨c, hc, hm'⟩)
  · rintro ⟨hvia, c, hc, ⟨m, hm, hgoal⟩, habove⟩
    refine ⟨⟨m, at?_cons_eq_some_iff.mpr ⟨c, hc, hm⟩, hgoal⟩, ?_⟩
    intro s m' hs hm'
    rcases Address.above_cons_iff.mp hs with rfl | ⟨t, rfl, ht⟩
    · cases hm'
      exact hvia
    · obtain ⟨d, hd, hdm⟩ := at?_cons_eq_some_iff.mp hm'
      cases hc.symm.trans hd
      exact habove t m' ht hdm

/-- From a node that cannot be gone through at most itself is seen. -/
theorem sees_iff_of_not_via {n : Node} (h : via n = false) {r : Address} :
    n.Sees goal via r ↔ r = [] ∧ goal n = true := by
  cases r with
  | nil => simp [sees_nil_iff]
  | cons i r => simp [sees_cons_iff, h]

end Node

/-- What is seen from a row of children of the node at `a`, counted from `i`. -/
def RowSees (goal via : Node → Bool) (cs : List Node) (a : Address) (i : Nat) (b : Address) :
    Prop :=
  ∃ j r c, b = a ++ (i + j) :: r ∧ cs[j]? = some c ∧ c.Sees goal via r

section Rows

variable {goal via : Node → Bool} {a b : Address} {i : Nat}

theorem not_rowSees_nil : ¬ RowSees goal via [] a i b := by
  rintro ⟨j, r, c, -, hc, -⟩
  cases hc

theorem rowSees_cons_iff {c : Node} {cs : List Node} :
    RowSees goal via (c :: cs) a i b ↔
      (∃ r, b = a ++ [i] ++ r ∧ c.Sees goal via r) ∨ RowSees goal via cs a (i + 1) b := by
  constructor
  · rintro ⟨j, r, d, rfl, hd, hr⟩
    cases j with
    | zero =>
      cases hd
      exact .inl ⟨r, by simp, hr⟩
    | succ j => exact .inr ⟨j, r, d, by rw [Nat.add_right_comm, Nat.add_assoc], hd, hr⟩
  · rintro (⟨r, rfl, hr⟩ | ⟨j, r, d, rfl, hd, hr⟩)
    · exact ⟨0, r, c, by simp, rfl, hr⟩
    · exact ⟨j + 1, r, d, by rw [Nat.add_right_comm, Nat.add_assoc], hd, hr⟩

/-- A node that is gone through sees what its children see. -/
theorem rowSees_children_iff {n : Node} (hvia : via n = true) (hgoal : goal n = false) :
    RowSees goal via n.children a 0 b ↔ ∃ r, b = a ++ r ∧ n.Sees goal via r := by
  constructor
  · rintro ⟨j, r, c, rfl, hc, hr⟩
    exact ⟨j :: r, by rw [Nat.zero_add], Node.sees_cons_iff.mpr ⟨hvia, c, hc, hr⟩⟩
  · rintro ⟨r, rfl, hr⟩
    cases r with
    | nil => exact absurd (Node.sees_nil_iff.mp hr) (by simp [hgoal])
    | cons j r =>
      obtain ⟨-, c, hc, hcr⟩ := Node.sees_cons_iff.mp hr
      exact ⟨j, r, c, by rw [Nat.zero_add], hc, hcr⟩

end Rows

/-! ## Members -/

/-- What is seen from the first pair of braces in a row of children, counted from `i`. -/
def BodySees (cs : List Node) (a : Address) (i : Nat) (b : Address) : Prop :=
  ∃ j body, cs.findIdx? (·.isBranch .declarationList) = some j ∧ cs[j]? = some body
    ∧ RowSees Node.isDeclaration Node.isDirective body.children (a ++ [i + j]) 0 b

theorem bodySees_braces_iff {inside cs : List Node} {a : Address} {i : Nat} {b : Address} :
    BodySees (.branch .declarationList inside :: cs) a i b ↔
      RowSees Node.isDeclaration Node.isDirective inside (a ++ [i]) 0 b := by
  have hidx : (Node.branch .declarationList inside :: cs).findIdx?
      (·.isBranch .declarationList) = some 0 := by simp [List.findIdx?_cons, Node.isBranch]
  simp [BodySees, hidx]

theorem bodySees_skip_iff {c : Node} (hc : c.isBranch .declarationList = false)
    {cs : List Node} {a : Address} {i : Nat} {b : Address} :
    BodySees (c :: cs) a i b ↔ BodySees cs a (i + 1) b := by
  have hidx : (c :: cs).findIdx? (·.isBranch .declarationList) =
      (cs.findIdx? (·.isBranch .declarationList)).map (· + 1) := by
    rw [List.findIdx?_cons, hc]
    rfl
  simp only [BodySees, hidx, Option.map_eq_some_iff]
  constructor
  · rintro ⟨_, body, ⟨j, hj, rfl⟩, hbody, hrow⟩
    exact ⟨j, body, hj, hbody, by rwa [Nat.add_right_comm, Nat.add_assoc]⟩
  · rintro ⟨j, body, hj, hbody, hrow⟩
    exact ⟨j + 1, body, ⟨j, hj, rfl⟩, hbody, by rwa [Nat.add_right_comm, Nat.add_assoc] at hrow⟩

theorem Node.not_isDeclaration_of_isDirective {n : Node} (h : n.isDirective = true) :
    n.isDeclaration = false := by
  cases n with
  | leaf k t => rfl
  | branch k cs => cases k <;> simp_all [isDirective, isDeclaration, isType]

/-- A declaration is seen by itself alone. -/
theorem Node.sees_of_isDeclaration {n : Node} (h : n.isDeclaration = true) {a b : Address} :
    (∃ r, b = a ++ r ∧ n.Sees isDeclaration isDirective r) ↔ b = a := by
  have hd : n.isDirective = false := by
    cases hd : n.isDirective with
    | false => rfl
    | true => simp [not_isDeclaration_of_isDirective hd] at h
  simp [sees_iff_of_not_via hd, h]

/-- **The walk through members finds the declarations that are seen through directives,
and nothing else.** -/
theorem mem_addresses_placeMembers_iff (file : Path) :
    (∀ n, ∀ owner p a b, b ∈ addresses (placeMembers file owner p a n) ↔
        ∃ r, b = a ++ r ∧ n.Sees Node.isDeclaration Node.isDirective r)
      ∧ (∀ cs, ∀ owner p a i b, b ∈ addresses (placeMembersAll file owner p a i cs) ↔
        RowSees Node.isDeclaration Node.isDirective cs a i b)
      ∧ ∀ cs, ∀ owner p a i b, b ∈ addresses (placeBody file owner p a i cs) ↔
        BodySees cs a i b := by
  apply Node.walk_induction
  case silent =>
    intro n hn hd owner p a b
    rw [(placeMembers_of_silent file owner p a hn hd).1]
    simp [addresses, Node.sees_iff_of_not_via hd, hn]
  case constructor =>
    intro cs owner p a b
    rw [placeMembers, Node.sees_of_isDeclaration rfl]
    exact List.mem_singleton
  case method =>
    intro cs owner p a b
    rw [placeMembers, Node.sees_of_isDeclaration rfl]
    exact List.mem_singleton
  case type =>
    intro k cs _ owner p a b
    rw [placeMembers, Node.sees_of_isDeclaration rfl]
    exact List.mem_singleton
  case directive =>
    intro k cs hk ih owner p a b
    rw [(placeMembers_of_directive file owner p a hk).1, ih]
    exact rowSees_children_iff hk (Node.not_isDeclaration_of_isDirective hk)
  case nil => simp [placeMembersAll, addresses, not_rowSees_nil]
  case cons =>
    intro c cs ihc ihcs owner p a i b
    rw [placeMembersAll, addresses_append, List.mem_append, ihc, ihcs, rowSees_cons_iff]
  case noBody => simp [placeBody, addresses, BodySees]
  case body =>
    intro inside cs ih owner p a i b
    rw [placeBody, ih, bodySees_braces_iff]
  case skip =>
    intro c cs hc ih owner p a i b
    rw [(placeBody_of_ne file owner p a i hc cs).1, ih, bodySees_skip_iff hc]

/-! ## Types -/

/-- Whether a node is not a type, so that types are looked for inside it. -/
def Node.isNoType (n : Node) : Bool := !n.isType

/-- **The walk that looks for types finds the types around which there is no other, and
nothing else.** -/
theorem mem_addresses_placeTypes_iff (file : Path) :
    (∀ n, ∀ p a b, b ∈ addresses (placeTypes file p a n) ↔
        ∃ r, b = a ++ r ∧ n.Sees Node.isType Node.isNoType r)
      ∧ ∀ cs, ∀ p a i b, b ∈ addresses (placeTypesAll file p a i cs) ↔
        RowSees Node.isType Node.isNoType cs a i b := by
  apply Node.type_induction
  case leaf =>
    intro k t p a b
    rw [← rowSees_children_iff (n := .leaf k t) rfl rfl]
    simp [placeTypes, addresses, not_rowSees_nil]
  case type =>
    intro k cs p a b
    have hvia : (Node.branch (.typeDeclaration k) cs).isNoType = false := rfl
    simp [placeTypes, addresses, Placed.address, Node.sees_iff_of_not_via hvia, Node.isType]
  case other =>
    intro k cs hk ih p a b
    rw [(placeTypes_of_not_type file p a hk).1, ih]
    exact rowSees_children_iff (n := .branch k cs) (by simp [Node.isNoType, hk]) hk
  case nil => simp [placeTypesAll, addresses, not_rowSees_nil]
  case cons =>
    intro c cs ihc ihcs p a i b
    rw [placeTypesAll, addresses_append, List.mem_append, ihc, ihcs, rowSees_cons_iff]

end Source
end AggregateAudit
