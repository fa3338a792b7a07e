import AggregateAudit.Source.Tree

/-!
# Addresses in a syntax tree

A node is known by its *address*: which child to take, from the root down.  Two nodes
of a tree may be equal in everything and still be two nodes, so what is said about
single nodes --- that each appears once, that one lies inside another --- is said about
addresses.  An address lies above another one if it is a proper beginning of it, and
source order is the lexicographic order of addresses: a node comes before what is
inside it, and siblings come one after the other.

Trees do not record where they stand.  `Node.startOf` computes where the node at an
address starts, and `startOf_reaches` is the fact that makes this a notion of place at
all: walking on in source order never leads back.  Places are compared by `Reaches`,
which says that some text leads from one to the other, and order of offsets, lines and
columns follows from that alone.
-/

namespace AggregateAudit
namespace Source

/-! ## Places that follow each other -/

namespace Position

/-- Whether some text leads from the first place to the second one. -/
def Reaches (p q : Position) : Prop := ∃ t : List Char, q = t.foldl step p

theorem Reaches.refl (p : Position) : p.Reaches p := ⟨[], rfl⟩

theorem Reaches.trans {p q r : Position} (hpq : p.Reaches q) (hqr : q.Reaches r) :
    p.Reaches r := by
  obtain ⟨s, rfl⟩ := hpq
  obtain ⟨t, rfl⟩ := hqr
  exact ⟨s ++ t, List.foldl_append.symm⟩

mutual

theorem reaches_past (p : Position) (n : Node) : p.Reaches (p.past n) := by
  match n with
  | .leaf _ t => exact ⟨t.toList, rfl⟩
  | .branch _ cs => exact reaches_pastAll p cs

theorem reaches_pastAll (p : Position) (cs : List Node) : p.Reaches (p.pastAll cs) := by
  match cs with
  | [] => exact .refl p
  | c :: cs => exact (reaches_past p c).trans (reaches_pastAll (p.past c) cs)

end

theorem pastAll_append (p : Position) (front cs : List Node) :
    p.pastAll (front ++ cs) = (p.pastAll front).pastAll cs := by
  induction front generalizing p with
  | nil => rfl
  | cons c front ih => exact ih (p.past c)

/-- Further on in a text the offset does not decrease, and neither does the line nor,
in one line, the column. -/
theorem Reaches.le {p q : Position} (h : p.Reaches q) :
    p.offset ≤ q.offset ∧ (p.line < q.line ∨ p.line = q.line ∧ p.column ≤ q.column) := by
  obtain ⟨t, rfl⟩ := h
  induction t generalizing p with
  | nil => simp
  | cons c t ih =>
    have hstep : p.offset ≤ (p.step c).offset
        ∧ (p.line < (p.step c).line ∨ p.line = (p.step c).line ∧ p.column ≤ (p.step c).column) := by
      rw [step]
      split
      · exact ⟨Nat.le_succ _, .inl (Nat.lt_succ_self _)⟩
      · exact ⟨Nat.le_add_right _ _, .inr ⟨rfl, Nat.le_add_right _ _⟩⟩
    have hrest := ih (p := p.step c)
    rw [List.foldl_cons]
    omega

end Position

/-! ## Addresses -/

/-- The way from the root of a tree to a node. -/
abbrev Address := List Nat

namespace Address

/-- Whether the first address is that of a node around the second one. -/
def Above (a b : Address) : Prop := a <+: b ∧ a ≠ b

theorem not_above_nil (a : Address) : ¬ a.Above [] :=
  fun h => h.2 (List.prefix_nil.mp h.1)

theorem nil_above_cons (i : Nat) (a : Address) : Above [] (i :: a) :=
  ⟨List.nil_prefix, (List.cons_ne_nil i a).symm⟩

/-- Above an address that goes down are the root and what is above the rest of it. -/
theorem above_cons_iff {c : Address} {i : Nat} {a : Address} :
    c.Above (i :: a) ↔ c = [] ∨ ∃ b, c = i :: b ∧ Above b a := by
  constructor
  · rintro ⟨hbegin, hne⟩
    rcases List.prefix_cons_iff.mp hbegin with rfl | ⟨b, rfl, hb⟩
    · exact .inl rfl
    · exact .inr ⟨b, rfl, hb, fun h => hne (by rw [h])⟩
  · rintro (rfl | ⟨b, rfl, hb⟩)
    · exact nil_above_cons i a
    · exact ⟨List.cons_prefix_cons.mpr ⟨rfl, hb.1⟩, fun h => hb.2 (List.cons.inj h).2⟩

/-- A common beginning makes no difference. -/
theorem append_above_append_iff (base a b : Address) :
    Above (base ++ a) (base ++ b) ↔ a.Above b := by
  rw [Above, Above, List.prefix_append_right_inj, ne_eq, List.append_cancel_left_eq]

/-- What goes into an earlier child comes before what goes into a later one. -/
theorem lt_of_lt_child {base a b : Address} {i j : Nat} (hij : i < j)
    (ha : base ++ [i] <+: a) (hb : base ++ [j] <+: b) : a < b := by
  obtain ⟨s, rfl⟩ := ha
  obtain ⟨t, rfl⟩ := hb
  rw [List.append_assoc, List.append_assoc]
  exact List.append_left_lt (List.cons_lt_cons_iff.mpr (.inl hij))

/-- What is above an address comes before it. -/
theorem Above.lt {a b : Address} (h : a.Above b) : a < b := by
  obtain ⟨⟨s, rfl⟩, hne⟩ := h
  cases s with
  | nil => exact absurd (List.append_nil a).symm hne
  | cons i s =>
    have h : a ++ [] < a ++ i :: s := List.append_left_lt (List.nil_lt_cons i s)
    rwa [List.append_nil] at h

end Address

/-! ## Nodes at addresses -/

namespace Node

/-- The node at an address. -/
def at? (n : Node) : Address → Option Node
  | [] => some n
  | i :: a => n.children[i]?.bind fun c => c.at? a

@[simp] theorem at?_nil (n : Node) : n.at? [] = some n := rfl

theorem at?_cons (n : Node) (i : Nat) (a : Address) :
    n.at? (i :: a) = n.children[i]?.bind fun c => c.at? a := rfl

theorem at?_cons_eq_some_iff {n m : Node} {i : Nat} {a : Address} :
    n.at? (i :: a) = some m ↔ ∃ c, n.children[i]? = some c ∧ c.at? a = some m := by
  rw [at?_cons, Option.bind_eq_some_iff]

/-- Going down in two stretches. -/
theorem at?_append (n : Node) (a b : Address) :
    n.at? (a ++ b) = (n.at? a).bind fun m => m.at? b := by
  induction a generalizing n with
  | nil => rfl
  | cons i a ih =>
    rw [List.cons_append, at?_cons, at?_cons]
    cases n.children[i]? with
    | none => rfl
    | some c => exact ih c

/-- Where the node at an address starts, if the tree starts at `p`. -/
def startOf (p : Position) (n : Node) : Address → Position
  | [] => p
  | i :: a =>
    match n.children[i]? with
    | none => p
    | some c => c.startOf (p.pastAll (n.children.take i)) a

@[simp] theorem startOf_nil (p : Position) (n : Node) : n.startOf p [] = p := rfl

theorem startOf_cons {n c : Node} {i : Nat} (h : n.children[i]? = some c) (p : Position)
    (a : Address) : n.startOf p (i :: a) = c.startOf (p.pastAll (n.children.take i)) a := by
  rw [startOf, h]

theorem startOf_append {n m : Node} {a : Address} (h : n.at? a = some m) (p : Position)
    (b : Address) : n.startOf p (a ++ b) = m.startOf (n.startOf p a) b := by
  induction a generalizing n p with
  | nil =>
    cases h
    rfl
  | cons i a ih =>
    obtain ⟨c, hc, hm⟩ := at?_cons_eq_some_iff.mp h
    rw [List.cons_append, startOf_cons hc, startOf_cons hc, ih hm]

end Node

/-! ## Source order -/

/-- A row with a member at an index is what stands before it, itself, and the rest. -/
theorem eq_take_cons_drop {α : Type} {l : List α} {i : Nat} {c : α} (h : l[i]? = some c) :
    l = l.take i ++ c :: l.drop (i + 1) := by
  obtain ⟨hi, rfl⟩ := List.getElem?_eq_some_iff.mp h
  rw [← List.drop_eq_getElem_cons hi, List.take_append_drop]

namespace Node

/-- The end of a child is not beyond the start of a later one. -/
theorem past_child_reaches {cs : List Node} {i j : Nat} {c : Node} (hc : cs[i]? = some c)
    (hij : i < j) (p : Position) :
    ((p.pastAll (cs.take i)).past c).Reaches (p.pastAll (cs.take j)) := by
  have hi : (cs.take j)[i]? = some c := by rwa [List.getElem?_take_of_lt hij]
  have hsplit := eq_take_cons_drop hi
  rw [List.take_take, Nat.min_eq_left (Nat.le_of_lt hij)] at hsplit
  rw [hsplit, Position.pastAll_append]
  exact Position.reaches_pastAll _ _

/-- The end of a node is the end of its children, if it has any. -/
theorem past_eq_pastAll_children {n c : Node} {i : Nat} (h : n.children[i]? = some c)
    (p : Position) : p.past n = p.pastAll (n.children.take n.children.length) := by
  rw [List.take_length]
  cases n with
  | leaf k t => simp at h
  | branch k cs => rfl

/-- A node starts at or behind the start of the tree. -/
theorem reaches_startOf (p : Position) (n : Node) (a : Address) : p.Reaches (n.startOf p a) := by
  induction a generalizing n p with
  | nil => exact .refl p
  | cons i a ih =>
    cases hc : n.children[i]? with
    | none => simp [startOf, hc, Position.Reaches.refl]
    | some c =>
      rw [startOf_cons hc]
      exact (Position.reaches_pastAll p _).trans (ih _ c)

/-- A node ends at or before the end of the tree. -/
theorem past_startOf_reaches {n m : Node} {a : Address} (h : n.at? a = some m) (p : Position) :
    ((n.startOf p a).past m).Reaches (p.past n) := by
  induction a generalizing n p with
  | nil =>
    cases h
    exact .refl _
  | cons i a ih =>
    obtain ⟨c, hc, hm⟩ := at?_cons_eq_some_iff.mp h
    obtain ⟨hi, -⟩ := List.getElem?_eq_some_iff.mp hc
    rw [startOf_cons hc, past_eq_pastAll_children hc]
    exact (ih hm _).trans (past_child_reaches hc hi p)

/-- **Source order never leads back**: of two nodes the one with the smaller address
starts first. -/
theorem startOf_reaches {n m₁ m₂ : Node} {a b : Address} (hab : a < b) (ha : n.at? a = some m₁)
    (hb : n.at? b = some m₂) (p : Position) : (n.startOf p a).Reaches (n.startOf p b) := by
  induction a generalizing n b p with
  | nil => exact reaches_startOf p n b
  | cons i a ih =>
    cases b with
    | nil => exact absurd hab (List.not_lt_nil _)
    | cons j b =>
      obtain ⟨c, hc, hca⟩ := at?_cons_eq_some_iff.mp ha
      obtain ⟨d, hd, hdb⟩ := at?_cons_eq_some_iff.mp hb
      rw [startOf_cons hc, startOf_cons hd]
      rcases List.cons_lt_cons_iff.mp hab with hij | ⟨rfl, hrest⟩
      · -- different children: the first ends before the second starts
        have hinside := (Position.reaches_past _ m₁).trans
          (past_startOf_reaches hca (p.pastAll (n.children.take i)))
        exact (hinside.trans (past_child_reaches hc hij p)).trans (reaches_startOf _ d b)
      · cases hc.symm.trans hd
        exact ih hrest hca hdb _

end Node
end Source
end AggregateAudit
