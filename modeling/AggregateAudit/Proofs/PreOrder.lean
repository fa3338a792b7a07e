import AggregateAudit.Rule

/-!
# Declarations in pre-order

An engine walks through a forest of types by recursion and asks its rules on the way.
This file takes the two apart.  The walk alone is a list: the constructors and methods
of a forest in the order in which they are met, nested types expanded in place, each
method together with the type that declares it.  Asking is a function on that list,
one declaration at a time, and `Engine.visitAll_eq_flatMap` says that an engine does
nothing else.

What is said about engines is then said about single declarations and about the list,
which no engine has a part in.  `method_mem_listing_iff` is the fact that fixes the
owners: a method is listed with exactly those types that have it as a member
themselves, not with a type around them or inside them.
-/

namespace AggregateAudit

/-! ## Types inside types -/

/-- The types that stand in a row of members, at any depth. -/
inductive Member.Holds : List Member → TypeDeclaration → Prop where
  /-- A type of the row. -/
  | here {row : List Member} {header : TypeHeader} {members : List Member}
      (h : Member.type header members ∈ row) : Holds row ⟨header, members⟩
  /-- A type inside a type of the row. -/
  | deeper {row : List Member} {header : TypeHeader} {members : List Member}
      {t : TypeDeclaration} (h : Member.type header members ∈ row) (ht : Holds members t) :
      Holds row t

namespace Member

theorem not_holds_nil (t : TypeDeclaration) : ¬ Holds [] t := by
  intro h
  cases h with
  | here h => cases h
  | deeper h => cases h

/-- A row holds what its first member holds and what the others hold. -/
theorem holds_cons_iff (m : Member) (row : List Member) (t : TypeDeclaration) :
    Holds (m :: row) t ↔ Holds [m] t ∨ Holds row t := by
  constructor
  · rintro (h | ⟨h, ht⟩)
    · rcases List.mem_cons.mp h with rfl | h
      · exact .inl (.here List.mem_cons_self)
      · exact .inr (.here h)
    · rcases List.mem_cons.mp h with rfl | h
      · exact .inl (.deeper List.mem_cons_self ht)
      · exact .inr (.deeper h ht)
  · rintro ((h | ⟨h, ht⟩) | (h | ⟨h, ht⟩))
    · exact .here (List.mem_cons.mpr (.inl (List.mem_singleton.mp h)))
    · exact .deeper (List.mem_cons.mpr (.inl (List.mem_singleton.mp h))) ht
    · exact .here (List.mem_cons_of_mem _ h)
    · exact .deeper (List.mem_cons_of_mem _ h) ht

/-- A type holds itself, as a member, and what its members hold. -/
theorem holds_type_iff {header : TypeHeader} {members : List Member} {t : TypeDeclaration} :
    Holds [.type header members] t ↔ t = ⟨header, members⟩ ∨ Holds members t := by
  constructor
  · rintro (h | ⟨h, ht⟩)
    · cases List.mem_singleton.mp h
      exact .inl rfl
    · cases List.mem_singleton.mp h
      exact .inr ht
  · rintro (rfl | h)
    · exact .here List.mem_cons_self
    · exact .deeper List.mem_cons_self h

/-- A constructor or a method holds no type. -/
theorem not_holds_of_ne_type {m : Member} (hm : ∀ header members, m ≠ .type header members)
    (t : TypeDeclaration) : ¬ Holds [m] t := by
  intro h
  cases h with
  | here h => exact hm _ _ (List.mem_singleton.mp h).symm
  | deeper h _ => exact hm _ _ (List.mem_singleton.mp h).symm

/-! ## The listing -/

mutual

/-- The constructors and methods that a member of a type stands for: itself, or those
of a nested type. -/
def listing (owner : TypeDeclaration) : Member → List Declaration
  | .constructor c => [.constructor c]
  | .method m => [.method m owner]
  | .type header members => listingAll ⟨header, members⟩ members

/-- The constructors and methods of a row of members of a type. -/
def listingAll (owner : TypeDeclaration) : List Member → List Declaration
  | [] => []
  | m :: ms => listing owner m ++ listingAll owner ms

end

end Member

namespace TypeDeclaration

/-- The constructors and methods of a type in pre-order. -/
def listing (t : TypeDeclaration) : List Declaration := Member.listingAll t t.members

/-- The constructors and methods of a forest in pre-order. -/
def listingAll (forest : List TypeDeclaration) : List Declaration := forest.flatMap listing

/-- The types of a forest, at any depth. -/
def IsIn (t : TypeDeclaration) (forest : List TypeDeclaration) : Prop :=
  ∃ top ∈ forest, t = top ∨ Member.Holds top.members t

end TypeDeclaration

/-! ## Owners -/

namespace Member

mutual

theorem method_mem_listing_iff (x : Method) (t owner : TypeDeclaration) (m : Member) :
    Declaration.method x t ∈ listing owner m ↔
      (t = owner ∧ m = .method x) ∨ (Holds [m] t ∧ .method x ∈ t.members) := by
  match m with
  | .constructor c =>
    have h := not_holds_of_ne_type (m := .constructor c) (by simp) t
    simp [listing, h]
  | .method y =>
    have h := not_holds_of_ne_type (m := .method y) (by simp) t
    simp [listing, h, eq_comm, and_comm]
  | .type header members =>
    have ih := method_mem_listingAll_iff x t ⟨header, members⟩ members
    rw [listing, ih, holds_type_iff]
    constructor
    · rintro (⟨rfl, h⟩ | ⟨h, hx⟩)
      · exact .inr ⟨.inl rfl, h⟩
      · exact .inr ⟨.inr h, hx⟩
    · rintro (⟨-, h⟩ | ⟨rfl | h, hx⟩)
      · cases h
      · exact .inl ⟨rfl, hx⟩
      · exact .inr ⟨h, hx⟩

theorem method_mem_listingAll_iff (x : Method) (t owner : TypeDeclaration) (row : List Member) :
    Declaration.method x t ∈ listingAll owner row ↔
      (t = owner ∧ .method x ∈ row) ∨ (Holds row t ∧ .method x ∈ t.members) := by
  match row with
  | [] => simp [listingAll, not_holds_nil]
  | m :: row =>
    rw [listingAll, List.mem_append, method_mem_listing_iff x t owner m,
      method_mem_listingAll_iff x t owner row, holds_cons_iff m row t, List.mem_cons]
    grind

end

end Member

namespace TypeDeclaration

/-- **A method is listed with the types that have it as a member, and with no other.** -/
theorem method_mem_listingAll_iff {forest : List TypeDeclaration} {x : Method}
    {t : TypeDeclaration} :
    Declaration.method x t ∈ listingAll forest ↔ t.IsIn forest ∧ .method x ∈ t.members := by
  simp only [listingAll, List.mem_flatMap, listing, Member.method_mem_listingAll_iff, IsIn]
  constructor
  · rintro ⟨top, htop, ⟨rfl, hx⟩ | ⟨h, hx⟩⟩
    · exact ⟨⟨t, htop, .inl rfl⟩, hx⟩
    · exact ⟨⟨top, htop, .inr h⟩, hx⟩
  · rintro ⟨⟨top, htop, rfl | h⟩, hx⟩
    · exact ⟨t, htop, .inl ⟨rfl, hx⟩⟩
    · exact ⟨top, htop, .inr ⟨h, hx⟩⟩

end TypeDeclaration

/-! ## Engines -/

namespace Engine

mutual

theorem visitMember_eq_flatMap (e : Engine) (owner : TypeDeclaration) (m : Member) :
    e.visitMember owner m = (m.listing owner).flatMap e.check := by
  match m with
  | .constructor c => simp [visitMember, Member.listing]
  | .method x => simp [visitMember, Member.listing]
  | .type header members =>
    rw [visitMember, Member.listing, visitMembers_eq_flatMap e ⟨header, members⟩ members]

theorem visitMembers_eq_flatMap (e : Engine) (owner : TypeDeclaration) (row : List Member) :
    e.visitMembers owner row = (Member.listingAll owner row).flatMap e.check := by
  match row with
  | [] => rfl
  | m :: row =>
    rw [visitMembers, Member.listingAll, List.flatMap_append, visitMember_eq_flatMap e owner m,
      visitMembers_eq_flatMap e owner row]

end

/-- **An engine asks its rules about each declaration of the listing, and does nothing
else.** -/
theorem visitAll_eq_flatMap (e : Engine) (forest : List TypeDeclaration) :
    e.visitAll forest = (TypeDeclaration.listingAll forest).flatMap e.check := by
  rw [visitAll, TypeDeclaration.listingAll, List.flatMap_assoc]
  congr 1
  funext t
  exact visitMembers_eq_flatMap e t t.members

end Engine
end AggregateAudit
