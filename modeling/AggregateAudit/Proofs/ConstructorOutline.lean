import AggregateAudit.Source.Statement

/-!
# Outlines of constructors

An outline tells what a stretch of a text is, and only one reader answers that it is a
constructor: behind attribute lists and modifiers, each of them one piece, stand a name and a
pair of parentheses (`Outline.IsConstructor`).  Everything else that a region can answer is not
a constructor and has no part that is one (`Outline.IsCommon`).

The second half is said of every reader in turn, in the order in which they are defined.  Parts
of a kind of their own are attribute lists, type parameters and calls of other constructors, so
nothing has to be known about lengths or about what has been read.
-/

namespace AggregateAudit
namespace Source

/-- Whether a part does not make up a constructor by itself. -/
@[simp] def Part.isCommon : Part → Bool
  | .run kind _ => kind ≠ .constructorDeclaration
  | _ => true

/-- Whether no part of a row makes up a constructor. -/
def AreCommon (parts : List Part) : Prop := ∀ part ∈ parts, part.isCommon = true

@[simp] theorem areCommon_nil : AreCommon [] := fun _ h => absurd h List.not_mem_nil

@[simp] theorem areCommon_cons {part : Part} {parts : List Part} :
    AreCommon (part :: parts) ↔ part.isCommon = true ∧ AreCommon parts := List.forall_mem_cons

@[simp] theorem areCommon_append {front back : List Part} :
    AreCommon (front ++ back) ↔ AreCommon front ∧ AreCommon back := List.forall_mem_append

/-- Whether a stretch is no constructor and holds none among its parts. -/
structure Outline.IsCommon (o : Outline) : Prop where
  kind : o.kind ≠ .constructorDeclaration
  parts : AreCommon o.parts

/-- Whether an outline is that of a constructor at the start of a row: behind parts of one piece
each there are a name and a pair of parentheses. -/
structure Outline.IsConstructor (ps : List Piece) (o : Outline) : Prop where
  kind : o.kind = .constructorDeclaration
  parts : ∃ front body, o.parts = front ++ .name :: .parameters :: body
    ∧ (∀ part ∈ front, part = .run .attributes 1 ∨ part = .modifier)
    ∧ AreCommon body ∧ ∃ p, ps[front.length + 1]? = some p ∧ p.isGroup .paren = true

/-- What the first of two readers answers is said by one of them. -/
theorem eq_some_of_orElse {α : Type} {a b : Option α} {x : α} (h : (a <|> b) = some x) :
    a = some x ∨ b = some x := by
  rw [Option.orElse_eq_orElse, Option.orElse_eq_or, Option.or_eq_some_iff] at h
  exact h.imp_right And.right

/-! ## Common tails -/

section Tails

variable {ps : List Piece} {parts : List Part}

@[simp] theorem areCommon_runOf {kind : BranchKind} (h : kind ≠ .constructorDeclaration) (n : Nat) :
    AreCommon (Part.runOf kind n) := by
  rw [Part.runOf]
  split <;> simp [h]

theorem areCommon_upToSemicolon? (h : upToSemicolon? ps = some parts) : AreCommon parts := by
  obtain ⟨n, -, rfl⟩ := Option.map_eq_some_iff.mp h
  simp

theorem areCommon_arrowBody? (h : arrowBody? ps = some parts) : AreCommon parts := by
  rw [arrowBody?] at h
  split at h
  · obtain ⟨n, -, rfl⟩ := Option.map_eq_some_iff.mp h
    simp
  · cases h

theorem areCommon_functionBody? (h : functionBody? ps = some parts) : AreCommon parts := by
  unfold functionBody? at h
  split at h
  · cases h
  · split at h
    · cases h
      simp
    · split at h
      · cases h
        simp
      · exact areCommon_arrowBody? h

theorem areCommon_functionTail? (h : functionTail? ps = some parts) : AreCommon parts := by
  simp only [functionTail?, Option.bind_eq_bind, Option.bind_eq_some_iff] at h
  obtain ⟨generics, -, h⟩ := h
  split at h
  · cases h
  · split at h
    · simp only [Option.bind_eq_some_iff, Option.some.injEq] at h
      obtain ⟨body, hbody, rfl⟩ := h
      simp [areCommon_functionBody? hbody]
    · cases h

theorem areCommon_closingSemicolon (ps : List Piece) : AreCommon (closingSemicolon ps) := by
  rw [closingSemicolon]
  split <;> simp

end Tails

/-! ## Types and directives of the language -/

section Types

variable {ps : List Piece} {parts : List Part} {o : Outline}

theorem areCommon_typeTail? {inRecord : Bool} {n : Nat}
    (h : typeTail? inRecord n ps = some parts) : AreCommon parts := by
  induction n generalizing ps parts with
  | zero => cases h
  | succ n ih =>
    unfold typeTail? at h
    split at h
    · cases h
    · split at h
      · simp only [Option.bind_eq_bind, Option.bind_eq_some_iff, Option.some.injEq] at h
        obtain ⟨generics, -, tail, htail, rfl⟩ := h
        simp [ih htail]
      · split at h
        · obtain ⟨tail, htail, rfl⟩ := Option.map_eq_some_iff.mp h
          simp [ih htail]
        · split at h
          · simp only [Option.bind_eq_bind, Option.bind_eq_some_iff, Option.some.injEq] at h
            obtain ⟨k, -, tail, htail, rfl⟩ := h
            simp [ih htail]
          · dsimp only at h
            split at h
            · cases h
            · split at h
              · cases h
                simp [areCommon_closingSemicolon]
              · split at h
                · cases h
                  simp
                · cases h

theorem isCommon_typeAfter? {kind : TypeKind} {n : Nat} (h : typeAfter? kind n ps = some o) :
    o.IsCommon := by
  unfold typeAfter? at h
  split at h
  · cases h
  · split at h
    · obtain ⟨tail, htail, rfl⟩ := Option.map_eq_some_iff.mp h
      exact ⟨by simp, by simp [areCommon_typeTail? htail]⟩
    · cases h

/-- Everything up to a semicolon is a declaration of another kind. -/
theorem isCommon_otherDeclaration (h : AreCommon parts) :
    Outline.IsCommon ⟨.otherDeclaration, parts⟩ := ⟨by simp, h⟩

theorem isCommon_upToSemicolon?
    (h : (upToSemicolon? ps).map (Outline.mk .otherDeclaration) = some o) : o.IsCommon := by
  obtain ⟨parts, hparts, rfl⟩ := Option.map_eq_some_iff.mp h
  exact isCommon_otherDeclaration (areCommon_upToSemicolon? hparts)

theorem isCommon_typeLike? (h : typeLike? ps = some o) : o.IsCommon := by
  unfold typeLike? at h
  split at h
  · cases h
  · split at h
    · exact isCommon_typeAfter? h
    · exact isCommon_typeAfter? h
    · exact isCommon_typeAfter? h
    · split at h <;> exact isCommon_typeAfter? h
    · dsimp only at h
      split at h
      · exact isCommon_typeAfter? h
      · cases h
    · simp only [Option.bind_eq_bind, Option.bind_eq_some_iff, Option.some.injEq] at h
      obtain ⟨n, -, rfl⟩ := h
      refine isCommon_otherDeclaration ?_
      split <;> simp [areCommon_closingSemicolon]
    · split at h
      · cases h
      · exact isCommon_upToSemicolon? h
    · cases h

theorem isCommon_directive? (h : directive? ps = some o) : o.IsCommon := by
  unfold directive? at h
  split at h
  · split at h
    · exact isCommon_upToSemicolon? h
    · split at h
      · simp only [Option.bind_eq_bind, Option.bind_eq_some_iff] at h
        obtain ⟨n, -, h⟩ := h
        split at h
        · cases h
          exact isCommon_otherDeclaration (by simp)
        · cases h
          exact ⟨by simp, by simp [areCommon_closingSemicolon]⟩
      · cases h
  · cases h

end Types

/-! ## Members -/

section Members

variable {ps : List Piece} {parts : List Part} {o : Outline}

theorem areCommon_accessors? (h : accessors? ps = some parts) : AreCommon parts := by
  unfold accessors? at h
  split at h
  · cases h
  · split at h
    · split at h
      · obtain ⟨tail, htail, rfl⟩ := Option.map_eq_some_iff.mp h
        simp [areCommon_upToSemicolon? htail]
      · cases h
        simp
    · cases h

theorem areCommon_operatorTail? (h : operatorTail? ps = some parts) : AreCommon parts := by
  simp only [operatorTail?, Option.bind_eq_bind, Option.bind_eq_some_iff, Option.some.injEq] at h
  obtain ⟨n, -, body, hbody, rfl⟩ := h
  simp [areCommon_functionBody? hbody]

theorem areCommon_indexerTail? (h : indexerTail? ps = some parts) : AreCommon parts := by
  simp only [indexerTail?, Option.bind_eq_bind, Option.bind_eq_some_iff, Option.some.injEq] at h
  obtain ⟨body, hbody, rfl⟩ := h
  rcases eq_some_of_orElse hbody with hbody | hbody
  · simp [areCommon_accessors? hbody]
  · simp [areCommon_arrowBody? hbody]

theorem isCommon_memberOfType? {t : Nat} (h : memberOfType? ps t = some o) : o.IsCommon := by
  unfold memberOfType? at h
  dsimp only at h
  -- everything but a method is a declaration of another kind behind its tokens
  have other : ∀ (front : List Part) {tail : Option (List Part)} {n : Nat},
      tail.map (fun parts => .mk .otherDeclaration (.tokens n :: (front ++ parts))) = some o →
      (∀ {parts}, tail = some parts → AreCommon parts) → AreCommon front → o.IsCommon := by
    intro front tail n hmap htail hfront
    obtain ⟨parts, hparts, rfl⟩ := Option.map_eq_some_iff.mp hmap
    exact isCommon_otherDeclaration (by simp [htail hparts, hfront])
  split at h
  · split at h
    · exact other [] h areCommon_operatorTail? areCommon_nil
    · split at h
      · exact other [] h areCommon_indexerTail? areCommon_nil
      · split at h
        · split at h
          · obtain ⟨tail, htail, rfl⟩ := Option.map_eq_some_iff.mp h
            exact ⟨by simp, by simp [areCommon_functionTail? htail]⟩
          · split at h
            · exact other [.tokens 1] h areCommon_accessors? (by simp)
            · split at h
              · exact other [.tokens 1] h areCommon_arrowBody? (by simp)
              · split at h
                · exact other [] h areCommon_upToSemicolon? areCommon_nil
                · cases h
        · split at h
          · exact other [] h areCommon_upToSemicolon? areCommon_nil
          · cases h
  · cases h

theorem isCommon_typedMember? (h : typedMember? ps = some o) : o.IsCommon := by
  obtain ⟨t, -, ht⟩ := List.exists_of_findSome?_eq_some h
  exact isCommon_memberOfType? ht

theorem isCommon_event? (h : event? ps = some o) : o.IsCommon := by
  simp only [event?, Option.bind_eq_bind, Option.bind_eq_some_iff] at h
  obtain ⟨n, -, h⟩ := h
  split at h
  · cases h
    exact isCommon_otherDeclaration (by simp)
  · exact isCommon_upToSemicolon? h

theorem isCommon_conversion? (h : conversion? ps = some o) : o.IsCommon := by
  simp only [conversion?, Option.bind_eq_bind, Option.bind_eq_some_iff, Option.some.injEq] at h
  obtain ⟨n, -, t, -, tail, htail, rfl⟩ := h
  exact isCommon_otherDeclaration (by simp [areCommon_operatorTail? htail])

theorem isCommon_accessor? (h : accessor? ps = some o) : o.IsCommon := by
  unfold accessor? at h
  dsimp only at h
  split at h
  · cases h
  · split at h
    · simp only [Option.bind_eq_bind, Option.bind_eq_some_iff, Option.some.injEq] at h
      obtain ⟨body, hbody, rfl⟩ := h
      exact isCommon_otherDeclaration (by simp [areCommon_functionBody? hbody])
    · cases h

/-- A constructor begins with a name and parentheses. -/
theorem isConstructor_constructor? (h : constructor? ps = some o) : o.IsConstructor ps := by
  unfold constructor? at h
  split at h
  · next p q rest =>
    split at h
    · next hguard =>
      simp only [Bool.and_eq_true] at hguard
      obtain ⟨body, hbody, rfl⟩ := Option.map_eq_some_iff.mp h
      refine ⟨rfl, [], _, rfl, by simp, ?_, q, rfl, hguard.1.2⟩
      simp [areCommon_functionBody? hbody]
    · cases h
  · cases h

theorem member?_cases (h : member? ps = some o) : o.IsCommon ∨ o.IsConstructor ps := by
  unfold member? at h
  split at h
  · cases h
  · split at h
    · exact .inl (isCommon_event? h)
    · split at h
      · exact .inl (isCommon_conversion? h)
      · split at h
        · obtain ⟨tail, htail, rfl⟩ := Option.map_eq_some_iff.mp h
          exact .inl (isCommon_otherDeclaration (areCommon_operatorTail? htail))
        · rcases eq_some_of_orElse h with h | h
          · exact .inl (isCommon_typeLike? h)
          · rcases eq_some_of_orElse h with h | h
            · exact .inr (isConstructor_constructor? h)
            · exact .inl (isCommon_typedMember? h)

/-! Attribute lists and modifiers in front of a declaration change neither. -/

theorem exists_read_of_behindModifiers {α : Type} {read : List Piece → Option α} {m : Nat} {a : α}
    (h : behindModifiers read ps = some (m, a)) : read (ps.drop m) = some a := by
  induction ps generalizing m with
  | nil => cases h
  | cons p ps ih =>
    unfold behindModifiers at h
    split at h
    · next found hfound =>
      cases h
      split at hfound
      · cases hfound
      · exact hfound
    · split at h
      · obtain ⟨⟨m, a⟩, hread, heq⟩ := Option.map_eq_some_iff.mp h
        cases heq
        exact ih hread
      · cases h

theorem exists_of_decorated? {read : List Piece → Option Outline}
    (h : decorated? read ps = some o) :
    ∃ front plain, read (ps.drop front.length) = some plain
      ∧ (∀ part ∈ front, part = .run .attributes 1 ∨ part = .modifier)
      ∧ o = ⟨plain.kind, front ++ plain.parts⟩ := by
  obtain ⟨⟨m, plain⟩, hread, rfl⟩ := Option.map_eq_some_iff.mp h
  refine ⟨List.replicate (attributeCount ps) (.run .attributes 1) ++ List.replicate m .modifier,
    plain, ?_, ?_, rfl⟩
  · rw [List.length_append, List.length_replicate, List.length_replicate, ← List.drop_drop]
    exact exists_read_of_behindModifiers hread
  · intro part hpart
    rcases List.mem_append.mp hpart with hpart | hpart
    · exact .inl (List.eq_of_mem_replicate hpart)
    · exact .inr (List.eq_of_mem_replicate hpart)

theorem Outline.IsCommon.decorated {front : List Part} {plain : Outline} (h : plain.IsCommon)
    (hfront : ∀ part ∈ front, part = .run .attributes 1 ∨ part = .modifier) :
    Outline.IsCommon ⟨plain.kind, front ++ plain.parts⟩ := by
  refine ⟨h.kind, areCommon_append.mpr ⟨?_, h.parts⟩⟩
  intro part hpart
  rcases hfront part hpart with rfl | rfl <;> simp

theorem Outline.IsConstructor.decorated {front : List Part} {plain : Outline}
    (h : plain.IsConstructor (ps.drop front.length))
    (hfront : ∀ part ∈ front, part = .run .attributes 1 ∨ part = .modifier) :
    Outline.IsConstructor ps ⟨plain.kind, front ++ plain.parts⟩ := by
  obtain ⟨hkind, front', body, hparts, hfront', hbody, p, hp, hparen⟩ := h
  refine ⟨hkind, front ++ front', body, ?_, ?_, hbody, p, ?_, hparen⟩
  · rw [hparts, List.append_assoc]
  · exact fun part hpart => (List.mem_append.mp hpart).elim (hfront part) (hfront' part)
  · rw [List.getElem?_drop] at hp
    rwa [List.length_append, Nat.add_assoc]

theorem declaration?_cases (h : declaration? ps = some o) : o.IsCommon ∨ o.IsConstructor ps := by
  rcases eq_some_of_orElse h with h | h
  · exact .inl (isCommon_directive? h)
  · obtain ⟨front, plain, hplain, hfront, rfl⟩ := exists_of_decorated? h
    rcases member?_cases hplain with hcommon | hconstructor
    · exact .inl (hcommon.decorated hfront)
    · exact .inr (hconstructor.decorated hfront)

end Members

/-! ## Statements -/

section Statements

variable {ps : List Piece} {parts : List Part} {o : Outline}

theorem areCommon_functionOfType? {t : Nat} (h : functionOfType? ps t = some parts) :
    AreCommon parts := by
  unfold functionOfType? at h
  split at h
  · cases h
  · next n rest _ =>
    dsimp only at h
    generalize (if ps.head?.any (·.isWordOf builtinTypes) then [] else infixWords) = barred at h
    split at h
    · obtain ⟨tail, htail, rfl⟩ := Option.map_eq_some_iff.mp h
      simp [areCommon_functionTail? htail]
    · cases h

theorem areCommon_localFunction? (h : localFunction? ps = some parts) : AreCommon parts := by
  obtain ⟨⟨m, tail⟩, hread, rfl⟩ := Option.map_eq_some_iff.mp h
  have hfound := exists_read_of_behindModifiers hread
  obtain ⟨t, -, ht⟩ := List.exists_of_findSome?_eq_some hfound
  simp [areCommon_functionOfType? ht]

theorem areCommon_handlers (n : Nat) (ps : List Piece) : AreCommon (handlers n ps) := by
  induction n generalizing ps with
  | zero => exact areCommon_nil
  | succ n ih =>
    unfold handlers
    split
    · split
      · dsimp only
        split <;> simp [ih]
      · split <;> simp
    · simp

/-- A function or everything up to a semicolon. -/
theorem areCommon_plainStatement?
    (h : (localFunction? ps <|> upToSemicolon? ps) = some parts) : AreCommon parts :=
  (eq_some_of_orElse h).elim areCommon_localFunction? areCommon_upToSemicolon?

/-- A statement in front of which there are parts. -/
theorem areCommon_map (front : List Part) {tail : Option (List Part)}
    (h : tail.map (front ++ ·) = some parts)
    (htail : ∀ {parts}, tail = some parts → AreCommon parts) (hfront : AreCommon front) :
    AreCommon parts := by
  obtain ⟨parts, hparts, rfl⟩ := Option.map_eq_some_iff.mp h
  exact areCommon_append.mpr ⟨hfront, htail hparts⟩

theorem areCommon_statement? {n : Nat} (h : statement? n ps = some parts) : AreCommon parts := by
  induction n generalizing ps parts with
  | zero => cases h
  | succ n ih =>
    have one : ∀ k, AreCommon [.tokens k] := fun k => by simp
    unfold statement? at h
    split at h
    · cases h
    · split at h
      · cases h
        simp
      · split at h
        · cases h
          simp
        · split at h
          · -- `if`
            split at h
            · simp only [Option.bind_eq_bind, Option.bind_eq_some_iff] at h
              obtain ⟨yes, hyes, h⟩ := h
              split at h
              · split at h
                · simp only [Option.bind_eq_some_iff, Option.some.injEq] at h
                  obtain ⟨no, hno, rfl⟩ := h
                  simp [ih hyes, ih hno]
                · cases h
                  simp [ih hyes]
              · cases h
                simp [ih hyes]
            · cases h
          · -- `do`
            simp only [Option.bind_eq_bind, Option.bind_eq_some_iff] at h
            obtain ⟨loop, hloop, h⟩ := h
            split at h
            · split at h
              · cases h
                simp [ih hloop]
              · cases h
            · cases h
          · -- `try`
            split at h
            · cases h
              simp [areCommon_handlers]
            · cases h
          · -- `switch`
            split at h
            · cases h
              simp
            · exact areCommon_upToSemicolon? h
          · -- `await`
            split at h
            · exact areCommon_map [.tokens 1] h ih (one 1)
            · exact areCommon_upToSemicolon? h
          · -- `yield`
            split at h
            · exact areCommon_upToSemicolon? h
            · split at h
              · exact areCommon_map [.tokens 2] h ih (one 2)
              · exact areCommon_plainStatement? h
          · -- other words
            split at h
            · exact areCommon_map [.tokens 2] h ih (one 2)
            · split at h
              · cases h
                simp
              · split at h
                · exact areCommon_map [.tokens 2] h ih (one 2)
                · exact areCommon_plainStatement? h
          · exact areCommon_plainStatement? h

theorem isCommon_statementOutline (ps : List Piece) : (statementOutline ps).IsCommon := by
  unfold statementOutline
  split
  · next parts hparts => exact ⟨by simp, areCommon_statement? hparts⟩
  · exact ⟨by simp, by simp⟩

theorem isCommon_sectionOutline (ps : List Piece) : (sectionOutline ps).IsCommon := by
  unfold sectionOutline
  dsimp only
  split
  · exact ⟨by simp, by simp⟩
  · exact isCommon_statementOutline ps

end Statements

/-! ## All regions -/

theorem isCommon_misplaced : misplaced.IsCommon := ⟨by simp [misplaced], by simp [misplaced]⟩

/-- **An outline is that of a constructor, or it has nothing to do with constructors.** -/
theorem Region.outline_cases (r : Region) (ps : List Piece) :
    (r.outline ps).IsCommon ∨ (r.outline ps).IsConstructor ps := by
  unfold Region.outline
  split
  · exact .inl ⟨by simp, areCommon_nil⟩
  · split
    · exact .inl ⟨by simp, by simp⟩
    · split
      · exact .inl (isCommon_statementOutline _)
      · exact .inl (isCommon_sectionOutline _)
      · cases h : accessor? _ with
        | none => exact .inl isCommon_misplaced
        | some o => exact .inl (isCommon_accessor? h)
      · cases h : declaration? _ with
        | none => exact .inl isCommon_misplaced
        | some o => exact declaration?_cases h
      · exact .inl ⟨by simp, by simp⟩
      · split
        · exact .inl (isCommon_otherDeclaration (by simp))
        · left
          split
          · next o h =>
            rcases eq_some_of_orElse h with h | h
            · exact isCommon_directive? h
            · obtain ⟨front, plain, hplain, hfront, rfl⟩ := exists_of_decorated? h
              exact (isCommon_typeLike? hplain).decorated hfront
          · split
            · exact isCommon_misplaced
            · exact isCommon_statementOutline _

end Source
end AggregateAudit
