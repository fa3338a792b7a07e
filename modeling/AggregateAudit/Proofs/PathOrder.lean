import AggregateAudit.Proofs.Pieces
import AggregateAudit.Report

/-!
# The order of paths and of findings

Paths are compared by their components and findings by path, line and column.  Both
comparisons are lexicographic, so that everything that is known about `List.compareLex`
--- it is transitive, turning it round swaps its answer, it answers `eq` on equal rows
only --- is known about paths.

The second half is about joining.  A path below a root and its full path are two
paths with different components, and a run sorts by one and reports the other.  It
does not matter: joining puts the components of the root in front
(`components_join`), and a common front decides nothing (`compare_join`).
-/

namespace AggregateAudit
namespace Path

/-! ## Lexicographic comparison -/

/-- Two rows with the same front compare like what is behind it. -/
theorem compareLex_append_left {α : Type} (cmp : α → α → Ordering) [Std.ReflCmp cmp]
    (front xs ys : List α) :
    List.compareLex cmp (front ++ xs) (front ++ ys) = List.compareLex cmp xs ys := by
  induction front with
  | nil => rfl
  | cons c front ih =>
    have hc : cmp c c = .eq := Std.ReflCmp.compare_self
    rw [List.cons_append, List.cons_append, List.compareLex_cons_cons, hc, ih]
    rfl

/-- Comparing by a key is transitive if comparing keys is. -/
theorem transCmp_on {α β : Type} (cmp : α → α → Ordering) [Std.TransCmp cmp] (key : β → α) :
    Std.TransCmp fun a b => cmp (key a) (key b) where
  eq_swap := Std.OrientedCmp.eq_swap
  isLE_trans := Std.TransCmp.isLE_trans

/-- Comparing by one thing and, where it does not decide, by another one is transitive
if both comparisons are. -/
theorem transCmp_then {α : Type} {first second : α → α → Ordering}
    (h₁ : Std.TransCmp first) (h₂ : Std.TransCmp second) :
    Std.TransCmp fun a b => (first a b).then (second a b) :=
  inferInstanceAs (Std.TransCmp (compareLex first second))

section Precedence

variable {α : Type} {cmp : α → α → Ordering} [Std.TransCmp cmp]

/-- To stand before or with something is transitive. -/
theorem bne_gt_trans (a b c : α) :
    (cmp a b != .gt) = true → (cmp b c != .gt) = true → (cmp a c != .gt) = true := by
  simp only [bne_iff_ne, ne_eq, ← Ordering.isLE_iff_ne_gt]
  exact Std.TransCmp.isLE_trans

/-- Of two things one stands before or with the other. -/
theorem bne_gt_total (a b : α) : ((cmp a b != .gt) || (cmp b a != .gt)) = true := by
  have hswap : cmp b a = (cmp a b).swap := Std.OrientedCmp.eq_swap
  rw [hswap]
  cases cmp a b <;> rfl

end Precedence

/-! ## Components -/

/-- A component is known by its rank and its name. -/
theorem Component.eq_of_rank_name {a b : Component} (hr : a.rank = b.rank)
    (hn : a.name = b.name) : a = b := by
  cases a <;> cases b <;> simp_all [Component.rank, Component.name]

instance : Std.TransCmp compareComponents :=
  transCmp_then (transCmp_on (Ord.compare (α := Nat)) Component.rank)
    (transCmp_on (List.compareLex (Ord.compare (α := UInt8))) Component.name)

instance : Std.LawfulEqCmp compareComponents where
  compare_self := Std.OrientedCmp.eq_swap |> Ordering.eq_eq_of_eq_swap
  eq_of_compare {a b} h := by
    obtain ⟨hrank, hname⟩ := Ordering.then_eq_eq.mp h
    exact Component.eq_of_rank_name (Std.LawfulEqOrd.eq_of_compare hrank)
      (Std.LawfulEqCmp.eq_of_compare hname)

/-! ## Paths -/

instance : Std.TransCmp Path.compare := transCmp_on (List.compareLex compareComponents) components

/-- Two rows of bytes are the same path exactly if their components are the same. -/
theorem compare_eq_eq_iff {a b : Path} :
    Path.compare a b = .eq ↔ components a = components b := by
  constructor
  · intro h
    replace h : List.compareLex compareComponents (components a) (components b) = .eq := h
    exact Std.LawfulEqCmp.eq_of_compare h
  · intro h
    rw [Path.compare, h]
    exact Std.ReflCmp.compare_self

/-! ## Joining -/

/-- What the pieces of a path say about its beginning. -/
def lead : List (List UInt8) → List Component
  | [] => []
  | piece :: rest =>
    if piece.isEmpty && !rest.isEmpty then [.root] else if piece = [point] then [.here] else []

/-- The components that the pieces of a path stand for, wherever they are. -/
def steps (p : Path) : List Component :=
  (p.bytes.splitOn slash).filterMap Component.ofPiece?

@[simp] theorem steps_empty : steps "" = [] := rfl

theorem components_eq (p : Path) :
    components p = lead (p.bytes.splitOn slash) ++ steps p := rfl

/-- The first piece of a row that is not empty is empty only in front of another one. -/
theorem head?_splitOn_of_ne_nil {s : List UInt8} (hs : s ≠ [])
    (h : (s.splitOn slash).head? = some []) : 1 < (s.splitOn slash).length := by
  obtain ⟨c, cs, rfl⟩ := List.exists_cons_of_ne_nil hs
  obtain ⟨first, rest, hrest⟩ := List.exists_cons_of_ne_nil (List.splitOn_ne_nil slash cs)
  rw [List.splitOn_cons_eq_if_modifyHead, hrest] at h ⊢
  split
  · simp
  · next hc =>
    rw [if_neg hc] at h
    cases h

/-- What follows behind a slash does not change the beginning of a path. -/
theorem lead_append {s : List UInt8} (hs : s ≠ []) (more : List (List UInt8)) :
    lead (s.splitOn slash ++ more) = lead (s.splitOn slash) := by
  have hfirst := head?_splitOn_of_ne_nil hs
  obtain ⟨piece, rest, h⟩ := List.exists_cons_of_ne_nil (List.splitOn_ne_nil slash s)
  rw [h] at hfirst ⊢
  cases piece with
  | nil =>
    have hrest : rest ≠ [] := by
      rintro rfl
      simpa using hfirst rfl
    simp [lead, hrest]
  | cons c cs => simp [lead]

theorem splitOn_append_slash (base p : Path) :
    (base ++ "/" ++ p : Path).bytes.splitOn slash =
      base.bytes.splitOn slash ++ p.bytes.splitOn slash := by
  rw [bytes_append, bytes_append, bytes_slash, List.append_assoc, List.singleton_append,
    List.splitOn_append_cons_self]

theorem steps_append_slash (base p : Path) :
    steps (base ++ "/" ++ p) = steps base ++ steps p := by
  rw [steps, splitOn_append_slash, List.filterMap_append]
  rfl

/-- What stands behind a slash is appended to the components of what stands before it. -/
theorem components_append_slash {base : Path} (hbase : base ≠ "") (p : Path) :
    components (base ++ "/" ++ p) = components base ++ steps p := by
  have hne : base.bytes ≠ [] := fun h => hbase (eq_empty_iff.mpr h)
  rw [components_eq, components_eq, steps_append_slash, splitOn_append_slash, lead_append hne,
    List.append_assoc]

theorem components_slash_append (p : Path) : components ("/" ++ p) = .root :: steps p := by
  have hsplit : ("/" ++ p : Path).bytes.splitOn slash = [] :: p.bytes.splitOn slash :=
    splitOn_append_slash "" p
  have hlead : lead ([] :: p.bytes.splitOn slash) = [.root] := by
    simp [lead, List.splitOn_ne_nil]
  rw [components_eq, steps, hsplit, hlead, List.filterMap_cons_none rfl]
  rfl

/-- A path that is a row of names. -/
def IsPlain (p : Path) : Prop := ∀ c ∈ components p, ∃ name, c = .normal name

theorem IsPlain.components_eq_steps {p : Path} (hp : IsPlain p) : components p = steps p := by
  have hlead : ∀ c ∈ lead (p.bytes.splitOn slash), ∃ name, c = .normal name :=
    fun c hc => hp c (by rw [components_eq]; exact List.mem_append_left _ hc)
  rw [components_eq]
  suffices lead (p.bytes.splitOn slash) = [] by rw [this, List.nil_append]
  cases h : p.bytes.splitOn slash with
  | nil => rfl
  | cons piece rest =>
    rw [h] at hlead
    rw [lead] at hlead ⊢
    split
    · next h₁ => simp [h₁] at hlead
    · next h₁ =>
      split
      · next h₂ => simp [h₂] at hlead
      · rfl

/-- An absolute path is a slash with a path behind it. -/
theorem exists_slash_append_of_isAbsolute {p : Path} (hp : isAbsolute p = true) :
    ∃ rest : Path, p = "/" ++ rest := by
  obtain ⟨rest, hrest⟩ := List.head?_eq_some_iff.mp (of_decide_eq_true hp)
  exact ⟨⟨rest⟩, Path.ext (by simp [hrest])⟩

theorem IsPlain.not_isAbsolute {p : Path} (hp : IsPlain p) : isAbsolute p = false := by
  rw [Bool.eq_false_iff]
  intro habs
  obtain ⟨rest, rfl⟩ := exists_slash_append_of_isAbsolute habs
  obtain ⟨name, hname⟩ := hp .root (by
    rw [components_slash_append]
    exact List.mem_cons_self)
  cases hname

theorem join_of_relative (base : Path) {p : Path} (hp : isAbsolute p = false) :
    join base p = base ++ separator base ++ p := by
  rw [join, hp, if_neg Bool.false_ne_true]

/-- A path that ends with a slash is what is in front of the slash, and the slash. -/
theorem exists_append_slash_of_getLast? {base : Path} (h : base.bytes.getLast? = some slash) :
    ∃ front : Path, base = front ++ "/" := by
  obtain ⟨front, hfront⟩ := List.getLast?_eq_some_iff.mp h
  exact ⟨⟨front⟩, Path.ext (by simp [hfront])⟩

/-- **Joining puts the components of the base in front.** -/
theorem components_join (base : Path) {p : Path} (hp : IsPlain p) :
    components (join base p) = components base ++ components p := by
  rw [join_of_relative base hp.not_isAbsolute, hp.components_eq_steps, separator]
  split
  · next h =>
    rcases h with rfl | hslash
    · exact hp.components_eq_steps
    · obtain ⟨front, rfl⟩ := exists_append_slash_of_getLast? hslash
      rw [append_empty]
      by_cases hfront : front = ""
      · rw [hfront, empty_append, components_slash_append]
        rfl
      · have hbase := components_append_slash hfront ""
        rw [append_empty, steps_empty, List.append_nil] at hbase
        rw [components_append_slash hfront, hbase]
  · next h => exact components_append_slash (not_or.mp h).1 p

/-- **A common base decides nothing**: full paths compare like the paths below the base. -/
theorem compare_join (base : Path) {p q : Path} (hp : IsPlain p) (hq : IsPlain q) :
    Path.compare (join base p) (join base q) = Path.compare p q := by
  rw [Path.compare, components_join base hp, components_join base hq, compareLex_append_left]
  rfl

end Path

/-! ## Findings -/

namespace Finding

instance : Std.TransCmp Finding.order :=
  Path.transCmp_then (Path.transCmp_on Path.compare fun f : Finding => f.location.file)
    (Path.transCmp_then
      (Path.transCmp_on (Ord.compare (α := Nat)) fun f : Finding => f.location.line)
      (Path.transCmp_on (Ord.compare (α := Nat)) fun f : Finding => f.location.column))

end Finding
end AggregateAudit
