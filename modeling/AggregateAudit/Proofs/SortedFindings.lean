import AggregateAudit.Proofs.StableSort

/-!
# The one stable sort

Sorting a report by file, line and column would leave open what happens to findings that compare
equal.  They keep the order in which they came, and with this there is exactly one way to sort
(`Report.sort_is_stable_sort`).

What a stable sort does to a row is said tie by tie.  For each thing, those that compare equal to
it are a row of their own, and two rows are *alike* if these rows are the same in both
(`AreAlike`).  Sorting gives a row that is alike (`areAlike_mergeSort`).  Of two rows that are
alike and in order the first members tie, so each is the first member of the same row of ties, so
they are the same: rows that are alike and in order are equal (`AreAlike.eq_of_pairwise`).

That the comparison is an order at all is the subject of `Proofs.PathOrder`.  Here it is also read
in words.  `Path.Component.IsBefore` says which component stands before another one, and rows of
components are compared as words in a dictionary are (`Path.compare_eq_lt_iff`).
-/

namespace AggregateAudit

/-! ## Rows that differ only between ties -/

section Ties

variable {α : Type} (cmp : α → α → Ordering)

/-- Whether two rows hold the same things and have those that compare equal in the same
order. -/
def AreAlike (l m : List α) : Prop :=
  ∀ a, l.filter (fun b => cmp a b = .eq) = m.filter fun b => cmp a b = .eq

/-- What a stable sort makes of a row. -/
structure IsStableSort (l sorted : List α) : Prop where
  perm : sorted.Perm l
  ordered : sorted.Pairwise fun a b => cmp a b ≠ .gt
  /-- The things that compare equal to `a` stand in the order in which they stood. -/
  stable : ∀ a, sorted.filter (fun b => cmp a b = .eq) = l.filter fun b => cmp a b = .eq

variable {cmp} {l m : List α}

theorem AreAlike.symm (h : AreAlike cmp l m) : AreAlike cmp m l := fun a => (h a).symm

theorem AreAlike.trans {k : List α} (h : AreAlike cmp k l) (h' : AreAlike cmp l m) :
    AreAlike cmp k m := fun a => (h a).trans (h' a)

theorem AreAlike.append {k n : List α} (h : AreAlike cmp k l) (h' : AreAlike cmp m n) :
    AreAlike cmp (k ++ m) (l ++ n) := by
  intro a
  rw [List.filter_append, List.filter_append, h a, h' a]

/-- What is left of two rows that are alike without the same first member is alike. -/
theorem AreAlike.of_cons {a : α} (h : AreAlike cmp (a :: l) (a :: m)) : AreAlike cmp l m := by
  intro c
  have hties := h c
  by_cases hc : cmp c a = .eq
  · rw [List.filter_cons_of_pos (by simp [hc]), List.filter_cons_of_pos (by simp [hc])] at hties
    exact (List.cons.inj hties).2
  · rwa [List.filter_cons_of_neg (by simp [hc]), List.filter_cons_of_neg (by simp [hc])] at hties

variable [Std.TransCmp cmp]

theorem AreAlike.mem_iff (h : AreAlike cmp l m) {a : α} : a ∈ l ↔ a ∈ m := by
  have hself : cmp a a = .eq := Std.ReflCmp.compare_self
  have hties : a ∈ l.filter (fun b => cmp a b = .eq) ↔ a ∈ m.filter fun b => cmp a b = .eq := by
    rw [h a]
  simpa only [List.mem_filter, hself, decide_true, and_true] using hties

/-- The first member of one of two rows that are alike stands in order with the first member of
the other one, if it stands in order with what is behind it. -/
theorem AreAlike.ne_gt_of_cons {a b : α} (h : AreAlike cmp (a :: l) (b :: m))
    (hl : ∀ c ∈ l, cmp a c ≠ .gt) : cmp a b ≠ .gt := by
  rcases List.mem_cons.mp (h.mem_iff.mpr List.mem_cons_self : b ∈ a :: l) with rfl | hb
  · simp [Std.ReflCmp.compare_self]
  · exact hl b hb

/-- **A row can be put in order in one way** if ties have to stay as they are. -/
theorem AreAlike.eq_of_pairwise (h : AreAlike cmp l m)
    (hl : l.Pairwise fun a b => cmp a b ≠ .gt) (hm : m.Pairwise fun a b => cmp a b ≠ .gt) :
    l = m := by
  induction l generalizing m with
  | nil =>
    cases m with
    | nil => rfl
    | cons b m => exact absurd (h.mem_iff.mpr List.mem_cons_self) List.not_mem_nil
  | cons a l ih =>
    cases m with
    | nil => exact absurd (h.mem_iff.mp List.mem_cons_self) List.not_mem_nil
    | cons b m =>
      obtain ⟨hal, hl'⟩ := List.pairwise_cons.mp hl
      obtain ⟨hbm, hm'⟩ := List.pairwise_cons.mp hm
      have htie : cmp a b = .eq := by
        have hab : cmp a b ≠ .gt := h.ne_gt_of_cons hal
        have hba : cmp b a ≠ .gt := h.symm.ne_gt_of_cons hbm
        have hswap : cmp b a = (cmp a b).swap := Std.OrientedCmp.eq_swap
        rw [hswap] at hba
        cases hcmp : cmp a b with
        | eq => rfl
        | lt => simp [hcmp] at hba
        | gt => exact absurd hcmp hab
      have hfirst : a = b := by
        have hties := h a
        rw [List.filter_cons_of_pos (by simp [Std.ReflCmp.compare_self]),
          List.filter_cons_of_pos (by simp [htie])] at hties
        exact (List.cons.inj hties).1
      subst hfirst
      rw [ih h.of_cons hl' hm']

/-- **Sorting moves nothing past what it ties with.** -/
theorem areAlike_mergeSort (l : List α) :
    AreAlike cmp (l.mergeSort fun a b => cmp a b != .gt) l := by
  intro a
  rw [filter_mergeSort Path.bne_gt_trans Path.bne_gt_total]
  -- things that tie with `a` tie with each other
  have htie : ∀ b ∈ l.filter (fun b => cmp a b = .eq), cmp a b = .eq :=
    fun b hb => of_decide_eq_true (List.mem_filter.mp hb).2
  refine List.mergeSort_of_pairwise (List.pairwise_of_forall_mem_list fun b hb c hc => ?_)
  have hbc : cmp b c = .eq :=
    Std.TransCmp.eq_trans (Std.OrientedCmp.eq_comm.mp (htie b hb)) (htie c hc)
  rw [hbc]
  rfl

theorem pairwise_mergeSort_ne_gt (l : List α) :
    (l.mergeSort fun a b => cmp a b != .gt).Pairwise fun a b => cmp a b ≠ .gt := by
  simpa using List.pairwise_mergeSort Path.bne_gt_trans Path.bne_gt_total l

/-- Sorting does not see how two rows that are alike differ. -/
theorem AreAlike.mergeSort_eq (h : AreAlike cmp l m) :
    (l.mergeSort fun a b => cmp a b != .gt) = m.mergeSort fun a b => cmp a b != .gt := by
  have halike := ((areAlike_mergeSort l).trans h).trans (areAlike_mergeSort m).symm
  exact halike.eq_of_pairwise (pairwise_mergeSort_ne_gt l) (pairwise_mergeSort_ne_gt m)

/-- There is one stable sort. -/
theorem isStableSort_iff {sorted : List α} :
    IsStableSort cmp l sorted ↔ sorted = l.mergeSort fun a b => cmp a b != .gt := by
  constructor
  · intro h
    have halike : AreAlike cmp sorted l := h.stable
    exact (halike.trans (areAlike_mergeSort l).symm).eq_of_pairwise h.ordered
      (pairwise_mergeSort_ne_gt l)
  · rintro rfl
    exact ⟨List.mergeSort_perm l _, pairwise_mergeSort_ne_gt l, areAlike_mergeSort l⟩

end Ties

/-! ## The comparison in words -/

namespace Path

/-- Whether a component stands before another one: the root before a leading `.`, that before
`..`, and all of them before names, which stand in the order of their bytes. -/
def Component.IsBefore (a b : Component) : Prop :=
  a.rank < b.rank ∨ ∃ m n, a = .normal m ∧ b = .normal n ∧ m < n

/-- Rows are compared as words in a dictionary are. -/
theorem compareLex_eq_lt_iff {α : Type} {cmp : α → α → Ordering} [Std.LawfulEqCmp cmp]
    {xs ys : List α} : List.compareLex cmp xs ys = .lt ↔
      List.Lex (fun a b => cmp a b = .lt) xs ys := by
  induction xs generalizing ys with
  | nil => cases ys <;> simp [List.compareLex_nil_nil, List.compareLex_nil_cons]
  | cons x xs ih =>
    cases ys with
    | nil => simp [List.compareLex_cons_nil]
    | cons y ys =>
      rw [List.compareLex_cons_cons, Ordering.then_eq_lt, ih, List.cons_lex_cons_iff,
        Std.LawfulEqCmp.compare_eq_iff_eq]

theorem compareComponents_eq_lt_iff {a b : Component} :
    compareComponents a b = .lt ↔ a.IsBefore b := by
  have hbytes : (fun b c : UInt8 => Ord.compare b c = .lt) = fun b c => b < c :=
    funext fun b => funext fun c => propext Std.compare_eq_lt
  have hnames : List.compareLex Ord.compare a.name b.name = .lt ↔ a.name < b.name := by
    rw [compareLex_eq_lt_iff, hbytes]
    rfl
  have hsplit : compareComponents a b = .lt ↔
      a.rank < b.rank ∨ a.rank = b.rank ∧ a.name < b.name := by
    rw [compareComponents, Ordering.then_eq_lt, Nat.compare_eq_lt, Nat.compare_eq_eq, hnames]
  rw [hsplit, Component.IsBefore]
  cases a <;> cases b <;> simp [Component.rank, Component.name]

theorem compare_eq_lt_iff {p q : Path} :
    Path.compare p q = .lt ↔ List.Lex Component.IsBefore (components p) (components q) := by
  rw [Path.compare, compareLex_eq_lt_iff,
    funext fun a => funext fun b => propext compareComponents_eq_lt_iff]

example : Path.compare "a/b.cs" "a.cs" = .lt ∧ Path.compare "a//b.cs" "a/./b.cs" = .eq := by decide

end Path

namespace Finding

/-- Findings stand by the components of their paths, then by line, then by column. -/
theorem order_eq_lt_iff {f g : Finding} :
    f.order g = .lt ↔
      List.Lex Path.Component.IsBefore (Path.components f.location.file)
          (Path.components g.location.file)
        ∨ Path.components f.location.file = Path.components g.location.file
          ∧ (f.location.line < g.location.line
            ∨ f.location.line = g.location.line ∧ f.location.column < g.location.column) := by
  rw [order, Ordering.then_eq_lt, Ordering.then_eq_lt, Path.compare_eq_lt_iff,
    Path.compare_eq_eq_iff, Nat.compare_eq_lt, Nat.compare_eq_eq, Nat.compare_eq_lt]

theorem order_eq_eq_iff {f g : Finding} :
    f.order g = .eq ↔
      Path.components f.location.file = Path.components g.location.file
        ∧ f.location.line = g.location.line ∧ f.location.column = g.location.column := by
  rw [order, Ordering.then_eq_eq, Ordering.then_eq_eq, Path.compare_eq_eq_iff, Nat.compare_eq_eq,
    Nat.compare_eq_eq]

end Finding

/-! ## Reports -/

/-- **Sorting a report is the stable sort by an order.**  The comparison of findings looks at the
components of their paths, then at their lines, then at their columns.  It takes two findings for
equal exactly if all three are equal, turning it round swaps its answer, and it is total and
transitive.  The sorted findings are those that were reported, in order, with findings that compare
equal as they were reported, and no other row is all of this.  Sorting again changes nothing, and
the number of files stays. -/
theorem Report.sort_is_stable_sort (r : Report) :
    (∀ f g : Finding, f.order g = .lt ↔
        List.Lex Path.Component.IsBefore (Path.components f.location.file)
            (Path.components g.location.file)
          ∨ Path.components f.location.file = Path.components g.location.file
            ∧ (f.location.line < g.location.line
              ∨ f.location.line = g.location.line ∧ f.location.column < g.location.column))
      ∧ (∀ f g : Finding, f.order g = .eq ↔
          Path.components f.location.file = Path.components g.location.file
            ∧ f.location.line = g.location.line ∧ f.location.column = g.location.column)
      ∧ (∀ f g : Finding, g.order f = (f.order g).swap)
      ∧ (∀ f g : Finding, f.order g ≠ .gt ∨ g.order f ≠ .gt)
      ∧ (∀ f g h : Finding, f.order g ≠ .gt → g.order h ≠ .gt → f.order h ≠ .gt)
      ∧ (∀ sorted, IsStableSort Finding.order r.findings sorted ↔ sorted = r.sort.findings)
      ∧ r.sort.sort = r.sort
      ∧ r.sort.filesChecked = r.filesChecked := by
  refine ⟨fun f g => Finding.order_eq_lt_iff, fun f g => Finding.order_eq_eq_iff,
    fun f g => Std.OrientedCmp.eq_swap, ?_, ?_, fun sorted => isStableSort_iff, ?_, rfl⟩
  · intro f g
    have htotal : ((f.order g != .gt) || (g.order f != .gt)) = true := Path.bne_gt_total f g
    simpa using htotal
  · intro f g h
    simp only [ne_eq, ← Ordering.isLE_iff_ne_gt]
    exact Std.TransCmp.isLE_trans
  · have hsorted : IsStableSort Finding.order r.findings r.sort.findings := isStableSort_iff.mpr rfl
    apply Report.sort_eq_self
    simpa [Finding.mayPrecede] using hsorted.ordered

end AggregateAudit
