import AggregateAudit.Proofs.PathOrder

/-!
# What sorting keeps

A report is sorted once, at the end, and the sort is stable.  Two facts about stable
sorting carry what is said about reports elsewhere.

* What is in order already stays as it is.  That is `List.mergeSort_of_pairwise`, and
  `Report.sort_eq_self` reads it on reports.
* Taking some findings away before the sort or after it is the same
  (`filter_mergeSort`).  The argument follows one finding at a time: putting `a` in
  front of a row and sorting inserts `a` into the sorted row, behind everything that
  must stand before it and in front of everything that may stand behind it.  Where
  that place is depends on no other finding, so it is the same place whether or not
  the others have been thinned out.
-/

namespace AggregateAudit

section Thinning

variable {α : Type} {le : α → α → Bool}

/-- A row falls apart in one way only into a front that must stand before `a` and a
rest that need not. -/
theorem append_eq_append_of_split {a : α} {l₁ l₂ m₁ m₂ : List α}
    (h : l₁ ++ l₂ = m₁ ++ m₂) (hl₁ : ∀ b ∈ l₁, (!le a b) = true) (hl₂ : ∀ b ∈ l₂, le a b = true)
    (hm₁ : ∀ b ∈ m₁, (!le a b) = true) (hm₂ : ∀ b ∈ m₂, le a b = true) :
    l₁ = m₁ ∧ l₂ = m₂ := by
  have front : ∀ {xs ys : List α}, (∀ b ∈ xs, (!le a b) = true) → (∀ b ∈ ys, le a b = true) →
      (xs ++ ys).takeWhile (fun b => !le a b) = xs := by
    intro xs ys hxs hys
    rw [List.takeWhile_append_of_pos hxs]
    cases ys with
    | nil => simp
    | cons y ys => simp [hys y List.mem_cons_self]
  have hfront : l₁ = m₁ := by rw [← front hl₁ hl₂, h, front hm₁ hm₂]
  subst hfront
  exact ⟨rfl, List.append_cancel_left h⟩

/-- **Thinning out and stable sorting commute.** -/
theorem filter_mergeSort (trans : ∀ a b c, le a b = true → le b c = true → le a c = true)
    (total : ∀ a b, (le a b || le b a) = true) (keep : α → Bool) (l : List α) :
    (l.mergeSort le).filter keep = (l.filter keep).mergeSort le := by
  -- `l₁` and `l₂` are the sides of `a` in a sorted row: what follows `a` may stand behind it
  have behind : ∀ {row : List α} {a : α} {l₁ l₂ : List α}, row.mergeSort le = l₁ ++ a :: l₂ →
      ∀ b ∈ l₂, le a b = true := by
    intro row a l₁ l₂ h
    have hsorted := List.pairwise_mergeSort trans total row
    rw [h] at hsorted
    exact (List.pairwise_cons.mp (List.pairwise_append.mp hsorted).2.1).1
  induction l with
  | nil => simp
  | cons a l ih =>
    obtain ⟨l₁, l₂, hal, hl, hl₁⟩ := List.mergeSort_cons trans total a l
    have hl₂ := behind hal
    rw [hl, List.filter_append] at ih
    cases ha : keep a with
    | false => rw [hal, List.filter_append, List.filter_cons_of_neg (by simp [ha]), ih,
        List.filter_cons_of_neg (by simp [ha])]
    | true =>
      obtain ⟨m₁, m₂, ham, hm, hm₁⟩ := List.mergeSort_cons trans total a (l.filter keep)
      have hm₂ := behind ham
      obtain ⟨h₁, h₂⟩ := append_eq_append_of_split (ih.trans hm)
        (fun b hb => hl₁ b (List.mem_filter.mp hb).1)
        (fun b hb => hl₂ b (List.mem_filter.mp hb).1) hm₁ hm₂
      rw [hal, List.filter_append, List.filter_cons_of_pos ha, List.filter_cons_of_pos ha, ham,
        h₁, h₂]

end Thinning

namespace Report

/-- Findings that are in order are not moved by sorting. -/
theorem sort_eq_self {r : Report}
    (h : r.findings.Pairwise fun f g => f.mayPrecede g = true) : r.sort = r := by
  rw [sort, List.mergeSort_of_pairwise h]

/-- The findings of some rules, sorted, are the sorted findings without the others. -/
theorem findings_sort_filter (keep : Finding → Bool) (r : Report) :
    (sort { r with findings := r.findings.filter keep }).findings =
      r.sort.findings.filter keep :=
  (filter_mergeSort Path.bne_gt_trans Path.bne_gt_total keep r.findings).symm

end Report
end AggregateAudit
