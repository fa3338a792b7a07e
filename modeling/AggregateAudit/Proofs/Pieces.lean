import AggregateAudit.Text.Search

/-!
# The pieces of a row

Filters are cut at commas, paths at slashes, and both with `List.splitOn`.  This file says what its
pieces are: no piece holds a separator, and the row with one more separator in front is the pieces
with a separator in front of each (`Text.cons_eq_flatMap_splitOn`), so nothing is lost.
-/

namespace AggregateAudit
namespace Text

section Cut

variable {α : Type} [BEq α] [LawfulBEq α] (x : α)

/-- A row with a separator in front is its pieces, each with a separator in front. -/
theorem cons_eq_flatMap_splitOn (s : List α) : x :: s = (s.splitOn x).flatMap (x :: ·) := by
  have hjoin : ∀ pieces : List (List α), pieces ≠ [] →
      x :: [x].intercalate pieces = pieces.flatMap (x :: ·) := by
    intro pieces hne
    induction pieces with
    | nil => exact absurd rfl hne
    | cons piece pieces ih =>
      cases pieces with
      | nil => simp
      | cons next rest => simp [List.intercalate_cons_cons, ← ih (List.cons_ne_nil _ _)]
  rw [← hjoin _ (List.splitOn_ne_nil x s), List.intercalate_splitOn]

variable {x}

/-- No piece holds a separator. -/
theorem notMem_of_mem_splitOn {s piece : List α} (h : piece ∈ s.splitOn x) : x ∉ piece := by
  induction s generalizing piece with
  | nil => simp_all
  | cons c s ih =>
    rw [List.splitOn_cons_eq_if_modifyHead] at h
    split at h
    · rcases List.mem_cons.mp h with rfl | h
      · exact List.not_mem_nil
      · exact ih h
    · next hc =>
      obtain ⟨first, rest, hrest⟩ := List.exists_cons_of_ne_nil (List.splitOn_ne_nil x s)
      rw [hrest] at h ih
      rcases List.mem_cons.mp h with rfl | h
      · have hne : x ≠ c := fun heq => hc (by rw [heq, beq_self_eq_true])
        exact fun hx => (List.mem_cons.mp hx).elim hne (ih List.mem_cons_self)
      · exact ih (List.mem_cons_of_mem _ h)

/-- A row without separators is a piece with another one behind it exactly if it stands
between two separators, where one more is put in front of the row. -/
theorem mem_dropLast_splitOn_iff {piece : List α} (hpiece : x ∉ piece) (s : List α) :
    piece ∈ (s.splitOn x).dropLast ↔ x :: piece ++ [x] <:+: x :: s := by
  constructor
  · intro h
    obtain ⟨before, after, hsplit⟩ := List.append_of_mem h
    have hlast := List.dropLast_concat_getLast (List.splitOn_ne_nil x s)
    rw [cons_eq_flatMap_splitOn x s, ← hlast, hsplit]
    cases after with
    | nil =>
      exact ⟨before.flatMap (x :: ·), (s.splitOn x).getLast (List.splitOn_ne_nil x s), by simp⟩
    | cons next after =>
      exact ⟨before.flatMap (x :: ·),
        next ++ (after ++ [(s.splitOn x).getLast (List.splitOn_ne_nil x s)]).flatMap (x :: ·),
        by simp⟩
  · rintro ⟨before, after, h⟩
    have hcut : [] :: s.splitOn x = before.splitOn x ++ piece :: after.splitOn x := by
      have hrow : [] ++ x :: s = before ++ x :: (piece ++ x :: after) := by rw [← h]; simp
      rw [← List.splitOn_append_cons_self_of_not_mem hpiece, ← List.splitOn_append_cons_self,
        ← hrow, List.splitOn_append_cons_self_of_not_mem List.not_mem_nil]
    obtain ⟨first, rest, hb⟩ := List.exists_cons_of_ne_nil (List.splitOn_ne_nil x before)
    rw [hb, List.cons_append, List.cons.injEq] at hcut
    rw [hcut.2, List.dropLast_append_of_ne_nil (List.cons_ne_nil _ _),
      List.dropLast_cons_of_ne_nil (List.splitOn_ne_nil x after)]
    simp

end Cut

/-- Writing slashes for backslashes makes no difference to the pieces. -/
theorem splitOn_map_slash (s : List Char) :
    (s.map fun c => if c = '\\' then '/' else c).splitOn '/' =
      s.splitOnP fun c => c = '/' || c = '\\' := by
  induction s with
  | nil => rfl
  | cons c s ih =>
    rw [List.map_cons, List.splitOn_cons_eq_if_modifyHead, ih, List.splitOnP_cons_eq_if_modifyHead]
    by_cases hback : c = '\\'
    · simp [hback]
    · simp [hback]

end Text
end AggregateAudit
