import AggregateAudit.Proofs.RunResult
import AggregateAudit.Proofs.WellNamed
import Mathlib.Data.List.Nodup

/-!
# The courses that a run can take

An analysis is a function of the tree, but what runs is not: the system lists the
entries of directories in any order it likes, and the workers that read files finish
when they finish.  A `Course` fixes both orders, and `Course.result` is what a run comes
to that goes this way.  It sorts what the walk has yielded by full paths, starts one
task for each file, lets every task put its outcome into the slot of its file, and
concludes from the slots when all tasks have finished.  A run takes a course if the workers
that it asks for are started.

`Analysis.result_course` says that nothing of this shows.  Two things have to be seen for
that.  Sorting different paths leaves no choice, so it undoes whatever order the walk
has had (`Search.gather_eq`); and the slots depend on which tasks have finished but not
on when (`slotsAfter`, kept by `deliver_slotsAfter` at every step), so they undo whatever
order the tasks have had (`collect_eq`).
-/

namespace AggregateAudit

/-! ## What the walk yields -/

namespace Search

/-- The files to analyse, of those that a walk has yielded, sorted by full paths. -/
def gather (s : Search) (yielded : List Path) : List Path :=
  (yielded.filter fun p => !s.isExcluded p).mergeSort fun p q =>
    Discovery.mayPrecede (s.fullPath p) (s.fullPath q)

/-- The files to analyse, of those that were found, sorted by their paths below the
root. -/
def ordered (s : Search) (found : List Path) : List Path :=
  (found.filter fun p => !s.isExcluded p).mergeSort Discovery.mayPrecede

theorem mem_ordered {s : Search} {found : List Path} {p : Path} :
    p ∈ s.ordered found ↔ p ∈ found ∧ s.isExcluded p = false := by
  rw [ordered, List.mem_mergeSort, List.mem_filter, Bool.not_eq_true']

/-- Two paths that may stand before each other are the same path. -/
theorem components_eq_of_mayPrecede {p q : Path} (hpq : Discovery.mayPrecede p q = true)
    (hqp : Discovery.mayPrecede q p = true) : Path.components p = Path.components q := by
  have hswap : Path.compare q p = (Path.compare p q).swap := Std.OrientedCmp.eq_swap
  rw [Discovery.mayPrecede, bne_iff_ne] at hpq hqp
  rw [← Path.compare_eq_eq_iff]
  rw [hswap] at hqp
  cases h : Path.compare p q with
  | lt => exact absurd (by rw [h]; rfl) hqp
  | eq => rfl
  | gt => exact absurd h hpq

/-- Different files have different paths, whichever of them comes first. -/
theorem eq_of_components_eq {found : List Path} (h : Discovery.AreFiles found)
    {p q : Path} (hp : p ∈ found) (hq : q ∈ found)
    (heq : Path.components p = Path.components q) : p = q := by
  have hnodup : (found.map Path.components).Nodup := List.pairwise_map.mpr h.distinct
  exact List.inj_on_of_nodup_map hnodup hp hq heq

/-- The files come in the strict order of their paths. -/
theorem ordered_increasing {s : Search} {found : List Path} (h : Discovery.AreFiles found) :
    (s.ordered found).Pairwise fun p q => Path.compare p q = .lt := by
  have hsorted : (s.ordered found).Pairwise fun p q => Discovery.mayPrecede p q = true :=
    List.pairwise_mergeSort Path.bne_gt_trans Path.bne_gt_total _
  have hdistinct : (s.ordered found).Pairwise fun p q => Path.components p ≠ Path.components q :=
    ((List.mergeSort_perm _ _).pairwise_iff fun hne heq => hne heq.symm).mpr
      (h.distinct.filter _)
  refine hsorted.imp₂ ?_ hdistinct
  intro p q hle hne
  rw [Discovery.mayPrecede, bne_iff_ne] at hle
  cases hpq : Path.compare p q with
  | lt => rfl
  | eq => exact absurd (Path.compare_eq_eq_iff.mp hpq) hne
  | gt => exact absurd hpq hle

/-- **Whatever the walk yields first, the same files come in the same order.** -/
theorem gather_eq {s : Search} {found yielded : List Path} (h : Discovery.AreFiles found)
    (hyielded : yielded.Perm found) : s.gather yielded = s.ordered found := by
  have hperm : (s.gather yielded).Perm (s.ordered found) := by
    rw [gather, ordered]
    exact ((List.mergeSort_perm _ _).trans (hyielded.filter _)).trans (List.mergeSort_perm _ _).symm
  have hmem : ∀ p ∈ s.ordered found, p ∈ found := fun p hp => (mem_ordered.mp hp).1
  -- both are sorted by paths below the root, and that order leaves no choice
  have hgather : (s.gather yielded).Pairwise fun p q => Discovery.mayPrecede p q = true := by
    have hfull : (s.gather yielded).Pairwise fun p q =>
        Discovery.mayPrecede (s.fullPath p) (s.fullPath q) = true :=
      List.pairwise_mergeSort (fun a b c => Path.bne_gt_trans _ _ _)
        (fun a b => Path.bne_gt_total _ _) _
    refine hfull.imp_of_mem ?_
    intro p q hp hq hpq
    rwa [Discovery.mayPrecede, s.compare_fullPath h (hmem p (hperm.mem_iff.mp hp))
      (hmem q (hperm.mem_iff.mp hq))] at hpq
  refine List.Perm.eq_of_pairwise ?_ hgather
    (List.pairwise_mergeSort Path.bne_gt_trans Path.bne_gt_total _) hperm
  intro p q hp hq hpq hqp
  exact eq_of_components_eq h (hmem p (hperm.mem_iff.mp hp)) (hmem q hq)
    (components_eq_of_mayPrecede hpq hqp)

theorem run_eq (s : Search) (t : FileTree) :
    s.run t = (s.candidates t).map fun found =>
      { files := s.ordered found, excluded := found.filter s.isExcluded } := rfl

end Search

/-! ## What the workers hand in -/

section Slots

variable {α : Type}

/-- A task finishes: its result goes into its slot. -/
def deliver (results : List α) (slots : List (Option α)) (task : Nat) : List (Option α) :=
  slots.set task results[task]?

/-- What is in the slots when the tasks have finished in the given order. -/
def collect (results : List α) (finished : List Nat) : List α :=
  (finished.foldl (deliver results) (List.replicate results.length none)).filterMap id

/-- The slots when some tasks have finished: theirs are full and the others are empty. -/
def slotsAfter (results : List α) (finished : List Nat) : List (Option α) :=
  (List.range results.length).map fun i => if i ∈ finished then results[i]? else none

/-- When one more task finishes, its slot is full as well. -/
theorem deliver_slotsAfter (results : List α) (finished : List Nat) (task : Nat) :
    deliver results (slotsAfter results finished) task = slotsAfter results (task :: finished) := by
  apply List.ext_getElem
  · simp [deliver, slotsAfter]
  · intro i h₁ h₂
    simp only [deliver, slotsAfter, List.getElem_set, List.getElem_map, List.getElem_range,
      List.mem_cons]
    by_cases hi : task = i
    · simp [hi]
    · simp [hi, Ne.symm hi]

/-- Only which tasks have finished is seen in the slots. -/
theorem foldl_deliver (results : List α) (finished done : List Nat) :
    finished.foldl (deliver results) (slotsAfter results done) =
      slotsAfter results (finished.reverse ++ done) := by
  induction finished generalizing done with
  | nil => rfl
  | cons task finished ih =>
    rw [List.foldl_cons, deliver_slotsAfter, ih, List.reverse_cons, List.append_assoc]
    rfl

/-- **When all tasks have finished, the results are in the order of the tasks**, in
whatever order they came. -/
theorem collect_eq {results : List α} {finished : List Nat}
    (h : finished.Perm (List.range results.length)) : collect results finished = results := by
  have hempty : List.replicate results.length none = slotsAfter results [] := by
    simp [slotsAfter, List.map_const']
  have hfull : slotsAfter results (finished.reverse ++ []) = results.map some := by
    apply List.ext_getElem
    · simp [slotsAfter]
    · intro i h₁ h₂
      have hi : i ∈ finished := h.mem_iff.mpr (List.mem_range.mpr (by simpa [slotsAfter] using h₁))
      simp only [slotsAfter, List.getElem_map, List.getElem_range, List.append_nil,
        List.mem_reverse, if_pos hi]
      exact List.getElem?_eq_getElem _
  rw [collect, hempty, foldl_deliver, hfull, List.filterMap_map]
  exact List.filterMap_some

end Slots

/-! ## Courses -/

/-- One course that a run on a tree can take, of which a walk finds the given files. -/
structure Course (a : Analysis) (t : FileTree) (found : List Path) where
  /-- The files in the order in which the walk yields them. -/
  yielded : List Path
  yields : yielded.Perm found
  /-- The tasks in the order in which they finish, one for each file to analyse. -/
  finished : List Nat
  finishes : finished.Perm (List.range (a.search.gather yielded).length)

/-- Everything can come in order. -/
instance (a : Analysis) (t : FileTree) (found : List Path) : Nonempty (Course a t found) :=
  ⟨⟨found, .refl found, List.range _, .refl _⟩⟩

/-- What a run comes to that takes a course. -/
def Course.result {a : Analysis} {t : FileTree} {found : List Path} (c : Course a t found) :
    Except AnalysisFault Report :=
  (a.conclude (collect ((a.search.gather c.yielded).map (a.read t)) c.finished)).result

namespace Analysis

variable {a : Analysis} {t : FileTree} {found : List Path}

theorem run_result_of_candidates (hworkers : a.refusal? = none)
    (h : a.search.candidates t = .ok found) :
    (a.run t).result = (a.conclude ((a.search.ordered found).map (a.read t))).result := by
  rw [run_result, Search.run_eq, h, hworkers]
  rfl

/-- **Every course leads to the same result.** -/
theorem result_course (hfiles : Discovery.AreFiles found) (hworkers : a.refusal? = none)
    (h : a.search.candidates t = .ok found) (c : Course a t found) :
    c.result = (a.run t).result := by
  have hall : c.finished.Perm
      (List.range ((a.search.gather c.yielded).map (a.read t)).length) := by
    rw [List.length_map]
    exact c.finishes
  rw [Course.result, collect_eq hall, Search.gather_eq hfiles c.yields,
    run_result_of_candidates hworkers h]

end Analysis
end AggregateAudit
