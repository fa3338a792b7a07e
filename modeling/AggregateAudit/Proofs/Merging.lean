import AggregateAudit.Proofs.SortedFindings

/-!
# Merging reports in parts

Findings may be reported to several reports which are merged in the end, some of them sorted on
the way.  This file says that it makes no difference: as long as the parts are merged in the order
in which they came, sorting the last report gives what sorting a single one would have given
(`Report.Assembly.findings_sort_report`).

Sorting early moves findings, so the reports on the way are not the same.  They are alike, though:
neither sorting nor merging changes the order of findings that compare equal
(`Report.Assembly.areAlike_report`, by induction on the way in which they are put together), and
the last sort sees no more than that.
-/

namespace AggregateAudit
namespace Report

/-- A report to which findings have been reported, one after the other. -/
def reported (fs : List Finding) (filesChecked : Nat) : Report :=
  fs.foldl (fun r f => r.add [f]) { filesChecked }

/-- Findings that are added one by one are added in their order. -/
theorem foldl_add (fs : List Finding) (r : Report) :
    fs.foldl (fun r f => r.add [f]) r = r.add fs := by
  induction fs generalizing r with
  | nil => simp [add]
  | cons f fs ih =>
    rw [List.foldl_cons, ih]
    simp [add]

theorem findings_reported (fs : List Finding) (filesChecked : Nat) :
    (reported fs filesChecked).findings = fs := by
  rw [reported, foldl_add, add, List.nil_append]

/-- A way of putting a report together. -/
inductive Assembly where
  /-- Findings are reported, and files counted. -/
  | part (findings : List Finding) (filesChecked : Nat)
  /-- The second report is put behind the first one. -/
  | merged (left right : Assembly)
  /-- The report is sorted on the way. -/
  | sorted (a : Assembly)

namespace Assembly

/-- The report that is put together. -/
def report : Assembly → Report
  | part fs n => reported fs n
  | merged a b => a.report.extend b.report
  | sorted a => a.report.sort

/-- The rows of findings that are reported to one report each, from left to right. -/
def parts : Assembly → List (List Finding)
  | part fs _ => [fs]
  | merged a b => a.parts ++ b.parts
  | sorted a => a.parts

/-- Sorting and merging leave findings that compare equal as they were reported. -/
theorem areAlike_report (a : Assembly) :
    AreAlike Finding.order a.report.findings a.parts.flatten := by
  induction a with
  | part fs n =>
    intro f
    rw [report, findings_reported, parts, List.flatten_singleton]
  | merged a b iha ihb =>
    rw [parts, List.flatten_append]
    exact iha.append ihb
  | sorted a ih => exact (areAlike_mergeSort a.report.findings).trans ih

/-- **Merging by parts is reporting at once.**  However a sequence of findings is cut into reports,
in whatever tree these are merged from left to right, and whichever of the reports on the way are
sorted: in the end, sorting gives the same findings as reporting the whole sequence to one report
and sorting that. -/
theorem findings_sort_report (a : Assembly) (filesChecked : Nat) :
    a.report.sort.findings = (reported a.parts.flatten filesChecked).sort.findings := by
  have halike : AreAlike Finding.order a.report.findings
      (reported a.parts.flatten filesChecked).findings := by
    rw [findings_reported]
    exact a.areAlike_report
  exact halike.mergeSort_eq

end Assembly
end Report
end AggregateAudit
