import AggregateAudit.Command.Check
import AggregateAudit.Proofs.DecisionTree
import AggregateAudit.Proofs.RunResult
import AggregateAudit.Proofs.StableSort

/-!
# Rules do not interfere

A filter and a configuration choose some of the rules.  Running with the chosen ones
is running with all of them and throwing the other findings away: not one finding is
lost, made up or moved, and a run that fails fails in the same way.

The statement compares two runs, and it is carried through the program layer by layer
with one equation for each layer: the choice of rules is a filter on the catalogue
(`activeRules_eq_filter`), so asking about one declaration is filtering by code
(`Engine.check_filter`), so is a walk through a forest, so is a file, and the sort at
the end does not mind (`Report.findings_sort_filter`).  No layer looks at which rules
there are, except the lowest one, and there it is used that a rule puts its own code
on its findings and that no two rules share a code.
-/

namespace AggregateAudit

/-! ## One declaration -/

/-- A rule of the catalogue signs its findings with its code. -/
theorem Rule.code_of_mem_check {r : Rule} (hr : r ∈ Rule.all) {accepts : Matcher}
    {d : Declaration} {f : Finding} (hf : f ∈ r.check accepts d) : f.code = r.info.code := by
  rw [Rule.eq_finding_of_mem_check hr hf]
  rfl

/-- The code of a rule of the catalogue is among those of some of its rules exactly if
the rule is. -/
theorem Rule.code_mem_filter_iff {r : Rule} (hr : r ∈ Rule.all) (keep : Rule → Bool) :
    r.info.code ∈ (Rule.all.filter keep).map (·.info.code) ↔ keep r = true := by
  rw [List.mem_map]
  constructor
  · rintro ⟨s, hs, hcode⟩
    obtain ⟨hs, hkeep⟩ := List.mem_filter.mp hs
    rwa [Rule.eq_of_code_eq hs hr hcode] at hkeep
  · exact fun h => ⟨r, List.mem_filter.mpr ⟨hr, h⟩, rfl⟩

/-- The findings with one of the given codes. -/
def withCodes (codes : List String) (fs : List Finding) : List Finding :=
  fs.filter fun f => codes.contains f.code

theorem withCodes_flatMap {α : Type} (codes : List String) (l : List α) (g : α → List Finding) :
    withCodes codes (l.flatMap g) = l.flatMap fun a => withCodes codes (g a) :=
  List.filter_flatMap

/-- Of a rule's findings either all stay or none does. -/
theorem Rule.withCodes_check {r : Rule} (hr : r ∈ Rule.all) (keep : Rule → Bool)
    (accepts : Matcher) (d : Declaration) :
    withCodes ((Rule.all.filter keep).map (·.info.code)) (r.check accepts d) =
      if keep r then r.check accepts d else [] := by
  have hcode : ∀ f ∈ r.check accepts d,
      ((Rule.all.filter keep).map (·.info.code)).contains f.code = keep r := by
    intro f hf
    rw [Rule.code_of_mem_check hr hf, Bool.eq_iff_iff, List.contains_iff_mem,
      Rule.code_mem_filter_iff hr]
  rw [withCodes, List.filter_congr hcode]
  cases keep r with
  | true => simp
  | false => simp

/-- Asking some rules about a declaration is asking all of them and keeping the
findings with their codes. -/
theorem Engine.check_filter (keep : Rule → Bool) (accepts : Matcher) (d : Declaration) :
    Engine.check { rules := Rule.all.filter keep, matcher := accepts } d =
      withCodes ((Rule.all.filter keep).map (·.info.code))
        (Engine.check { rules := Rule.all, matcher := accepts } d) := by
  have hsplit : ∀ rules : List Rule, (rules.filter keep).flatMap (fun r => r.check accepts d) =
      rules.flatMap fun r => if keep r then r.check accepts d else [] := by
    intro rules
    induction rules with
    | nil => rfl
    | cons r rules ih => cases hr : keep r <;> simp [hr, ih]
  rw [Engine.check, Engine.check, withCodes_flatMap, hsplit]
  exact List.flatMap_congr fun r hr => (Rule.withCodes_check hr keep accepts d).symm

/-! ## Forests and files -/

/-- Two engines, of which the first finds what the second one finds under some codes. -/
def Engine.Thins (e full : Engine) (codes : List String) : Prop :=
  ∀ d, e.check d = withCodes codes (full.check d)

namespace Engine.Thins

variable {e full : Engine} {codes : List String}

theorem visitAll (h : e.Thins full codes) (forest : List TypeDeclaration) :
    e.visitAll forest = withCodes codes (full.visitAll forest) := by
  rw [visitAll_eq_flatMap, visitAll_eq_flatMap, withCodes_flatMap]
  exact List.flatMap_congr fun d _ => h d

end Engine.Thins

/-- The report with the findings under the given codes alone. -/
def Report.restrict (codes : List String) (r : Report) : Report :=
  { r with findings := withCodes codes r.findings }

theorem Report.sort_restrict (codes : List String) (r : Report) :
    (r.restrict codes).sort = r.sort.restrict codes := by
  have h := Report.findings_sort_filter (fun f => codes.contains f.code) r
  rw [Report.restrict, Report.restrict, withCodes, withCodes, ← h]
  rfl

namespace Analysis

variable {a full : Analysis} {codes : List String}

theorem findingsIn_thins (h : a.engine.Thins full.engine codes) (o : FileOutcome) :
    a.findingsIn o = withCodes codes (full.findingsIn o) := by
  rw [findingsIn, findingsIn]
  cases o.content with
  | ok u => exact h.visitAll u.types
  | error f => rfl

theorem report_thins (h : a.engine.Thins full.engine codes) (outcomes : List FileOutcome) :
    a.report outcomes = (full.report outcomes).restrict codes := by
  rw [report, report, ← Report.sort_restrict, Report.restrict, withCodes_flatMap]
  congr 2
  exact List.flatMap_congr fun o _ => findingsIn_thins h o

/-- What comes of the files is restricted; the choice of rules has no part in whether
the run fails. -/
theorem conclude_thins (h : a.engine.Thins full.engine codes) (hstrict : a.strict = full.strict)
    (outcomes : List FileOutcome) :
    (a.conclude outcomes).result = (full.conclude outcomes).result.map (Report.restrict codes) := by
  rw [conclude_result, conclude_result, hstrict, report_thins h]
  cases full.strict with
  | false => rfl
  | true =>
    cases failures outcomes with
    | nil => rfl
    | cons fail fails => rfl

/-- Two analyses that look for the same files with the same workers and treat them alike, one
with fewer rules than the other, come to the same fault or to the same report, restricted. -/
theorem run_thins (h : a.engine.Thins full.engine codes) (hstrict : a.strict = full.strict)
    (hsearch : a.search = full.search) (hworkers : a.refusal? = full.refusal?) (t : FileTree) :
    (a.run t).result = (full.run t).result.map (Report.restrict codes) := by
  have hread : a.read t = full.read t := by
    funext file
    rw [read, read, hsearch]
  rw [run_result, run_result, hsearch, hworkers]
  cases full.search.run t with
  | error f => rfl
  | ok found =>
    cases full.refusal? with
    | some reason => rfl
    | none =>
      dsimp only
      rw [hread, conclude_thins h hstrict]

end Analysis

/-! ## Whole runs -/

/-- Setting up with other rules sets up the same analysis with other rules, or fails in
the same way. -/
theorem Analysis.build_engine (cwd : Path) (o : AnalysisOptions) (e : Engine) :
    Analysis.build cwd { o with engine := e } =
      (Analysis.build cwd o).map fun a => { a with engine := e } := by
  have hlost : { o with engine := e }.lost? = o.lost? := rfl
  rw [build_eq, build_eq, hlost]
  cases o.lost? with
  | some f => rfl
  | none => cases Exclusion.parseAll (o.exclude ++ o.config.analyzer.exclude) <;> rfl

theorem AnalysisOptions.analyze_thins {e full : Engine} {codes : List String}
    (h : e.Thins full codes) (o : AnalysisOptions) (cwd : Path) (t : FileTree) :
    analyze { o with engine := e } cwd t =
      (analyze { o with engine := full } cwd t).map (Report.restrict codes) := by
  rw [analyze, analyze, Analysis.build_engine cwd o e, Analysis.build_engine cwd o full]
  cases Analysis.build cwd o with
  | error f => rfl
  | ok a =>
    let chosen : Analysis := { a with engine := e }
    let every : Analysis := { a with engine := full }
    have h' : chosen.engine.Thins every.engine codes := h
    exact Analysis.run_thins h' rfl rfl rfl t

/-- Whatever the filter and the configuration say, the active rules are some of the
rules of the catalogue, in its order. -/
theorem Command.activeRules_eq_filter (c : Config) (filter : Option String) :
    ∃ keep, activeRules c filter = Rule.all.filter keep := by
  cases filter with
  | none => exact ⟨isActive c, rfl⟩
  | some f =>
    refine ⟨fun r => isActive c r && (selectors f).any r.isNamedBy, ?_⟩
    rw [activeRules, selectedRules, Rule.select, List.filter_filter]

/-- What the analysis of a check looks at: its rules, its working directory and its path. -/
theorem Command.of_analysisOf_eq_ok {w : Workspace} {o : CheckOptions} {c : Config}
    {a : Analysis} (h : analysisOf w o c = .ok a) :
    a.engine.rules = activeRules c o.rules
      ∧ a.search.cwd = w.directory ∧ a.search.root = w.absolute o.path := by
  obtain ⟨es, rfl⟩ := Analysis.exists_excluding_of_build h
  exact ⟨rfl, rfl, rfl⟩

/-- Whatever chooses the rules of a check, they are rules of the catalogue. -/
theorem Command.rules_mem_all {w : Workspace} {o : CheckOptions} {c : Config} {a : Analysis}
    (h : analysisOf w o c = .ok a) : ∀ rule ∈ a.engine.rules, rule ∈ Rule.all := by
  obtain ⟨keep, hkeep⟩ := activeRules_eq_filter c o.rules
  rw [(of_analysisOf_eq_ok h).1, hkeep]
  exact fun rule hrule => (List.mem_filter.mp hrule).1

/-- **Rules do not interfere.**  For every tree, every set-up, every configuration and
filter that choose the active rules, and every matcher: the analysis with the active
rules and the one with all rules fail with the same fault, or both succeed, have
checked the same number of files, and the findings of the first are those findings of
the second that bear the code of an active rule, in the same order. -/
theorem Command.analyze_activeRules (t : FileTree) (cwd : Path) (o : AnalysisOptions)
    (c : Config) (filter : Option String) (accepts : Matcher) :
    let codes := (activeRules c filter).map (·.info.code)
    let active := { o with engine := { rules := activeRules c filter, matcher := accepts } }
    let full := { o with engine := { rules := Rule.all, matcher := accepts } }
    (∃ fault, active.analyze cwd t = .error fault ∧ full.analyze cwd t = .error fault) ∨
      ∃ part whole, active.analyze cwd t = .ok part ∧ full.analyze cwd t = .ok whole
        ∧ part.filesChecked = whole.filesChecked
        ∧ part.findings = whole.findings.filter fun f => codes.contains f.code := by
  intro codes active full
  obtain ⟨keep, hkeep⟩ := activeRules_eq_filter c filter
  have hthins : active.engine.Thins full.engine codes := by
    intro d
    simp only [active, full, codes, hkeep]
    exact Engine.check_filter keep accepts d
  have hanalyze : active.analyze cwd t = (full.analyze cwd t).map (Report.restrict codes) :=
    AnalysisOptions.analyze_thins hthins o cwd t
  cases hfull : full.analyze cwd t with
  | error fault =>
    rw [hfull] at hanalyze
    exact .inl ⟨fault, hanalyze, rfl⟩
  | ok whole =>
    rw [hfull] at hanalyze
    exact .inr ⟨whole.restrict codes, whole, hanalyze, rfl, rfl, rfl⟩

end AggregateAudit
