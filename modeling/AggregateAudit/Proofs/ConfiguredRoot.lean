import AggregateAudit.Proofs.Composition
import AggregateAudit.Proofs.ReportJson
import AggregateAudit.Proofs.RuleIndependence

/-!
# The configured root

A configuration names a root, and an analysis that is set up without one looks there.  A
check is set up with one: it hands on its path, and a command line without a path has the
path `.`, so there is always something to hand on.  What follows is said in both
directions here.

* The root of the configuration has no influence on a check (`checkWith_withRoot`); what is
  analysed is what the configuration would name if it named the path of the check
  (`analysisOf_eq_build_withRoot`).
* A check and an analysis of the configured root are the same analysis exactly if the two
  paths are the same seen from the working directory, or if there is no analysis because a
  pattern is faulty or because the working directory, which both need, cannot be told
  (`analysisOf_eq_build_iff`).

So the default configuration, whose root is `.`, hides the difference, and every
configuration that names another one shows it.
-/

namespace AggregateAudit

/-- The configuration with another root. -/
def Config.withRoot (c : Config) (root : String) : Config :=
  { c with analyzer := { c.analyzer with root } }

/-- Sorting does not change whether a run has failed. -/
theorem Report.hasErrors_sort (r : Report) : r.sort.hasErrors = r.hasErrors :=
  (List.mergeSort_perm r.findings Finding.mayPrecede).any_eq

namespace Command

variable (w : Workspace) (o : CheckOptions) (c : Config)

/-- What the analysis of a check is set up from when no root is handed on, so that the one
of the configuration counts. -/
def rootless : AnalysisOptions where
  engine := { rules := activeRules c o.rules }
  exclude := o.exclude
  config := c
  userIgnore := Ignore.userFile w
  directoryFault := w.directoryFault
  workerFault := w.workerFault

/-- What the analysis of a check is set up from: its path is handed on. -/
def rooted : AnalysisOptions := { rootless w o c with root := some o.path }

theorem analysisOf_eq_build : analysisOf w o c = Analysis.build w.directory (rooted w o c) := rfl

/-- What the analysis of a check comes to. -/
def analyzed : Except AnalysisFault Report := (rooted w o c).analyze w.directory w.tree

/-- The exit status for what an analysis comes to. -/
def exitOf : Except AnalysisFault Report → Nat
  | .ok r => if r.hasErrors then 1 else 0
  | .error _ => 1

/-- A check ends with the status for what its analysis comes to.  If its report cannot be printed
then there are findings, and the check fails as it would have done. -/
theorem exit_checkWith : (checkWith w o c).exit = exitOf (analyzed w o c) := by
  rw [checkWith, analyzed, AnalysisOptions.analyze, ← analysisOf_eq_build]
  cases ha : analysisOf w o c with
  | error f => rfl
  | ok a =>
    dsimp only
    cases hr : (a.run w.tree).result with
    | error f => rfl
    | ok r =>
      dsimp only
      cases hprint : r.print o.format fun f => (sourceOf w a.search.root f).toOption with
      | ok printed => rfl
      | error fault =>
        obtain ⟨f, hf, -⟩ := Report.exists_mem_of_print_eq_error hprint
        have hseverity := Analysis.severity_of_mem (rules_mem_all ha) hr hf
        have herrors : r.hasErrors = true :=
          List.any_eq_true.mpr ⟨f, hf, decide_eq_true hseverity⟩
        rw [exitOf, if_pos herrors]

/-! ## The path counts -/

/-- **A check analyses its path**, as if the configuration named it. -/
theorem analysisOf_eq_build_withRoot {root : String} (h : o.path = root) :
    analysisOf w o c = Analysis.build w.directory (rootless w o (c.withRoot root)) := by
  rw [analysisOf, h]
  rfl

theorem analysisOf_withRoot (root : String) :
    analysisOf w o (c.withRoot root) = analysisOf w o c := rfl

/-- **The root of the configuration has no influence on a check.** -/
theorem checkWith_withRoot (root : String) :
    checkWith w o (c.withRoot root) = checkWith w o c := by
  rw [checkWith, analysisOf_withRoot, checkWith]
  rfl

/-- The two analyses are the same exactly if their roots are, or if neither exists. -/
theorem analysisOf_eq_build_iff :
    analysisOf w o c = Analysis.build w.directory (rootless w o c) ↔
      (rooted w o c).lost? = (rootless w o c).lost?
        ∧ ((rooted w o c).lost? ≠ none
          ∨ (∃ f, Exclusion.parseAll (o.exclude ++ c.analyzer.exclude) = .error f)
          ∨ Path.join w.directory o.path = Path.join w.directory c.analyzer.root) := by
  have hexclude : (rooted w o c).exclude ++ (rooted w o c).config.analyzer.exclude =
      o.exclude ++ c.analyzer.exclude := rfl
  have hexclude' : (rootless w o c).exclude ++ (rootless w o c).config.analyzer.exclude =
      o.exclude ++ c.analyzer.exclude := rfl
  rw [analysisOf_eq_build, Analysis.build_eq, Analysis.build_eq, hexclude, hexclude']
  cases (rooted w o c).lost? with
  | some f =>
    cases (rootless w o c).lost? with
    | some g => simp
    | none => cases Exclusion.parseAll (o.exclude ++ c.analyzer.exclude) <;> simp
  | none =>
    cases (rootless w o c).lost? with
    | some g => cases Exclusion.parseAll (o.exclude ++ c.analyzer.exclude) <;> simp
    | none =>
      cases Exclusion.parseAll (o.exclude ++ c.analyzer.exclude) with
      | error f => simp
      | ok exclusions =>
        constructor
        · intro h
          exact ⟨rfl, .inr (.inr (congrArg (fun a : Analysis => a.search.root) (Except.ok.inj h)))⟩
        · rintro ⟨-, h | ⟨f, hf⟩ | h⟩
          · exact absurd rfl h
          · cases hf
          · have hroot : Path.join w.directory (rooted w o c).givenRoot =
                Path.join w.directory (rootless w o c).givenRoot := h
            unfold AnalysisOptions.excluding AnalysisOptions.search
            rw [hroot]
            rfl

/-- **A check looks at its path and never at the configured root.**  For every workspace,
command line and configuration: another root in the configuration makes no difference to
the outcome; the check exits with the status for what the analysis of a configuration that
names the path would come to; and that analysis is the one of the configured root exactly
if both are the same path seen from the working directory, or a pattern is faulty, or neither
can be seen from there. -/
theorem check_disregards_configured_root :
    (∀ root, checkWith w o (c.withRoot root) = checkWith w o c)
      ∧ (∀ root : String, o.path = root → (checkWith w o c).exit =
        exitOf ((rootless w o (c.withRoot root)).analyze w.directory w.tree))
      ∧ (analysisOf w o c = Analysis.build w.directory (rootless w o c) ↔
        (rooted w o c).lost? = (rootless w o c).lost?
          ∧ ((rooted w o c).lost? ≠ none
            ∨ (∃ f, Exclusion.parseAll (o.exclude ++ c.analyzer.exclude) = .error f)
            ∨ Path.join w.directory o.path = Path.join w.directory c.analyzer.root)) := by
  refine ⟨checkWith_withRoot w o c, ?_, analysisOf_eq_build_iff w o c⟩
  intro root hroot
  rw [exit_checkWith, analyzed, AnalysisOptions.analyze, AnalysisOptions.analyze,
    ← analysisOf_eq_build_withRoot w o c hroot]
  rfl

/-- A project that asks for its directory `src` to be analysed, in which there is nothing
to report, and that has a file beside it: the check reports that file and fails. -/
theorem check_of_root_elsewhere :
    let w : Workspace := { tree := ⟨
      [("aggregate-lint.toml", .file "[analyzer]\nroot = \"src\"\nexclude = []\n".toUTF8),
        ("a.cs", .file "class AggregateA { AggregateA() { } }".toUTF8),
        ("src", .directory [("b.cs", .file "class B { }".toUTF8)])]⟩ }
    let c : Config := { analyzer := { root := "src", exclude := [] } }
    (ConfigSource.choose w "." none).load w = .ok c
      ∧ (check w {} none).exit = 1
      ∧ (rootless w {} c).analyze w.directory w.tree = .ok ⟨[], 1⟩
      ∧ exitOf (.ok ⟨[], 1⟩) = 0 := by
  intro w c
  have hload : (ConfigSource.choose w "." none).load w = .ok c := by decide +kernel
  let analysis (root : Path) : Analysis :=
    { search := { root := Path.join w.directory root, userIgnore := Ignore.userFile w }
      engine := { rules := activeRules c none }
      strict := false }
  refine ⟨hload, ?_, ?_, rfl⟩
  · have hexit : (check w {} none).exit = exitOf (analyzed w {} c) := by
      rw [check, hload, ← exit_checkWith]
    have hanalyzed : analyzed w {} c = ((analysis ".").run w.tree).result := rfl
    have hfound : (analysis ".").search.candidates w.tree = .ok ["a.cs", "src/b.cs"] := by
      decide +kernel
    rw [hexit, hanalyzed, Analysis.run_result_eq_texts rfl rfl hfound, exitOf,
      Report.hasErrors_sort, if_pos]
    rw [Report.hasErrors, List.any_flatMap, List.any_eq_true]
    refine ⟨(Path.ofString "a.cs", "class AggregateA { AggregateA() { } }"),
      Analysis.mem_texts.mpr ⟨?_, ?_⟩, ?_⟩
    · exact Search.mem_ordered.mpr ⟨by decide, rfl⟩
    · decide +kernel
    · decide +kernel
  · have hanalyzed : (rootless w {} c).analyze w.directory w.tree =
        ((analysis "src").run w.tree).result := rfl
    have hfound : (analysis "src").search.candidates w.tree = .ok ["b.cs"] := by decide +kernel
    have hordered : (analysis "src").search.ordered ["b.cs"] = [Path.ofString "b.cs"] :=
      List.mergeSort_singleton _
    have htexts : (analysis "src").texts w.tree ["b.cs"] =
        [(Path.ofString "b.cs", "class B { }")] := by
      decide +kernel
    have hnone : (analysis "src").engine.findingsInText "b.cs" "class B { }" = [] := by
      decide +kernel
    rw [hanalyzed, Analysis.run_result_eq_texts rfl rfl hfound, hordered, htexts,
      List.flatMap_singleton, hnone]
    simp [Report.sort]

end Command
end AggregateAudit
