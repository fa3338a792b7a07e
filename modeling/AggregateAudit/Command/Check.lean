import AggregateAudit.Analysis
import AggregateAudit.Command.Arguments
import AggregateAudit.Command.Outcome
import AggregateAudit.Config.Source

/-!
# Checking a directory

A check chooses a configuration, decides which rules are active, analyses the path
it was given and prints the report.  Its exit status is one if the report has errors
or the check fails, and zero otherwise.
-/

namespace AggregateAudit
namespace Command

/-! ## Active rules -/

/-- The selectors in a filter: its pieces between commas, without the white space
around them. -/
def selectors (filter : String) : List String :=
  (filter.toList.splitOn ',').map fun piece => String.ofList (Text.trim piece)

/-- The rules that a filter selects; all, if there is none. -/
def selectedRules (filter : Option String) : List Rule :=
  match filter with
  | some f => Rule.select (selectors f)
  | none => Rule.all

/-- Whether a configuration lets a rule run. -/
def isActive (c : Config) (r : Rule) : Bool := c.isRuleEnabled r.info.name r.info.code

/-- The rules that run: those that are selected and not switched off. -/
def activeRules (c : Config) (filter : Option String) : List Rule :=
  (selectedRules filter).filter (isActive c)

/-- What the log says of the choice of rules. -/
def ruleLog (c : Config) (filter : Option String) : List LogLine :=
  let unknown :=
    match filter with
    | some f => Rule.unknown (selectors f)
    | none => []
  unknown.map (fun s => LogLine.warning ("Unknown rule: " ++ s))
    ++ ((selectedRules filter).filter fun r => !isActive c r).map fun r =>
      LogLine.detail ("Skipping disabled rule: " ++ r.info.name)

/-! ## The check -/

/-- The file of a finding, as a check reads it again. -/
def sourceOf (w : Workspace) (root : Path) (f : Finding) : Except FileFault String :=
  w.readText (Path.join root f.location.file)

/-- What the log says of files that cannot be read again. -/
def sourceLog (w : Workspace) (root : Path) (r : Report) : List LogLine :=
  r.findings.filterMap fun f =>
    match sourceOf w root f with
    | .ok _ => none
    | .error fault =>
      some (.detail
        ("Cannot attach source for " ++ f.location.file.display ++ ": " ++ fault.message))

/-- The analysis that a check runs. -/
def analysisOf (w : Workspace) (o : CheckOptions) (c : Config) : Except AnalysisFault Analysis :=
  Analysis.build w.directory
    { root := some o.path
      engine := { rules := activeRules c o.rules }
      exclude := o.exclude
      config := c
      userIgnore := Ignore.userFile w
      directoryFault := w.directoryFault
      workerFault := w.workerFault }

/-- A check with a configuration. -/
def checkWith (w : Workspace) (o : CheckOptions) (c : Config) : Outcome :=
  let rules := ruleLog c o.rules
  match analysisOf w o c with
  | .error f =>
    { exit := 1, log := rules, workspace := w
      failure := some ⟨"Failed to build analyzer", f.chain⟩ }
  | .ok a =>
    let start :=
      LogLine.notice
        ("Analyzing " ++ o.path.quoted ++ " with " ++ toString a.engine.rules.length ++ " rules")
    let run := a.run w.tree
    let log := rules ++ [start] ++ run.log
    match run.result with
    | .error f => { exit := 1, log, failure := some ⟨"Analysis failed", f.chain⟩, workspace := w }
    | .ok r =>
      let root := a.search.root
      match r.print o.format fun f => (sourceOf w root f).toOption with
      | .error f => { exit := 1, log, failure := some ⟨f.message, []⟩, workspace := w }
      | .ok printed =>
        { exit := if r.hasErrors then 1 else 0
          printed := printed
          log := log ++ (if o.format = .pretty then sourceLog w root r else [])
          workspace := w }

/-- Runs a check. -/
def check (w : Workspace) (o : CheckOptions) (config : Option Path) : Outcome :=
  let source := ConfigSource.choose w o.path config
  match source.load w with
  | .error f =>
    { exit := 1
      log := source.log
      failure := some ⟨"Failed to load config: " ++ (source.path?.getD "").display, f.chain⟩
      workspace := w }
  | .ok c =>
    let rest := checkWith w o c
    { rest with log := source.log ++ rest.log }

end Command
end AggregateAudit
