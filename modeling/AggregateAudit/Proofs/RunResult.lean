import AggregateAudit.Analysis

/-!
# What a run comes to

A run leaves a log and a result.  What is said about runs is nearly always about the
result, so this file reads it off once, step by step: what setting up leads to
(`Analysis.build_eq`), what a run makes of the files it has read
(`Analysis.conclude_result`), what it makes of a tree (`Analysis.run_result`), and what
setting it up and running it makes of a tree (`AnalysisOptions.analyze`).
-/

namespace AggregateAudit

namespace AnalysisOptions

/-- The root as it is given, in the options or in the configuration. -/
def givenRoot (o : AnalysisOptions) : Path := o.root.getD o.config.analyzer.root

/-- Why the root cannot be told, if it cannot: it is seen from the working directory, whose path
the system does not tell. -/
def lost? (o : AnalysisOptions) : Option FileFault :=
  if Path.isAbsolute o.givenRoot then none else o.directoryFault

/-- How files are searched that nothing excludes. -/
def search (o : AnalysisOptions) (cwd : Path) : Search where
  root := Path.join cwd o.givenRoot
  respectGitignore := o.respectGitignore.getD o.config.analyzer.respectGitignore
  cwd := cwd
  userIgnore := if o.directoryFault.isSome then {} else o.userIgnore

/-- Whether a file that cannot be read ends the analysis. -/
def isStrict (o : AnalysisOptions) : Bool :=
  o.failOnParseError.getD o.config.analyzer.failOnParseError

/-- How many workers are asked for. -/
def workers (o : AnalysisOptions) : Option Nat :=
  o.parallelism.or o.config.analyzer.parallelism

/-- The analysis with some exclusions. -/
def excluding (o : AnalysisOptions) (cwd : Path) (es : List Exclusion) : Analysis where
  search := { o.search cwd with exclusions := es }
  engine := o.engine
  strict := o.isStrict
  parallelism := o.workers
  workerFault := o.workerFault

end AnalysisOptions

namespace Analysis

theorem rootIn_eq (cwd : Path) (o : AnalysisOptions) :
    rootIn cwd o =
      match o.lost? with
      | some f => .error (.directory f)
      | none => .ok (Path.join cwd o.givenRoot) := by
  rw [rootIn, AnalysisOptions.lost?, AnalysisOptions.givenRoot]
  cases Path.isAbsolute (o.root.getD o.config.analyzer.root) with
  | true => rfl
  | false => cases o.directoryFault <;> rfl

/-- **Setting up** is seeing the root and reading the patterns, those of the options first. -/
theorem build_eq (cwd : Path) (o : AnalysisOptions) :
    build cwd o =
      match o.lost?, Exclusion.parseAll (o.exclude ++ o.config.analyzer.exclude) with
      | some f, _ => .error (.directory f)
      | none, .error f => .error (.badPattern f)
      | none, .ok es => .ok (o.excluding cwd es) := by
  rw [build, rootIn_eq]
  cases o.lost? with
  | some f => rfl
  | none => cases Exclusion.parseAll (o.exclude ++ o.config.analyzer.exclude) <;> rfl

/-- What has been set up is the analysis of the options with some exclusions. -/
theorem exists_excluding_of_build {cwd : Path} {o : AnalysisOptions} {a : Analysis}
    (h : build cwd o = .ok a) : ∃ es, a = o.excluding cwd es := by
  rw [build_eq] at h
  split at h
  · cases h
  · cases h
  · exact ⟨_, (Except.ok.inj h).symm⟩

/-- A strict analysis fails with the first file that cannot be read; apart from that
there is a report. -/
theorem conclude_result (a : Analysis) (outcomes : List FileOutcome) :
    (a.conclude outcomes).result =
      match a.strict, failures outcomes with
      | true, (path, f) :: _ => .error (.unreadable path f)
      | _, _ => .ok (a.report outcomes) := by
  rw [conclude]
  cases a.strict with
  | false => rfl
  | true =>
    cases failures outcomes with
    | nil => rfl
    | cons fail fails => rfl

/-- An analysis that is not strict always comes to a report. -/
theorem conclude_result_of_lenient {a : Analysis} (h : a.strict = false)
    (outcomes : List FileOutcome) : (a.conclude outcomes).result = .ok (a.report outcomes) := by
  rw [conclude_result, h]

/-- A run fails if files cannot be looked for or workers cannot be started, in this order;
apart from that the files decide. -/
theorem run_result (a : Analysis) (t : FileTree) :
    (a.run t).result =
      match a.search.run t, a.refusal? with
      | .error f, _ => .error (.walk f)
      | .ok _, some reason => .error (.workers reason)
      | .ok found, none => (a.conclude (found.files.map (a.read t))).result := by
  rw [run]
  cases a.search.run t with
  | error f => rfl
  | ok found => cases a.refusal? <;> rfl

end Analysis

/-- What comes of setting up an analysis in a working directory and running it. -/
def AnalysisOptions.analyze (o : AnalysisOptions) (cwd : Path) (t : FileTree) :
    Except AnalysisFault Report :=
  match Analysis.build cwd o with
  | .error f => .error f
  | .ok a => (a.run t).result

end AggregateAudit
