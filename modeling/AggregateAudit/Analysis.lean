import AggregateAudit.Config
import AggregateAudit.Discovery
import AggregateAudit.Log
import AggregateAudit.Report
import AggregateAudit.Source.Extraction
import AggregateAudit.Text.Quoted

/-!
# Analyses

An analysis looks for source files, reads each of them, and asks the rules about
every declaration in it.  It is a function of the file tree and of what the system
grants.  A configuration may ask for a number of workers, and the system may refuse to
start them; apart from that the number has no influence on what is found.

A file that cannot be read is left out with a warning, or, in a strict analysis,
ends it.  A file with syntax errors counts like others; the rules see the
declarations that can be made out.
-/

namespace AggregateAudit

/-- What an analysis is set up from.  What is given here counts before the
configuration. -/
structure AnalysisOptions where
  root : Option Path := none
  engine : Engine := {}
  exclude : List String := []
  config : Config := {}
  respectGitignore : Option Bool := none
  failOnParseError : Option Bool := none
  /-- How many workers read files. -/
  parallelism : Option Nat := none
  /-- The user's own ignore file. -/
  userIgnore : Ignore.IgnoreFile := {}
  /-- Why the system does not tell the path of the working directory, if it does not. -/
  directoryFault : Option FileFault := none
  /-- Why the system does not start a number of workers, if it does not. -/
  workerFault : Nat → Option String := fun _ => none

/-- An analysis that is ready to run. -/
structure Analysis where
  search : Search
  engine : Engine
  /-- Whether a file that cannot be read ends the analysis. -/
  strict : Bool
  /-- How many workers are started to read files.  If nothing is said, those read them that
  are there anyway. -/
  parallelism : Option Nat := none
  /-- Why the system does not start a number of workers, if it does not. -/
  workerFault : Nat → Option String := fun _ => none

/-- Why an analysis fails. -/
inductive AnalysisFault where
  /-- The working directory cannot be told. -/
  | directory (fault : FileFault)
  | badPattern (fault : Glob.Fault)
  | walk (fault : WalkFault)
  /-- The workers cannot be started, and what the system says. -/
  | workers (reason : String)
  | unreadable (path : Path) (fault : FileFault)
  deriving DecidableEq

namespace AnalysisFault

def message : AnalysisFault → String
  | directory f => "IO error: " ++ f.message
  | badPattern f => "Invalid glob pattern: " ++ f.message
  | walk f => "Walk error: " ++ f.message
  | workers reason => "Failed to build thread pool: " ++ reason
  | unreadable path f => "Parse error in " ++ path.display ++ ": " ++ f.message

/-- The fault and what it comes from, the outermost one first. -/
def chain (f : AnalysisFault) : List String :=
  match f with
  | directory g => [f.message, g.message]
  | badPattern g => [f.message, g.message]
  | walk g => [f.message, g.message]
  | workers reason => [f.message, reason, reason]
  | unreadable .. => [f.message]

end AnalysisFault

/-- A source file and what came of reading it. -/
structure FileOutcome where
  /-- The full path. -/
  path : Path
  content : Except FileFault Source.SourceUnit

/-- What a run leaves behind: its log, and a value or a fault. -/
structure Run (ε α : Type) where
  log : List LogLine
  result : Except ε α

namespace Analysis

/-- The root of an analysis in a working directory.  Only a root that is not absolute
needs the path of that directory. -/
def rootIn (cwd : Path) (o : AnalysisOptions) : Except AnalysisFault Path :=
  let root := o.root.getD o.config.analyzer.root
  match Path.isAbsolute root, o.directoryFault with
  | false, some f => .error (.directory f)
  | _, _ => .ok (Path.join cwd root)

/-- Sets up an analysis in a working directory.  The root comes first.  Then come the
patterns of the options, and those of the configuration behind them, and the first
faulty one is the fault. -/
def build (cwd : Path) (o : AnalysisOptions) : Except AnalysisFault Analysis :=
  let settings := o.config.analyzer
  match rootIn cwd o, Exclusion.parseAll (o.exclude ++ settings.exclude) with
  | .error f, _ => .error f
  | .ok _, .error f => .error (.badPattern f)
  | .ok root, .ok exclusions =>
    .ok
      { search :=
          { root := root
            exclusions := exclusions
            respectGitignore := o.respectGitignore.getD settings.respectGitignore
            cwd := cwd
            -- the user's ignore file sees paths from the working directory
            userIgnore := if o.directoryFault.isSome then {} else o.userIgnore }
        engine := o.engine
        strict := o.failOnParseError.getD settings.failOnParseError
        parallelism := o.parallelism.or settings.parallelism
        workerFault := o.workerFault }

/-- Why the workers that are asked for are not started, if they are not. -/
def refusal? (a : Analysis) : Option String := a.parallelism.bind a.workerFault

/-- Reads a file that was found. -/
def read (a : Analysis) (t : FileTree) (file : Path) : FileOutcome :=
  let path := a.search.fullPath file
  ⟨path, (t.readText a.search.cwd path).map (Source.extract file)⟩

/-- What the rules find in a file; nothing, if it cannot be read. -/
def findingsIn (a : Analysis) (o : FileOutcome) : List Finding :=
  match o.content with
  | .ok u => a.engine.visitAll u.types
  | .error _ => []

/-- The files that cannot be read, with the reason. -/
def failures (outcomes : List FileOutcome) : List (Path × FileFault) :=
  outcomes.filterMap fun o =>
    match o.content with
    | .ok _ => none
    | .error f => some (o.path, f)

/-- The report on files that were read. -/
def report (a : Analysis) (outcomes : List FileOutcome) : Report :=
  Report.sort
    { findings := outcomes.flatMap a.findingsIn
      filesChecked := outcomes.countP fun o => o.content.toBool }

/-- The files with syntax errors. -/
def suspects (outcomes : List FileOutcome) : List Path :=
  outcomes.filterMap fun o =>
    match o.content with
    | .ok u => if u.hasSyntaxErrors then some u.file else none
    | .error _ => none

/-- What came of the files that were found. -/
def conclude (a : Analysis) (outcomes : List FileOutcome) : Run AnalysisFault Report :=
  let fails := failures outcomes
  let shown := if a.strict then fails.take 1 else fails
  let log :=
    (suspects outcomes).map
        (fun f => LogLine.warning
          ("Syntax errors in " ++ f.display ++ "; analyzing recoverable declarations"))
      ++ shown.map fun f =>
        LogLine.warning ("Failed to parse " ++ f.1.display ++ ": " ++ f.2.message)
  match a.strict, fails with
  | true, (path, f) :: _ => ⟨log, .error (.unreadable path f)⟩
  | _, _ =>
    let r := a.report outcomes
    let last :=
      "Analysis complete: " ++ toString r.findings.length ++ " findings in "
        ++ toString r.filesChecked ++ " files"
    ⟨log ++ [.notice last], .ok r⟩

/-- Runs an analysis. -/
def run (a : Analysis) (t : FileTree) : Run AnalysisFault Report :=
  let start := [LogLine.notice ("Starting analysis at " ++ a.search.root.quoted)]
  match a.search.run t with
  | .error f => ⟨start, .error (.walk f)⟩
  | .ok found =>
    let detail (word : String) (file : Path) : LogLine :=
      .detail (word ++ (a.search.fullPath file).display)
    let search :=
      start ++ found.excluded.map (detail "Excluding: ")
        ++ [.notice ("Found " ++ toString found.files.length ++ " C# files to analyze")]
    match a.refusal? with
    | some reason => ⟨search, .error (.workers reason)⟩
    | none =>
      let rest := a.conclude (found.files.map (a.read t))
      ⟨search ++ found.files.map (detail "Analyzing: ") ++ rest.log, rest.result⟩

end Analysis
end AggregateAudit
