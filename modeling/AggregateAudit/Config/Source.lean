import AggregateAudit.Config
import AggregateAudit.Log
import AggregateAudit.Workspace

/-!
# Where a configuration comes from

Exactly one file matters: the one that is asked for, whether it exists or not; else
the first that is a file among the two of the analysed directory and the user's own;
else none, and the defaults apply.  The choice looks only at which candidates are
files, so what stands in a file of lower rank cannot matter.
-/

namespace AggregateAudit

/-- Where a configuration comes from. -/
inductive ConfigSource where
  /-- The file that was asked for. -/
  | explicit (path : Path)
  /-- A file of the analysed directory. -/
  | project (path : Path)
  /-- The user's own file. -/
  | user (path : Path)
  | defaults
  deriving DecidableEq

/-- Why a configuration cannot be loaded. -/
inductive ConfigFault where
  | unreadable (path : Path) (fault : FileFault)
  | malformed
  deriving DecidableEq

namespace ConfigFault

def message : ConfigFault → String
  | unreadable path f => "Failed to read config file " ++ path.display ++ ": " ++ f.message
  | malformed => "Failed to parse config: TOML parse error"

/-- The fault and what it comes from, the outermost one first. -/
def chain (f : ConfigFault) : List String :=
  match f with
  | unreadable _ g => [f.message, g.message]
  | malformed => [f.message]

end ConfigFault

namespace ConfigSource

/-- The names of a project's configuration file, the first one first. -/
def projectNames : List Path := ["aggregate-lint.toml", ".aggregate-lint.toml"]

/-- The name of the user's configuration file in its directory. -/
def userName : Path := "config.toml"

/-- The directory of the user's configuration: the one that was set, or one in the
home directory. -/
def userDirectory (w : Workspace) : Option Path :=
  w.configDirectory.or (w.home.map fun home => Path.join home ".aggregate-lint")

/-- The candidates besides a file that is asked for, in order. -/
def candidates (w : Workspace) (directory : Path) : List ConfigSource :=
  projectNames.map (fun name => project (Path.join directory name))
    ++ ((userDirectory w).map fun d => user (Path.join d userName)).toList

/-- The file of a source. -/
def path? : ConfigSource → Option Path
  | explicit p => some p
  | project p => some p
  | user p => some p
  | defaults => none

/-- Whether a candidate is a file. -/
def isPresent (w : Workspace) (s : ConfigSource) : Bool :=
  match s.path? with
  | some p => w.isFile p
  | none => false

/-- The source of the configuration for a directory. -/
def choose (w : Workspace) (directory : Path) (asked : Option Path) : ConfigSource :=
  match asked with
  | some path => explicit path
  | none => ((candidates w directory).find? (isPresent w)).getD defaults

/-- What the log says of a choice. -/
def log : ConfigSource → List LogLine
  | project p => [.detail ("Found project config: " ++ p.display)]
  | user p =>
    [.detail ("Found global config: " ++ p.display), .notice ("Using global config: " ++ p.display)]
  | _ => []

/-- The configuration of a source. -/
def load (w : Workspace) (s : ConfigSource) : Except ConfigFault Config :=
  match s.path? with
  | none => .ok {}
  | some path =>
    match w.readText path with
    | .error f => .error (.unreadable path f)
    | .ok text =>
      match Config.parse? text with
      | some c => .ok c
      | none => .error .malformed

end ConfigSource
end AggregateAudit
