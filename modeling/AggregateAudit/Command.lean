import AggregateAudit.Command.Check
import AggregateAudit.Command.Init
import AggregateAudit.Command.ListRules

/-!
# Commands

A command line and a workspace lead to an outcome.  A command line that is refused
ends with the status two and changes nothing.
-/

namespace AggregateAudit
namespace Command

/-- The name of the program and its version. -/
def versionLine : String := "aggregate-lint 0.2.0"

/-- What the program says when it is asked for help. -/
def helpLines : List String :=
  ["Checks event-sourced aggregates in C# code for constructor and Apply conventions",
    "",
    "Usage: aggregate-lint [OPTIONS] <COMMAND>",
    "",
    "Commands:",
    "  check       Run lint checks",
    "  list-rules  List available rules",
    "  init        Initialize configuration file",
    "",
    "Options:",
    "  -v, --verbose          Enable verbose output",
    "  -c, --config <CONFIG>  Path to configuration file",
    "  -h, --help             Print help",
    "  -V, --version          Print version"]

/-- Runs what a command line asks for. -/
def Invocation.run (i : Invocation) (w : Workspace) : Outcome :=
  match i.request with
  | .check options => check w options i.config
  | .listRules => listRules w
  | .init force => init w force

/-- Runs a command line.  The log holds the lines that are shown. -/
def run (arguments : List String) (w : Workspace) : Outcome :=
  match readArguments arguments with
  | .error .help => { printed := Text.unlines helpLines, workspace := w }
  | .error .version => { printed := Text.unlines [versionLine], workspace := w }
  | .error .refused => { exit := 2, workspace := w }
  | .ok i =>
    let o := i.run w
    { o with log := o.log.filter (LogLine.isShown i.verbose) }

end Command
end AggregateAudit
