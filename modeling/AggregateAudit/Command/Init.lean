import AggregateAudit.Command.Outcome
import AggregateAudit.Config.Source

/-!
# Starting a configuration

`init` writes a configuration file to start from.  It spells out the defaults, so it
changes nothing about a check.  A file that is there already stays, unless it may be
overwritten.
-/

namespace AggregateAudit
namespace Command

/-- The configuration to start from. -/
def template : String := Text.unlines
  ["# aggregate-lint configuration",
    "",
    "[analyzer]",
    "# Root directory to analyze (default: current directory)",
    "# root = \"./src\"",
    "",
    "# Glob patterns to exclude from analysis",
    "exclude = [",
    "    \"**/bin/**\",",
    "    \"**/obj/**\",",
    "]",
    "",
    "# Respect .gitignore files",
    "respect_gitignore = true",
    "",
    "# Abort the run when a file cannot be read or parsed",
    "fail_on_parse_error = false",
    "",
    "# Worker threads for parallel analysis (default: one per core)",
    "# parallelism = 4",
    "",
    "# Rules can be disabled by name or by id. Severities are fixed.",
    "",
    "[rules.empty-constructor]",
    "enabled = true",
    "",
    "[rules.private-parameterized-constructor]",
    "enabled = true",
    "",
    "[rules.public-apply-method]",
    "enabled = true",
    "",
    "[rules.public-default-constructor]",
    "enabled = true"]

/-- The file that is written. -/
def initPath : Path := "aggregate-lint.toml"

/-- Writes the configuration to start from. -/
def init (w : Workspace) (force : Bool) : Outcome :=
  if w.pathExists initPath && !force then
    { exit := 1
      failure :=
        some ⟨"Configuration file already exists at " ++ initPath.display
          ++ ". Use --force to overwrite.", []⟩
      workspace := w }
  else
    match w.writeText initPath template with
    | .error f => { exit := 1, failure := some ⟨f.message, []⟩, workspace := w }
    | .ok written =>
      { printed :=
          Text.unlines
            ["Created aggregate-lint.toml", "", "Next steps:",
              "  1. Edit aggregate-lint.toml to disable rules or add excludes",
              "  2. Run: aggregate-lint check"]
        workspace := written }

end Command
end AggregateAudit
