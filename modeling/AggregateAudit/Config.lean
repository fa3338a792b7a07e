import AggregateAudit.Rule.Catalog
import AggregateAudit.Toml.Reader

/-!
# Configuration

A configuration says how files are found and which rules run.  It is written in
TOML, every part of it is optional, and what it does not know it ignores.  The
two records in it may be written as tables, or as arrays that hold their fields in
order; fields that are missing at the end take their defaults.

A rule is switched by its name or by its code.  An explicit switch under the name
counts before one under the code, and a rule without a switch runs.
-/

namespace AggregateAudit

/-- How files are found and read. -/
structure AnalyzerSettings where
  root : String := "."
  exclude : List String := ["**/bin/**", "**/obj/**"]
  respectGitignore : Bool := true
  failOnParseError : Bool := false
  /-- The number of workers, if it is fixed. -/
  parallelism : Option Nat := none
  deriving DecidableEq

/-- What a configuration says about one rule. -/
structure RuleSettings where
  enabled : Option Bool := none
  deriving DecidableEq

/-- A configuration. -/
structure Config where
  analyzer : AnalyzerSettings := {}
  /-- The settings of rules, by name or code. -/
  rules : List (String × RuleSettings) := []
  deriving DecidableEq

namespace Config

/-- The explicit switch under a key, if there is one. -/
def switch? (c : Config) (key : String) : Option Bool :=
  (Toml.lookup key c.rules).bind (·.enabled)

/-- Whether a rule runs. -/
def isRuleEnabled (c : Config) (name code : String) : Bool :=
  ((c.switch? name).or (c.switch? code)).getD true

end Config

/-! ## Decoding -/

namespace Toml
namespace Value

/-- The fields of a record that is written as a table, or as an array of the
fields in the given order.  A date is a record without any of the fields. -/
def fields? (names : List String) : Value → Option (List (String × Value))
  | table entries => some entries
  | array items => some (names.zip items)
  | datetime _ => some []
  | _ => none

def string? : Value → Option String
  | string s => some s
  | _ => none

def boolean? : Value → Option Bool
  | boolean b => some b
  | _ => none

/-- A number that is not negative. -/
def natural? : Value → Option Nat
  | integer n => if 0 ≤ n then some n.toNat else none
  | _ => none

/-- An array of strings. -/
def strings? : Value → Option (List String)
  | array items => items.mapM string?
  | _ => none

end Value

/-- The field under a key, decoded, or a default if there is no such field. -/
def field {α : Type} (entries : List (String × Value)) (key : String)
    (decode : Value → Option α) (default : α) : Option α :=
  match lookup key entries with
  | none => some default
  | some v => decode v

end Toml

/-- The names of the analyzer's settings, in the order in which an array gives
them. -/
def AnalyzerSettings.fieldNames : List String :=
  ["root", "exclude", "respect_gitignore", "fail_on_parse_error", "parallelism"]

/-- The analyzer's settings that a value describes. -/
def AnalyzerSettings.ofToml? (v : Toml.Value) : Option AnalyzerSettings := do
  let fs ← v.fields? fieldNames
  let defaults : AnalyzerSettings := {}
  let root ← Toml.field fs "root" Toml.Value.string? defaults.root
  let exclude ← Toml.field fs "exclude" Toml.Value.strings? defaults.exclude
  let respectGitignore ←
    Toml.field fs "respect_gitignore" Toml.Value.boolean? defaults.respectGitignore
  let failOnParseError ←
    Toml.field fs "fail_on_parse_error" Toml.Value.boolean? defaults.failOnParseError
  let parallelism ←
    Toml.field fs "parallelism" (fun w => w.natural?.map some) defaults.parallelism
  some { root, exclude, respectGitignore, failOnParseError, parallelism }

/-- The settings of a rule that a value describes. -/
def RuleSettings.ofToml? (v : Toml.Value) : Option RuleSettings := do
  let fs ← v.fields? ["enabled"]
  let enabled ← Toml.field fs "enabled" (fun w => w.boolean?.map some) none
  some { enabled }

/-- The settings of all rules that a value describes: a table of settings. -/
def RuleSettings.mapOfToml? : Toml.Value → Option (List (String × RuleSettings))
  | .table entries => entries.mapM fun e => (RuleSettings.ofToml? e.2).map (e.1, ·)
  | _ => none

/-- The configuration that a document describes. -/
def Config.ofToml? (entries : List (String × Toml.Value)) : Option Config := do
  let analyzer ← Toml.field entries "analyzer" AnalyzerSettings.ofToml? {}
  let rules ← Toml.field entries "rules" RuleSettings.mapOfToml? []
  some { analyzer, rules }

/-- The configuration that a text describes. -/
def Config.parse? (text : String) : Option Config := (Toml.read? text).bind Config.ofToml?

end AggregateAudit
