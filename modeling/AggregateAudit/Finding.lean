import AggregateAudit.Path

/-!
# Findings

A finding is one complaint about one declaration: which rule made it, how grave
it is, where the declaration stands, what is wrong and, usually, what to do about
it.  Findings are plain values.  Whoever produces one hands it over and keeps
nothing, so a list of findings is all that passes between the parts of this
library.

Two renderings live here.  `Finding.line` is the one-line form that compact
output and the session log use.  `Finding.diagnostic` is the form that framed
reports are drawn from: a message that carries the rule's code, one labelled
span, and the hint.
-/

namespace AggregateAudit

/-- How grave a finding is.  Only `error` makes a run fail. -/
inductive Severity where
  | info
  | warning
  | error
  deriving DecidableEq

namespace Severity

/-- The word that stands for a severity in every output format. -/
def word : Severity → String
  | info => "info"
  | warning => "warning"
  | error => "error"

/-- Reads a severity back from its word.  The words are case-sensitive. -/
def ofWord? : String → Option Severity
  | "info" => some info
  | "warning" => some warning
  | "error" => some error
  | _ => none

@[simp] theorem ofWord?_word (s : Severity) : ofWord? s.word = some s := by
  cases s <;> rfl

end Severity

/-- Where a declaration stands in a file.  Lines and columns count from one when
they come from a source text; `column`, `offset` and `length` count bytes of the
UTF-8 form of the text. -/
structure Location where
  file : Path := ""
  line : Nat := 0
  column : Nat := 0
  offset : Nat := 0
  length : Nat := 0
  deriving DecidableEq

/-- A violation of one rule by one declaration. -/
structure Finding where
  /-- The rule's code, such as `AG0001`. -/
  code : String
  /-- The rule's name, such as `empty-constructor`. -/
  rule : String
  severity : Severity
  /-- The span of the offending declaration. -/
  location : Location
  message : String
  /-- How to mend the declaration, if the rule knows. -/
  help : Option String := none
  deriving DecidableEq

/-- A labelled stretch of source text, as framed reports underline it. -/
structure Label where
  text : String
  offset : Nat
  length : Nat
  deriving DecidableEq

/-- What a framed report shows of a finding. -/
structure Diagnostic where
  message : String
  help : Option String
  label : Label
  deriving DecidableEq

namespace Finding

/-- The finding in one line: `file:line:column: severity [code] message`. -/
def line (f : Finding) : String :=
  f.location.file.display ++ ":" ++ toString f.location.line ++ ":" ++ toString f.location.column
    ++ ": " ++ f.severity.word ++ " [" ++ f.code ++ "] " ++ f.message

/-- The diagnostic of a finding: the message is led by the code, and the label
that marks the declaration's span is the rule's name. -/
def diagnostic (f : Finding) : Diagnostic where
  message := "[" ++ f.code ++ "] " ++ f.message
  help := f.help
  label := ⟨f.rule, f.location.offset, f.location.length⟩

end Finding
end AggregateAudit
