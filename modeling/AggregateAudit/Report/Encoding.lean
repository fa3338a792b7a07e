import AggregateAudit.Json.Reader
import AggregateAudit.Report

/-!
# Reports as JSON

A report is written as an object with its findings and the number of files; a
finding without a hint has no `help` member.  Reading is lenient about what it
does not need and strict about what it does: unknown members are ignored, a
missing hint may also be written as null, and every other member must be there
with its type.  Numbers are natural numbers below 2^64.  A record may also be
given as an array of its members in their order, and a severity as an object
whose only member has the severity's word as its key and null as its value.

JSON is text, so a report on a file whose path is no text cannot be written.
-/

namespace AggregateAudit

/-- The numbers of a report fit into a word of this many values. -/
def wordSize : Nat := 18446744073709551616

/-- A location as JSON, if its file has a text for a path. -/
def Location.toJson? (l : Location) : Option Json := do
  let file ← l.file.text?
  some (.object
    [("file", .string file), ("line", .natural l.line), ("column", .natural l.column),
      ("offset", .natural l.offset), ("length", .natural l.length)])

/-- A finding as JSON, if its location can be written. -/
def Finding.toJson? (f : Finding) : Option Json := do
  let location ← f.location.toJson?
  some (.object
    ([("code", .string f.code), ("rule", .string f.rule), ("severity", .string f.severity.word),
        ("location", location), ("message", .string f.message)]
      ++ match f.help with
        | some h => [("help", .string h)]
        | none => []))

/-- A report as JSON, if all its findings can be written. -/
def Report.toJson? (r : Report) : Option Json := do
  let findings ← r.findings.mapM Finding.toJson?
  some (.object [("findings", .array findings), ("files_checked", .natural r.filesChecked)])

/-! ## Reading -/

namespace Json

/-- A member that must be a string. -/
def stringAt? (v : Json) (key : String) : Option String :=
  match v.get? key with
  | some (.string s) => some s
  | _ => none

/-- A member that must be a natural number below 2^64. -/
def wordAt? (v : Json) (key : String) : Option Nat :=
  match v.get? key with
  | some (.natural n) => if n < wordSize then some n else none
  | _ => none

/-- A member that may be missing or null and must be a string otherwise. -/
def optionalStringAt? (v : Json) (key : String) : Option (Option String) :=
  match v.get? key with
  | none => some none
  | some .null => some none
  | some (.string s) => some (some s)
  | some _ => none

end Json

/-- A value as a record with these keys: an object stands for itself, an array for
its items under the first of the keys. -/
def Json.record? (keys : List String) : Json → Option Json
  | .object members => some (.object members)
  | .array items => if items.length ≤ keys.length then some (.object (keys.zip items)) else none
  | _ => none

/-- The location that a value describes. -/
def Location.ofJson? (v : Json) : Option Location := do
  let r ← v.record? ["file", "line", "column", "offset", "length"]
  let file ← (r.stringAt? "file").map Path.ofString
  let line ← r.wordAt? "line"
  let column ← r.wordAt? "column"
  let offset ← r.wordAt? "offset"
  let length ← r.wordAt? "length"
  some { file, line, column, offset, length }

/-- The severity that a value describes. -/
def Severity.ofJson? : Json → Option Severity
  | .string word => Severity.ofWord? word
  | .object [(word, .null)] => Severity.ofWord? word
  | _ => none

/-- The finding that a value describes. -/
def Finding.ofJson? (v : Json) : Option Finding := do
  let r ← v.record? ["code", "rule", "severity", "location", "message", "help"]
  let code ← r.stringAt? "code"
  let rule ← r.stringAt? "rule"
  let severity ← (r.get? "severity").bind Severity.ofJson?
  let location ← (r.get? "location").bind Location.ofJson?
  let message ← r.stringAt? "message"
  let help ← r.optionalStringAt? "help"
  some { code, rule, severity, location, message, help }

/-- The findings that a value describes. -/
def Finding.listOfJson? : Json → Option (List Finding)
  | .array items => items.mapM Finding.ofJson?
  | _ => none

/-- The report that a value describes. -/
def Report.ofJson? (v : Json) : Option Report := do
  let r ← v.record? ["findings", "files_checked"]
  let findings ← (r.get? "findings").bind Finding.listOfJson?
  let filesChecked ← r.wordAt? "files_checked"
  some { findings, filesChecked }

end AggregateAudit
