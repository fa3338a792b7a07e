import AggregateAudit.Report.Encoding
import AggregateAudit.Report.Frame

/-!
# Formats of a report

A report is printed in one of four formats: text with colours for people, JSON,
compact lines for other programs, and framed findings.  Text and framed findings end
with a summary, whose colour tells whether the run failed.  Paths are printed as they are
shown, but JSON needs their text, and where there is none nothing is printed.
-/

namespace AggregateAudit

/-- How a report is printed. -/
inductive Format where
  | text
  | json
  | compact
  | pretty
  deriving DecidableEq

namespace Format

def word : Format → String
  | text => "text"
  | json => "json"
  | compact => "compact"
  | pretty => "pretty"

/-- Reads a format back from its word. -/
def ofWord? : String → Option Format
  | "text" => some text
  | "json" => some json
  | "compact" => some compact
  | "pretty" => some pretty
  | _ => none

@[simp] theorem ofWord?_word (f : Format) : ofWord? f.word = some f := by
  cases f <;> rfl

end Format

/-- The colours of a terminal. -/
inductive Colour where
  | red
  | green
  | yellow
  | blue
  deriving DecidableEq

namespace Colour

def code : Colour → String
  | red => "31"
  | green => "32"
  | yellow => "33"
  | blue => "34"

/-- A text in a colour. -/
def paint (c : Colour) (text : String) : String :=
  "\x1b[" ++ c.code ++ "m" ++ text ++ "\x1b[0m"

end Colour

/-- The colour of a severity. -/
def Severity.colour : Severity → Colour
  | .error => .red
  | .warning => .yellow
  | .info => .blue

/-- Why a report cannot be printed. -/
inductive PrintFault where
  /-- Some path is no text. -/
  | notText
  deriving DecidableEq

def PrintFault.message : PrintFault → String
  | notText => "path contains invalid UTF-8 characters"

namespace Report

/-- The summary of a report in one line: red if it has errors, yellow if it has
warnings, green otherwise. -/
def summary (r : Report) : String :=
  let errors := r.count .error
  let warnings := r.count .warning
  let colour : Colour := if 0 < errors then .red else if 0 < warnings then .yellow else .green
  colour.paint
    ("Found " ++ toString errors ++ " error(s), " ++ toString warnings ++ " warning(s), "
      ++ toString (r.count .info) ++ " info(s) in " ++ toString r.filesChecked ++ " file(s)")

/-- A finding as a block of lines. -/
def textBlock (f : Finding) : List String :=
  [f.code ++ " " ++ f.rule ++ " at " ++ f.location.file.display ++ ":" ++ toString f.location.line
      ++ ":" ++ toString f.location.column,
    "  " ++ f.severity.colour.paint f.severity.word ++ ": " ++ f.message]
    ++ (f.help.map fun help => "  = help: " ++ help).toList ++ [""]

def text (r : Report) : String := Text.unlines (r.findings.flatMap textBlock ++ [r.summary])

def json (r : Report) : Except PrintFault String :=
  match r.toJson? with
  | some v => .ok (Text.unlines [v.pretty])
  | none => .error .notText

def compact (r : Report) : String := Text.unlines (r.findings.map Finding.line)

/-- Framed findings.  `source` answers with the text of a finding's file. -/
def pretty (r : Report) (source : Finding → Option String) : String :=
  Text.unlines (r.findings.flatMap (fun f => Frame.finding f (source f) ++ [""]) ++ [r.summary])

/-- A report in a format. -/
def print (r : Report) (format : Format) (source : Finding → Option String) :
    Except PrintFault String :=
  match format with
  | .text => .ok r.text
  | .json => r.json
  | .compact => .ok r.compact
  | .pretty => .ok (r.pretty source)

end Report
end AggregateAudit
