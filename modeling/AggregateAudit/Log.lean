import AggregateAudit.Text.Quoted

/-!
# Log lines

What a run tells beside its result: notices, warnings, and details that only a
verbose run shows.  Lines are values, in the order in which they are written.

A log is read in terminals, so the characters that a terminal could take for a
command are written by their numbers.
-/

namespace AggregateAudit

/-- How important a log line is. -/
inductive LogLevel where
  | detail
  | notice
  | warning
  deriving DecidableEq

/-- The word that a log line begins with. -/
def LogLevel.word : LogLevel → String
  | detail => "DEBUG"
  | notice => "INFO"
  | warning => "WARN"

/-- A line of the log. -/
structure LogLine where
  level : LogLevel
  text : String
  deriving DecidableEq

namespace LogLine

def detail (text : String) : LogLine := ⟨.detail, text⟩

def notice (text : String) : LogLine := ⟨.notice, text⟩

def warning (text : String) : LogLine := ⟨.warning, text⟩

/-- Whether a run shows a line: details only if it is verbose. -/
def isShown (verbose : Bool) (l : LogLine) : Bool := verbose || l.level ≠ .detail

/-- A character of a log line.  The commands of one byte that terminals obey are
written with two digits, those of the second block of controls by their number. -/
def harmless (c : Char) : List Char :=
  if [0x07, 0x08, 0x0C, 0x1B, 0x7F].contains c.toNat then
    ['\\', 'x'] ++ (if c.toNat < 0x10 then ['0'] else []) ++ Text.hexDigits c.toNat
  else if 0x80 ≤ c.toNat && c.toNat < 0xA0 then Text.numberedChar c
  else [c]

/-- The text of a line as it is written. -/
def message (l : LogLine) : String := String.ofList (l.text.toList.flatMap harmless)

/-- The line as it is written. -/
def line (l : LogLine) : String := l.level.word ++ " " ++ l.message

end LogLine
end AggregateAudit
