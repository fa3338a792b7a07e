import AggregateAudit.Finding

/-!
# Reports

A report is what a run leaves behind: the findings in the order they came, and
how many files were checked.  Reports can be merged and sorted.  Sorting orders
by file, line and column and is stable, so findings about one declaration keep
the order in which the rules made them.
-/

namespace AggregateAudit

/-- The findings of a run and the number of files it checked. -/
structure Report where
  findings : List Finding := []
  filesChecked : Nat := 0
  deriving DecidableEq

namespace Finding

/-- Findings compare by the path of their file, then by line, then by column. -/
def order (f g : Finding) : Ordering :=
  (Path.compare f.location.file g.location.file).then
    ((Ord.compare f.location.line g.location.line).then
      (Ord.compare f.location.column g.location.column))

/-- Whether a finding may stand in front of another one. -/
def mayPrecede (f g : Finding) : Bool := f.order g != .gt

end Finding

namespace Report

/-- Whether a run with this report has failed. -/
def hasErrors (r : Report) : Bool := r.findings.any fun f => f.severity = .error

/-- How many findings have the given severity. -/
def count (r : Report) (s : Severity) : Nat := r.findings.countP fun f => f.severity = s

/-- Adds findings at the end. -/
def add (r : Report) (fs : List Finding) : Report := { r with findings := r.findings ++ fs }

/-- The report with its findings in order. -/
def sort (r : Report) : Report := { r with findings := r.findings.mergeSort Finding.mayPrecede }

/-- Puts the findings of a second report behind those of the first.  The number of
files is kept in a word of 64 bits. -/
def extend (r other : Report) : Report where
  findings := r.findings ++ other.findings
  filesChecked := (r.filesChecked + other.filesChecked) % 18446744073709551616

end Report
end AggregateAudit
