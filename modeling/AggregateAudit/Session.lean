import AggregateAudit.Report
import AggregateAudit.Rule.Catalog

/-!
# Sessions

A session drives an engine by hand.  It holds two reports and one plain list, and
each step either hands findings to one of the three or works on a report.  No
step looks at what was collected before it, except to sort or to move it.
-/

namespace AggregateAudit

/-- The three places where findings are collected. -/
inductive Sink where
  | first
  | second
  | list
  deriving DecidableEq

/-- The state of a session. -/
structure Session where
  engine : Engine := { rules := Rule.all }
  first : Report := {}
  second : Report := {}
  list : List Finding := []

/-- What can be done in a session. -/
inductive SessionStep where
  /-- Replaces the engine. -/
  | useEngine (e : Engine)
  /-- Reports what the engine finds in a declaration. -/
  | declare (sink : Sink) (d : Declaration)
  /-- Reports a given finding. -/
  | report (sink : Sink) (f : Finding)
  /-- Sets the number of files of a report; a plain list has none. -/
  | setFiles (sink : Sink) (count : Nat)
  /-- Sorts a report; a plain list stays as it is. -/
  | sort (sink : Sink)
  /-- Moves everything from the other report into this one, which leaves the other
  empty; a plain list takes nothing. -/
  | extend (sink : Sink)

namespace Session

/-- Hands findings to a sink, in order. -/
def collect (s : Session) (sink : Sink) (fs : List Finding) : Session :=
  match sink with
  | .first => { s with first := s.first.add fs }
  | .second => { s with second := s.second.add fs }
  | .list => { s with list := s.list ++ fs }

/-- Works on the report of a sink. -/
def onReport (s : Session) (sink : Sink) (f : Report → Report) : Session :=
  match sink with
  | .first => { s with first := f s.first }
  | .second => { s with second := f s.second }
  | .list => s

/-- One step. -/
def step (s : Session) : SessionStep → Session
  | .useEngine e => { s with engine := e }
  | .declare sink d => s.collect sink (s.engine.check d)
  | .report sink f => s.collect sink [f]
  | .setFiles sink n => s.onReport sink fun r => { r with filesChecked := n }
  | .sort sink => s.onReport sink Report.sort
  | .extend .first => { s with first := s.first.extend s.second, second := {} }
  | .extend .second => { s with second := s.second.extend s.first, first := {} }
  | .extend .list => s

end Session
end AggregateAudit
