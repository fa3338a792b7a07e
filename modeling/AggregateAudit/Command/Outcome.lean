import AggregateAudit.Log
import AggregateAudit.Workspace

/-!
# What a command leaves behind

A command prints, logs, may change the workspace, and ends with an exit status.  A
command that fails ends with the status one and says why: what failed, and what that
comes from.
-/

namespace AggregateAudit
namespace Command

/-- What failed, the outermost failure first. -/
structure Failure where
  what : String
  causes : List String := []
  deriving DecidableEq

namespace Failure

/-- A text of several lines with every line but the first one indented. -/
def indented (indent text : String) : String :=
  String.intercalate ("\n" ++ indent)
    ((text.toList.splitOn '\n').map String.ofList)

/-- The causes of a failure as lines.  Only if there are several, they are
numbered. -/
def causeLines (causes : List String) : List String :=
  match causes with
  | [cause] => ["    " ++ indented "    " cause]
  | causes =>
    (List.range causes.length).zip causes |>.map fun (n, cause) =>
      let number := toString n
      String.ofList (List.replicate (5 - number.length) ' ') ++ number ++ ": "
        ++ indented "       " cause

/-- The failure as it is told. -/
def message (f : Failure) : String :=
  if f.causes.isEmpty then f.what
  else String.intercalate "\n" ([f.what, "", "Caused by:"] ++ causeLines f.causes)

end Failure

/-- What a command leaves behind. -/
structure Outcome where
  exit : Nat := 0
  printed : String := ""
  log : List LogLine := []
  failure : Option Failure := none
  workspace : Workspace

end Command
end AggregateAudit
