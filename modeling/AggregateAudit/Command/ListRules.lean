import AggregateAudit.Command.Outcome
import AggregateAudit.Rule.Catalog

/-!
# Listing the rules

A table of the rules, in the order in which they are asked, and what they apply to.
-/

namespace AggregateAudit
namespace Command

/-- A text with blanks behind it up to a width.  A longer text stays as it is. -/
def padded (width : Nat) (s : String) : String :=
  s ++ String.ofList (List.replicate (width - s.length) ' ')

/-- A row of the table. -/
def tableRow (code name category severity description : String) : String :=
  padded 8 code ++ " " ++ padded 36 name ++ " " ++ padded 10 category ++ " " ++ severity ++ " "
    ++ description

/-- The row of a rule. -/
def ruleRow (r : Rule) : String :=
  tableRow r.info.code r.info.name r.info.category r.info.severity.word r.info.description

/-- The lines of the list. -/
def ruleTable : List String :=
  ["Available rules:", "", tableRow "Code" "Name" "Category" (padded 8 "Severity") "Description",
    String.ofList (List.replicate 100 '-')]
    ++ Rule.all.map ruleRow
    ++ ["",
      "Constructor rules apply to constructors whose name contains \"aggregate\"",
      "(case-insensitive) and not \"test\". AG0003 applies to types deriving from",
      "AggregateRoot or AggregateRoot<T>.",
      "",
      "Use --rules to filter specific rules, e.g.:",
      "  aggregate-lint check --rules empty-constructor,public-apply-method",
      "  aggregate-lint check --rules AG0001,AG0003"]

/-- Lists the rules. -/
def listRules (w : Workspace) : Outcome := { printed := Text.unlines ruleTable, workspace := w }

end Command
end AggregateAudit
