import AggregateAudit.Inheritance

/-!
# Rules

A rule looks at one declaration at a time and answers with findings.  It keeps no
state, so rules cannot see each other: an engine is a list of rules and a
matcher, and what it finds in a declaration is what each rule finds, one rule
after the other.
-/

namespace AggregateAudit

/-- What a rule says about itself. -/
structure RuleInfo where
  /-- The identifier, such as `AG0001`. -/
  code : String
  /-- The name in lower case with hyphens. -/
  name : String
  title : String
  /-- What the rule demands; it is also the message of its findings. -/
  description : String
  category : String := "Constructor"
  severity : Severity := .error
  /-- How to mend an offending declaration. -/
  help : Option String := none
  deriving DecidableEq

/-- The finding of a rule at a location. -/
def RuleInfo.finding (r : RuleInfo) (at_ : Location) : Finding where
  code := r.code
  rule := r.name
  severity := r.severity
  location := at_
  message := r.description
  help := r.help

/-- A rule: what it says about itself and what it finds. -/
structure Rule where
  info : RuleInfo
  check : Matcher → Declaration → List Finding

/-- The rule that reports each declaration violating a predicate, once. -/
def RuleInfo.against (r : RuleInfo) (violates : Matcher → Declaration → Bool) : Rule where
  info := r
  check m d := if violates m d then [r.finding d.location] else []

/-- Rules in the order in which they are asked, and the matcher they ask. -/
structure Engine where
  rules : List Rule := []
  matcher : Matcher := Inheritance.textual

namespace Engine

/-- What the rules find in one declaration. -/
def check (e : Engine) (d : Declaration) : List Finding :=
  e.rules.flatMap fun r => r.check e.matcher d

/-- The codes of the rules, in order. -/
def codes (e : Engine) : List String := e.rules.map (·.info.code)

/-- A description of the engine for logs: the codes of its rules, quoted. -/
def summary (e : Engine) : String :=
  "RuleEngine \x7b rules: ["
    ++ String.intercalate ", " (e.codes.map fun c => "\"" ++ c ++ "\"")
    ++ "], .. \x7d"

mutual

/-- What the rules find in a member: in itself, with the type that declares it,
or in the members of a nested type. -/
def visitMember (e : Engine) (owner : TypeDeclaration) : Member → List Finding
  | .constructor c => e.check (.constructor c)
  | .method m => e.check (.method m owner)
  | .type header members => e.visitMembers ⟨header, members⟩ members

/-- What the rules find in a row of members of a type. -/
def visitMembers (e : Engine) (owner : TypeDeclaration) : List Member → List Finding
  | [] => []
  | m :: ms => e.visitMember owner m ++ e.visitMembers owner ms

end

/-- What the rules find in a type, member by member, nested types in place. -/
def visit (e : Engine) (t : TypeDeclaration) : List Finding := e.visitMembers t t.members

/-- What the rules find in a row of types. -/
def visitAll (e : Engine) (ts : List TypeDeclaration) : List Finding := ts.flatMap e.visit

end Engine
end AggregateAudit
