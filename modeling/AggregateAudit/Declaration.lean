import AggregateAudit.Finding

/-!
# Declarations

A declaration is what a source text says about a type, a constructor or a method
before anything is resolved: names, modifiers and base types are kept as they are
written.  The rules of this library look at nothing else.

A type holds its members in source order, and a member may be a type again.  The
recursion is put into `Member` alone, so that a type is a header together with a
list of members and every walk over declarations is a recursion over one type.
-/

namespace AggregateAudit

/-- A modifier keyword.  The four access keywords are told apart; every other
keyword is kept as it is written. -/
inductive Modifier where
  | publicAccess
  | privateAccess
  | protectedAccess
  | internalAccess
  | other (keyword : String)
  deriving DecidableEq

namespace Modifier

/-- The modifier that a keyword stands for.  Keywords are case-sensitive, and
nothing is trimmed. -/
def ofKeyword : String → Modifier
  | "public" => publicAccess
  | "private" => privateAccess
  | "protected" => protectedAccess
  | "internal" => internalAccess
  | keyword => other keyword

/-- The keyword of a modifier, as it is written. -/
def keyword : Modifier → String
  | publicAccess => "public"
  | privateAccess => "private"
  | protectedAccess => "protected"
  | internalAccess => "internal"
  | other keyword => keyword

theorem keyword_ofKeyword (k : String) : (ofKeyword k).keyword = k := by
  unfold ofKeyword
  split <;> rfl

end Modifier

/-- The four kinds of type that can hold constructors and methods.  A record
class and a record struct are both records. -/
inductive TypeKind where
  | classType
  | structType
  | recordType
  | interfaceType
  deriving DecidableEq

/-- The word for a kind of type. -/
def TypeKind.word : TypeKind → String
  | classType => "class"
  | structType => "struct"
  | recordType => "record"
  | interfaceType => "interface"

/-- The body of a constructor. -/
inductive Body where
  /-- A block, with the number of statements directly inside it. -/
  | block (statements : Nat)
  /-- An arrow and an expression. -/
  | expression
  /-- No body at all. -/
  | absent
  deriving DecidableEq

/-- Only a block can hold statements; an expression body reports none. -/
def Body.hasStatements : Body → Bool
  | block n => 0 < n
  | expression => false
  | absent => false

/-- A constructor of a type. -/
structure Constructor where
  /-- The name of the type that holds the constructor. -/
  owner : String
  /-- The declared name, which nothing forces to be the owner's. -/
  name : String
  modifiers : List Modifier := []
  parameterCount : Nat := 0
  body : Body := .block 0
  location : Location := {}
  deriving DecidableEq

namespace Constructor

def isPublic (c : Constructor) : Bool := c.modifiers.contains .publicAccess

/-- `private protected` is private too. -/
def isPrivate (c : Constructor) : Bool := c.modifiers.contains .privateAccess

def hasParameters (c : Constructor) : Bool := 0 < c.parameterCount

def hasStatements (c : Constructor) : Bool := c.body.hasStatements

end Constructor

/-- A method of a type. -/
structure Method where
  /-- The name of the type that holds the method. -/
  owner : String
  name : String
  modifiers : List Modifier := []
  location : Location := {}
  deriving DecidableEq

def Method.isPublic (m : Method) : Bool := m.modifiers.contains .publicAccess

/-- What stands in front of a type's members. -/
structure TypeHeader where
  /-- The name without type parameters. -/
  name : String
  kind : TypeKind := .classType
  /-- The base types as written; `none` when there is no base list. -/
  baseTypes : Option (List String) := none
  location : Location := {}
  deriving DecidableEq

/-- A member of a type: a constructor, a method, or a type with its own members. -/
inductive Member where
  | constructor (c : Constructor)
  | method (m : Method)
  | type (header : TypeHeader) (members : List Member)

/-- A type and its members, in source order. -/
structure TypeDeclaration where
  header : TypeHeader
  members : List Member := []

namespace TypeDeclaration

def name (t : TypeDeclaration) : String := t.header.name

/-- The written base types, none when there is no base list. -/
def baseReferences (t : TypeDeclaration) : List String := t.header.baseTypes.getD []

/-- A type as a member of another one. -/
def toMember (t : TypeDeclaration) : Member := .type t.header t.members

end TypeDeclaration

/-- What a rule is asked about: a constructor, or a method with the type that
immediately declares it. -/
inductive Declaration where
  | constructor (c : Constructor)
  | method (m : Method) (owner : TypeDeclaration)

/-- The span of the declaration a rule is asked about. -/
def Declaration.location : Declaration → Location
  | .constructor c => c.location
  | .method m _ => m.location

end AggregateAudit
