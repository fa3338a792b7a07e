import AggregateAudit.Source.Piece

/-!
# Forms: the notation of the grammar

The grammar of the language is data.  A *form* says what a row of pieces may look
like: a word, a name, a mark, a group with something in it, and sequences, choices
and repetitions of forms.  Forms that refer to themselves do so through a
*category*, a named form.

Two things about the language are in the notation and not in the rules.  A keyword
is written as a word that is expected, so no list of reserved words is needed:
where no form expects a word as a keyword, it is a name.  And a mark is written with
all its characters, while a text is not cut into marks beforehand: how far a mark
reaches depends on which marks are expected.
-/

namespace AggregateAudit
namespace Source

/-- How a written type ends. -/
inductive TypeShape where
  /-- With a name or a parenthesis. -/
  | plain
  /-- With a question mark. -/
  | nullable
  /-- With square brackets. -/
  | array
  /-- With a star, or with the angle bracket of a function pointer. -/
  | pointer
  deriving DecidableEq

/-- What is enclosed by a conditional directive. -/
inductive BranchContent where
  | declarations
  /-- Declarations and statements. -/
  | items
  | expression
  /-- At most one list of attributes. -/
  | attributes
  | enumMember
  deriving DecidableEq

/-- The named forms. -/
inductive Category where
  -- Names and types.
  | simpleName
  | qualifiedName
  | typeArguments
  | typeParameters
  | type
  /-- What may follow a type that ends in this way, if only some ways to end are
  good. -/
  | suffix (shape : TypeShape) (goal : List TypeShape)
  | arrayType
  | ranks
  | tupleElements
  | conventions
  -- Expressions.
  | expression
  | term
  | primary
  /-- What a value can be assigned to. -/
  | place
  /-- What no value can be assigned to. -/
  | value
  | argument
  | arguments
  | someArguments
  | pair
  | initializer
  | commas
  | arms
  | withMembers
  | queryBody
  | referenceValue
  | textParts
  | hole
  -- Patterns.
  | pattern
  | patternTerm
  | designation
  | designations
  | listPattern
  | positionalPattern
  | propertyPattern
  -- Statements.
  | statement
  | statements
  | statementExpression
  | functionBody
  | variableList
  | tuplePattern
  | forHead
  | foreachHead
  | usingHead
  | exceptionHead
  | sections
  -- Declarations.
  | declaration
  | declarations
  | item
  | items
  | typeDeclaration
  | attributes
  | globalAttributes
  | attributeArguments
  | parameters
  | someParameters
  | constraint
  | accessors
  | enumMember
  | enumMembers
  | nothing
  /-- A branch of a conditional directive, with the branches behind it. -/
  | branch (content : BranchContent)
  deriving DecidableEq

/-- What a row of pieces may look like. -/
inductive Form where
  | empty
  /-- One of these words, as a keyword. -/
  | words (ws : List String)
  | name
  | literal
  /-- The text of a string with code in it. -/
  | textPart
  /-- How the value of the code in a string is written. -/
  | format
  | mark (characters : List Char)
  /-- So many further characters of a mark that has begun. -/
  | markRest (count : Nat)
  /-- A `>` that closes type arguments.  It is one character, whatever follows. -/
  | closeAngle
  /-- A semicolon with nothing in front of it. -/
  | attachedSemicolon
  | group (bracket : Bracket) (content : Category)
  | call (c : Category)
  | both (first second : Form)
  | either (first second : Form)
  | optional (f : Form)
  /-- Any number of repetitions of a form that is not empty. -/
  | many (f : Form)
  deriving DecidableEq

namespace Form

instance : Append Form := ⟨both⟩

def word (w : String) : Form := words [w]

/-- A mark, given by its text. -/
def sign (m : String) : Form := mark m.toList

/-- A choice between several forms. -/
def oneOf : List Form → Form
  | [] => empty
  | [f] => f
  | f :: g :: fs => either f (oneOf (g :: fs))

/-- A choice between several marks. -/
def signs (ms : List String) : Form := oneOf (ms.map sign)

def paren (c : Category) : Form := group .paren c

def square (c : Category) : Form := group .square c

def brace (c : Category) : Form := group .brace c

/-- One or more times the same form, with commas between. -/
def separated (f : Form) : Form := f ++ many (sign "," ++ f)

/-- Any number of times the same form, with commas between. -/
def listed (f : Form) : Form := optional (separated f)

end Form
end Source
end AggregateAudit
