import AggregateAudit.Source.Grammar.Patterns

/-!
# The grammar of statements
-/

namespace AggregateAudit
namespace Source
namespace Grammar

open Form

/-- The words that modify a declaration. -/
def modifiers : Form := many (words ("file" :: modifierWords))

/-! ## Variables and functions -/

/-- An equals sign and a value. -/
def initialValue : Form := sign "=" ++ call .expression

/-- Variables of one type. -/
def variableList : Form :=
  call .type ++
    separated (either name (paren .tuplePattern) ++ optional (square .someArguments)
      ++ optional initialValue)

/-- Names for the parts of a tuple. -/
def tuplePattern : Form := separated (either name (paren .tuplePattern))

/-- What a type parameter must be. -/
def constraint : Form :=
  word "where" ++ name ++ sign ":" ++
    separated (oneOf [word "class" ++ optional (sign "?"), words ["struct", "notnull", "unmanaged"],
      word "new" ++ paren .nothing, call .type])

/-- The body of a function. -/
def functionBody : Form := oneOf [block, sign "=>" ++ call .expression ++ sign ";", sign ";"]

/-- A function behind its name. -/
def functionTail : Form :=
  optional (call .typeParameters) ++ paren .parameters ++ many (call .constraint)
    ++ call .functionBody

/-- A function inside a function. -/
def localFunction : Form := many attributeList ++ modifiers ++ call .type ++ name ++ functionTail

/-! ## Heads -/

def forHead : Form :=
  optional (either (call .variableList) (separated (call .expression))) ++ sign ";"
    ++ optional (call .expression) ++ sign ";" ++ listed (call .expression)

def foreachHead : Form :=
  either (call .type ++ either name (paren .tuplePattern)) (call .expression)
    ++ word "in" ++ call .expression

def usingHead : Form :=
  either (call .type ++ separated (name ++ optional initialValue)) (call .expression)

/-- The exception that a handler is for. -/
def exceptionHead : Form := call .type ++ optional name

/-! ## Statements -/

/-- A handler of exceptions. -/
def handler : Form :=
  word "catch" ++ many (either (paren .exceptionHead) (word "when" ++ paren .expression)) ++ block

def statement : Form :=
  oneOf [block, group .conditional (.branch .items), sign ";",
    call .statementExpression ++ sign ";",
    optional (word "await") ++ optional (word "using") ++ modifiers ++ call .variableList
      ++ sign ";",
    localFunction,
    name ++ sign ":" ++ call .statement,
    words ["break", "continue"] ++ sign ";",
    words ["checked", "unchecked", "unsafe"] ++ block,
    words ["return", "throw"] ++ optional (call .expression) ++ sign ";",
    word "yield" ++ either (word "return" ++ call .expression) (word "break") ++ sign ";",
    word "goto" ++ oneOf [name, word "case" ++ call .expression, word "default"] ++ sign ";",
    word "if" ++ paren .expression ++ call .statement
      ++ optional (word "else" ++ call .statement),
    words ["while", "lock"] ++ paren .expression ++ call .statement,
    word "do" ++ call .statement ++ word "while" ++ paren .expression ++ sign ";",
    word "for" ++ paren .forHead ++ call .statement,
    word "fixed" ++ paren .variableList ++ call .statement,
    optional (word "await") ++ word "foreach" ++ paren .foreachHead ++ call .statement,
    optional (word "await") ++ word "using" ++ paren .usingHead ++ call .statement,
    word "switch" ++ either (paren .expression) (paren .pair) ++ brace .sections,
    word "try" ++ block ++ many handler ++ optional (word "finally" ++ block)]

/-- The sections of a switch statement. -/
def sections : Form :=
  many (either
      (word "case" ++
        either (call .expression)
          (call .pattern ++ optional (word "when" ++ call .expression)))
      (word "default")
    ++ sign ":" ++ many (call .statement))

end Grammar
end Source
end AggregateAudit
