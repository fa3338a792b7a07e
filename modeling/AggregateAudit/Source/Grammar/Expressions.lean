import AggregateAudit.Source.Grammar.Types

/-!
# The grammar of expressions

An expression is a row of *terms* with operators between them.  How tightly the
operators bind decides nothing about which rows are expressions, with three
exceptions, and these are why there are more categories than one: a value is
assigned to a *place*; what stands alone as a statement must do something; and an
operator in front of a term takes that term only.
-/

namespace AggregateAudit
namespace Source
namespace Grammar

open Form

def block : Form := brace .statements

/-! ## Primary expressions -/

/-- The primary expressions that a value can be assigned to. -/
def primaryPlace : Form :=
  oneOf [word "this", call .simpleName, builtin ++ sign "." ++ call .simpleName,
    name ++ sign "::" ++ call .simpleName ++ sign "." ++ call .simpleName,
    paren .place, paren .pair, square .someArguments]

/-- Creations of objects, with what they are made from and what is put into them. -/
def creation : Form :=
  word "new" ++
    oneOf [call .type ++ optional (paren .arguments) ++ optional (brace .initializer),
      paren .arguments ++ optional (brace .initializer),
      brace .initializer,
      square .commas ++ brace .initializer]

/-- The creation of an object of a type that is named. -/
def namedCreation : Form :=
  word "new" ++ call .type ++ optional (paren .arguments) ++ optional (brace .initializer)

/-- Memory on the stack. -/
def stackMemory : Form :=
  word "stackalloc" ++
    either (call .arrayType ++ optional (brace .initializer))
      (square .nothing ++ brace .initializer)

/-- Functions without a name that begin with `delegate`. -/
def anonymousFunction : Form :=
  many (words ["static", "async"]) ++ word "delegate" ++ optional (paren .parameters) ++ block

/-- The primary expressions that no value can be assigned to. -/
def primaryValue : Form :=
  oneOf [word "base", literal, group .text .textParts, paren .expression, brace .initializer,
    square .nothing, creation, stackMemory, anonymousFunction,
    word "default" ++ optional (paren .type),
    words ["typeof", "sizeof"] ++ paren .type,
    words ["checked", "unchecked", "__makeref", "__reftype"] ++ paren .expression,
    word "__refvalue" ++ paren .referenceValue,
    group .conditional (.branch .expression)]

/-- A member or an element of what stands before. -/
def selection : Form :=
  oneOf [signs [".", "->"] ++ call .simpleName, square .someArguments]

/-- A call, or a count up or down. -/
def action : Form := either (paren .arguments) (signs ["++", "--", "!"])

/-- A member or an element of what stands before, if that is there. -/
def conditionalSelection : Form :=
  sign "?" ++ either (sign "." ++ call .simpleName) (square .someArguments)

/-- What may follow a primary expression. -/
def postfixes : Form := oneOf [selection, action, conditionalSelection]

/-- What a value can be assigned to. -/
def place : Form :=
  oneOf [primaryPlace, call .primary ++ many postfixes ++ selection, sign "*" ++ call .place]

/-! ## Terms -/

def assignmentSigns : List String :=
  ["=", "+=", "-=", "*=", "/=", "%=", "&=", "^=", "|=", "<<=", ">>=", ">>>=", "??="]

def assignment : Form := call .place ++ signs assignmentSigns ++ call .expression

/-- An operator in front of a term. -/
def prefixed : Form := signs ["++", "--", "+", "-", "!", "~", "&", "^", "*"] ++ call .term

/-- Functions without a name that have an arrow. -/
def lambda : Form :=
  many attributeList ++ many (words ["static", "async"]) ++ optional (call .type)
    ++ either (paren .parameters) name ++ sign "=>" ++ either block (call .expression)

/-- The variable of a query and where its values come from. -/
def querySource : Form := optional (call .type) ++ name ++ word "in" ++ call .expression

def query : Form := word "from" ++ querySource ++ call .queryBody

/-- The clauses of a query, and what it selects. -/
def queryBody : Form :=
  many (oneOf [word "from" ++ querySource,
      word "join" ++ querySource ++ word "on" ++ call .expression ++ word "equals"
        ++ call .expression ++ optional (word "into" ++ name),
      word "let" ++ name ++ sign "=" ++ call .expression,
      word "orderby" ++
        separated (call .expression ++ optional (words ["ascending", "descending"])),
      word "where" ++ call .expression])
    ++ oneOf [word "select" ++ call .expression,
      word "group" ++ call .expression ++ word "by" ++ call .expression]
    ++ optional (word "into" ++ name ++ call .queryBody)

/-- The terms that are more than a primary expression and what follows it. -/
def longTerm : Form :=
  oneOf [assignment, prefixed, paren .type ++ call .term, word "await" ++ call .term,
    sign ".." ++ optional (call .term), lambda, words ["throw", "ref"] ++ call .expression, query]

/-- What stands between operators. -/
def term : Form := either (call .primary ++ many postfixes) longTerm

/-! ## Expressions -/

def binarySigns : List String :=
  ["&&", "||", ">>", ">>>", "<<", "&", "^", "|", "+", "-", "*", "/", "%", "<", "<=", "==", "!=",
    ">=", ">", "??"]

/-- What may follow an operand. -/
def operation : Form :=
  oneOf [signs binarySigns ++ call .term,
    word "is" ++ either (call .pattern) (call .type),
    word "as" ++ call .type,
    word "switch" ++ brace .arms ++ many postfixes,
    word "with" ++ brace .withMembers ++ many postfixes,
    sign "?" ++ call .expression ++ sign ":" ++ call .expression,
    sign ".." ++ optional (call .term)]

def expression : Form := call .term ++ many operation

/-- An expression that is no place. -/
def value : Form :=
  oneOf [primaryValue, call .primary ++ many postfixes ++ either action conditionalSelection,
    longTerm, call .term ++ operation ++ many operation]

/-- An expression that does something: it assigns, calls, counts, waits or creates.
One in parentheses does, unless it is a place. -/
def statementExpression : Form :=
  oneOf [assignment, prefixed, word "await" ++ call .term, namedCreation, paren .value,
    call .primary ++ many postfixes ++ action]

/-! ## Lists -/

/-- An argument: an expression, or a variable that is declared on the spot. -/
def argument : Form :=
  optional (name ++ sign ":") ++ optional (words ["ref", "out", "in"])
    ++ either (call .expression) (call .type ++ name)

/-- At least two arguments. -/
def pair : Form := call .argument ++ sign "," ++ separated (call .argument)

def initializer : Form := listed (call .expression) ++ optional (sign ",")

/-- The arms of a switch expression. -/
def arms : Form :=
  listed (call .pattern ++ optional (word "when" ++ call .expression) ++ sign "=>"
    ++ call .expression) ++ optional (sign ",")

def withMembers : Form :=
  listed (name ++ sign "=" ++ call .expression) ++ optional (sign ",")

/-- Code in a string: an expression, perhaps with a width and a format. -/
def hole : Form := call .expression ++ optional (sign "," ++ call .expression) ++ optional format

end Grammar
end Source
end AggregateAudit
