import AggregateAudit.Source.Grammar.Form
import AggregateAudit.Source.Words

/-!
# The grammar of names and types

A type is a name, a built-in word or a tuple, followed by question marks, stars and
square brackets.  Not every one of these may follow every other: a type is asked to
be there only once, and there are no pointers to arrays.
-/

namespace AggregateAudit
namespace Source
namespace Grammar

open Form

/-! ## Names -/

/-- A name, perhaps with type arguments. -/
def simpleName : Form := name ++ optional (call .typeArguments)

/-- Names with points between them, perhaps behind the alias of a namespace. -/
def qualifiedName : Form :=
  oneOf [name ++ sign "::" ++ call .simpleName, call .simpleName]
    ++ many (sign "." ++ call .simpleName)

/-- Type arguments, or only the commas that would stand between them. -/
def typeArguments : Form :=
  sign "<" ++ either (many (sign ",")) (separated (call .type)) ++ closeAngle

/-! ## Types -/

/-- The built-in types. -/
def builtin : Form := words builtinTypes

/-- A type without question marks, stars and square brackets, and not a function
pointer. -/
def plainType : Form := oneOf [call .qualifiedName, builtin, paren .tupleElements]

/-- How a function pointer is called. -/
def callingConvention : Form :=
  either (word "managed") (word "unmanaged" ++ optional (square .conventions))

/-- A function pointer: its parameters, and its result as the last of them. -/
def functionPointer : Form :=
  word "delegate" ++ sign "*" ++ optional callingConvention ++ sign "<"
    ++ many (optional (words ["ref", "out", "in"]) ++ call .type ++ sign ",")
    ++ call .type ++ closeAngle

/-- A type that ends in one of these ways. -/
def typeEnding (goal : List TypeShape) : Form :=
  oneOf [plainType ++ call (.suffix .plain goal), functionPointer ++ call (.suffix .pointer goal)]

/-- What may follow a type. -/
def suffix (shape : TypeShape) (goal : List TypeShape) : Form :=
  let question := sign "?" ++ call (.suffix .nullable goal)
  let star := sign "*" ++ call (.suffix .pointer goal)
  let brackets := square .ranks ++ call (.suffix .array goal)
  let more :=
    match shape with
    | .plain => oneOf [question, star, brackets]
    | .nullable => oneOf [star, brackets]
    | .array => oneOf [question, brackets]
    | .pointer => oneOf [star, brackets]
  if goal.contains shape then optional more else more

/-- Every way a type may end. -/
def anyShape : List TypeShape := [.plain, .nullable, .array, .pointer]

/-- A type. -/
def type : Form :=
  oneOf [word "var", typeEnding anyShape,
    word "ref" ++ optional (word "readonly") ++ call .type,
    word "scoped" ++ call .type]

/-- What stands in the square brackets of an array type. -/
def ranks : Form :=
  optional (call .expression) ++ many (sign "," ++ optional (call .expression))

/-- The elements of a tuple, at least two. -/
def tupleElements : Form :=
  let element := call .type ++ optional name
  element ++ sign "," ++ separated element

/-- A list of attributes, or a conditional directive around one. -/
def attributeList : Form :=
  either (square .attributes) (group .conditional (.branch .attributes))

/-- Type parameters. -/
def typeParameters : Form :=
  sign "<" ++ separated (many attributeList ++ optional (words ["in", "out"]) ++ name) ++ closeAngle

end Grammar
end Source
end AggregateAudit
