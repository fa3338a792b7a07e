import AggregateAudit.Source.Grammar.Statements

/-!
# The grammar of declarations
-/

namespace AggregateAudit
namespace Source
namespace Grammar

open Form

/-! ## Attributes and parameters -/

/-- What an attribute may be aimed at. -/
def attributeTargets : List String :=
  ["field", "event", "method", "param", "property", "return", "type"]

/-- One attribute. -/
def attributeEntry : Form := call .qualifiedName ++ optional (paren .attributeArguments)

def attributes : Form :=
  optional (words attributeTargets ++ sign ":") ++ separated attributeEntry ++ optional (sign ",")

/-- Attributes of the whole program. -/
def globalAttributes : Form :=
  words ["assembly", "module"] ++ sign ":" ++ listed attributeEntry ++ optional (sign ",")

def attributeArguments : Form :=
  listed (optional (name ++ signs [":", "="]) ++ call .expression)

/-- A parameter, which need not have a type, or the array of all further arguments. -/
def parameter : Form :=
  many attributeList ++
    either
      (optional (many (words ["this", "scoped", "ref", "out", "in", "readonly"]) ++ call .type)
        ++ name ++ optional initialValue)
      (word "params" ++ call .type ++ name)

/-! ## Types -/

/-- The types that a type is made from. -/
def bases : Form := sign ":" ++ separated (call .type ++ optional (paren .arguments))

/-- What may stand between the name of a type and its body. -/
def typeTail : Form :=
  many (oneOf [call .typeParameters, paren .parameters, bases]) ++ many (call .constraint)
    ++ either (brace .declarations ++ optional attachedSemicolon) (sign ";")

def typeDeclaration : Form :=
  many attributeList ++ modifiers ++
    oneOf [words ["class", "interface"] ++ name ++ typeTail,
      optional (word "ref" ++ modifiers) ++ word "struct" ++ name ++ typeTail,
      word "record" ++ optional (words ["class", "struct"]) ++ name ++ typeTail,
      word "enum" ++ name ++ optional bases
        ++ either (brace .enumMembers ++ optional attachedSemicolon) (sign ";"),
      word "delegate" ++ call .type ++ name ++ optional (call .typeParameters)
        ++ paren .parameters ++ many (call .constraint) ++ sign ";"]

def enumMember : Form := many attributeList ++ name ++ optional initialValue

def enumMembers : Form :=
  listed (either (call .enumMember) (group .conditional (.branch .enumMember)))
    ++ optional (sign ",")

/-! ## Members -/

/-- The interface whose member is implemented, with the point behind it. -/
def explicitInterface : Form := optional (call .qualifiedName ++ sign ".")

/-- The operators that a type can define. -/
def operatorSigns : List String :=
  ["!", "~", "++", "--", "+", "-", "*", "/", "%", "^", "|", "&", "<<", ">>", ">>>", "==", "!=",
    ">", "<", ">=", "<="]

/-- Accessors in braces, or an arrow with an expression. -/
def accessorsOrArrow : Form :=
  either (brace .accessors) (sign "=>" ++ call .expression ++ sign ";")

/-- A member behind its type and the interface it belongs to. -/
def typedMember : Form :=
  oneOf [name ++ functionTail,
    name ++ brace .accessors ++ optional (initialValue ++ sign ";"),
    name ++ sign "=>" ++ call .expression ++ sign ";",
    word "this" ++ square .someParameters ++ accessorsOrArrow,
    word "operator" ++ optional (word "checked")
      ++ either (signs operatorSigns) (words ["true", "false"])
      ++ paren .parameters ++ call .functionBody]

/-- A member behind its attributes and modifiers. -/
def member : Form :=
  oneOf [call .variableList ++ sign ";",
    call .type ++ explicitInterface ++ typedMember,
    name ++ paren .parameters
      ++ optional (sign ":" ++ words ["base", "this"] ++ paren .arguments) ++ call .functionBody,
    word "event" ++
      either (call .variableList ++ sign ";")
        (call .type ++ explicitInterface ++ name ++ either (brace .accessors) (sign ";")),
    words ["implicit", "explicit"] ++ explicitInterface ++ word "operator"
      ++ optional (word "checked") ++ call .type ++ paren .parameters ++ call .functionBody]

def accessors : Form :=
  many (many attributeList ++ modifiers
    ++ either (words ["get", "set", "add", "remove", "init"]) name ++ call .functionBody)

/-! ## Declarations and whole texts -/

def usingDirective : Form :=
  optional (word "global") ++ word "using" ++
    either (optional (word "unsafe") ++ name ++ sign "=" ++ call .type)
      (optional (word "static") ++ optional (word "unsafe") ++ call .qualifiedName)
    ++ sign ";"

def externAlias : Form := word "extern" ++ word "alias" ++ name ++ sign ";"

/-- A namespace with its contents in braces. -/
def namespaceDeclaration : Form :=
  word "namespace" ++ call .qualifiedName ++ brace .declarations ++ optional attachedSemicolon

/-- A declaration inside a type or a namespace. -/
def declaration : Form :=
  oneOf [call .typeDeclaration, namespaceDeclaration, usingDirective, externAlias,
    group .conditional (.branch .declarations),
    many attributeList ++ modifiers ++ member,
    many attributeList ++ optional (word "extern") ++ sign "~" ++ name ++ paren .parameters
      ++ call .functionBody]

/-- What may stand outside of all types and namespaces. -/
def item : Form :=
  oneOf [call .typeDeclaration, namespaceDeclaration, usingDirective, externAlias,
    square .globalAttributes, word "namespace" ++ call .qualifiedName ++ sign ";",
    call .statement]

/-- What a conditional directive may enclose. -/
def branchContent : BranchContent → Form
  | .declarations => many (call .declaration)
  | .items => many (call .item)
  | .expression => call .expression
  | .attributes => optional (square .attributes)
  | .enumMember => call .enumMember

end Grammar
end Source
end AggregateAudit
