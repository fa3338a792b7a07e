import AggregateAudit.Source.Grammar.Expressions

/-!
# The grammar of patterns

A pattern is a value to be equal to, a type to be of, parts to have, or a
combination of these.
-/

namespace AggregateAudit
namespace Source
namespace Grammar

open Form

/-- A name for what is matched, or several names for its parts. -/
def designation : Form := either name (paren .designations)

/-- An expression that may stand for the value it has. -/
def constant : Form :=
  oneOf [
    -- Two terms with an operator between them.
    call .term ++ signs binarySigns ++ call .term ++ many (signs binarySigns ++ call .term),
    word "default" ++ optional (paren .type), words ["typeof", "sizeof"] ++ paren .type,
    literal, group .text .textParts, paren .expression, paren .pair, call .simpleName,
    prefixed, paren .type ++ call .term,
    builtin ++ sign "." ++ call .simpleName,
    name ++ sign "::" ++ call .simpleName ++ sign "." ++ call .simpleName,
    call .primary ++ many postfixes ++ either (signs [".", "->"] ++ call .simpleName) action]

/-- A pattern without `and` and `or`. -/
def patternTerm : Form :=
  oneOf [constant, call .type ++ optional (call .designation),
    optional (call .type) ++
      either (paren .positionalPattern ++ optional (brace .propertyPattern))
        (brace .propertyPattern)
      ++ optional (call .designation),
    word "var" ++ call .designation, word "not" ++ call .patternTerm,
    paren .pattern, signs ["<", "<=", ">", ">="] ++ call .expression, square .listPattern]

def pattern : Form := call .patternTerm ++ many (words ["and", "or"] ++ call .patternTerm)

/-- A part to have: what it is called, and the pattern for it. -/
def subpattern : Form := optional (call .expression ++ sign ":") ++ call .pattern

/-- Parts by position, none or at least two. -/
def positionalPattern : Form := optional (subpattern ++ sign "," ++ separated subpattern)

def propertyPattern : Form := listed subpattern ++ optional (sign ",")

/-- The elements of a list, of which any number may be left out in one place, but not
in the first. -/
def listPattern : Form :=
  optional (call .pattern ++ many (sign "," ++ either (call .pattern) (sign ".."))
    ++ optional (sign ","))

end Grammar
end Source
end AggregateAudit
