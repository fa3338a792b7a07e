import AggregateAudit.Declaration
import AggregateAudit.Text.WordChar

/-!
# Deriving from an aggregate root

Whether a type is an aggregate root is asked of a *matcher*, any predicate on
types.  The one that runs by default reads nothing but the written base list: a
type derives from an aggregate root if one of its base types mentions
`AggregateRoot` as a whole word, or with type arguments behind it.
-/

namespace AggregateAudit

/-- A judgement on whether a type derives from an aggregate root. -/
abbrev Matcher := TypeDeclaration → Bool

namespace Inheritance

/-- The name that a reference is searched for. -/
def rootName : List Char := "AggregateRoot".toList

/-- Whether a boundary of words lies between two neighbours: exactly one of them
is a word character.  Beyond the ends of a text there is none. -/
def isBoundary (left right : Option Char) : Bool :=
  left.any Text.isWordChar != right.any Text.isWordChar

/-- Whether a `>` closes type arguments that hold at least one character and no
semicolon; `inside` tells whether a character has been read. -/
def closesArguments (inside : Bool) : List Char → Bool
  | [] => false
  | c :: cs => (inside && c = '>') || (c ≠ ';' && closesArguments true cs)

/-- Whether a text begins with type arguments. -/
def startsWithArguments : List Char → Bool
  | '<' :: cs => closesArguments false cs
  | _ => false

/-- Whether the name stands at the start of a text that `left` precedes, as a
whole word or in front of type arguments. -/
def matchesHere (left : Option Char) (cs : List Char) : Bool :=
  isBoundary left cs.head? && rootName.isPrefixOf cs &&
    (startsWithArguments (cs.drop rootName.length)
      || isBoundary rootName.getLast? (cs.drop rootName.length).head?)

/-- Whether the name stands somewhere in a text that `left` precedes. -/
def matchesFrom (left : Option Char) : List Char → Bool
  | [] => matchesHere left []
  | c :: cs => matchesHere left (c :: cs) || matchesFrom (some c) cs

/-- Whether a written reference to a type mentions the aggregate root. -/
def matchesReference (reference : String) : Bool := matchesFrom none reference.toList

/-- The matcher that looks at the written base types. -/
def textual : Matcher := fun t => t.baseReferences.any matchesReference

end Inheritance
end AggregateAudit
