import AggregateAudit.Text.NameChar

/-!
# Lexemes

A lexeme is a piece of text that the grammar does not look into: a word, a
literal, a mark, or the blanks, comments and directives between them.  A string
with code inside it is no lexeme but a bracket, and so is each stretch of code in
it; their openers and closers are lexemes.

This module says what lexemes are and how far the plain ones reach.  For a text
that is left, a reader answers only *how many* characters belong to what comes
next, so that whoever cuts the text cannot lose any of it.

Keywords are not told apart from names here.  A word is a keyword only where the
grammar has a use for that keyword.
-/

namespace AggregateAudit
namespace Source

/-- What a lexeme is. -/
inductive LexemeKind where
  | blank
  | comment
  /-- A directive that fills the rest of its line and has no counterpart. -/
  | directive
  /-- `#if` and its condition. -/
  | conditionalIf
  /-- `#elif` and its condition. -/
  | conditionalElif
  | conditionalElse
  | conditionalEnd
  /-- A name or a keyword. -/
  | word
  /-- A number, a character or a string. -/
  | literal
  /-- An operator, a bracket or another mark. -/
  | mark
  /-- The start of a string that may hold code. -/
  | textOpen
  /-- Text of such a string. -/
  | textPart
  | textClose
  /-- The start of code inside a string. -/
  | holeOpen
  | holeClose
  /-- A colon and what it says about how the value of the code is written. -/
  | format
  /-- Text that is no lexeme. -/
  | stray
  deriving DecidableEq

/-- A piece of text that the grammar does not look into. -/
structure Lexeme where
  kind : LexemeKind
  text : String
  deriving DecidableEq

namespace Lexeme

/-- Blanks, comments and one-line directives stand between the lexemes that the
grammar reads. -/
def isTrivia (l : Lexeme) : Bool :=
  l.kind = .blank || l.kind = .comment || l.kind = .directive

end Lexeme

/-! ## Blanks and comments -/

/-- The characters that separate lexemes.  A byte order mark is one of them. -/
def isBlank (c : Char) : Bool :=
  c = ' ' || c = '\n' || c = '\t' || c = '\r' || c.toNat = 0x0B || c.toNat = 0x0C
    || c.toNat = 0xA0 || c.toNat = 0xFEFF || c.toNat = 0x3000

/-- How many characters lie before the end of the line. -/
def lineExtent (cs : List Char) : Nat := (cs.takeWhile (· ≠ '\n')).length

/-- How many characters lie up to the end of the closing `*/`; `none` if there is
no such end. -/
def blockCommentExtent : List Char → Option Nat
  | [] => none
  | '*' :: '/' :: _ => some 2
  | _ :: cs => (blockCommentExtent cs).map (· + 1)

/-- How many characters the comment at the start of a text takes, if there is
one.  A comment that ends with its line ends before the first character of the
line end, be it a carriage return or a line feed. -/
def commentExtent? : List Char → Option Nat
  | '/' :: '/' :: cs => some (2 + (cs.takeWhile fun c => c ≠ '\n' && c ≠ '\r').length)
  | '/' :: '*' :: cs => (blockCommentExtent cs).map (· + 2)
  | _ => none

/-- How many characters the blanks that satisfy `p` and the comments at the start
of a text take.  `skip` characters have been accounted for. -/
def gapExtent (p : Char → Bool) : Nat → List Char → Nat
  | _, [] => 0
  | skip + 1, _ :: cs => 1 + gapExtent p skip cs
  | 0, c :: cs =>
    if isBlank c && p c then 1 + gapExtent p 0 cs
    else
      match commentExtent? (c :: cs) with
      | some n => 1 + gapExtent p (n - 1) cs
      | none => 0

/-! ## Names and numbers -/

/-- The digits of base sixteen. -/
def isHexDigit (c : Char) : Bool :=
  c.isDigit || ('a' ≤ c && c ≤ 'f') || ('A' ≤ c && c ≤ 'F')

/-- How many characters a universal character escape takes, none if there is
none: `\u` and four digits, or `\U` and eight. -/
def universalExtent? : List Char → Option Nat
  | '\\' :: 'u' :: rest => if (rest.take 4).countP isHexDigit = 4 then some 6 else none
  | '\\' :: 'U' :: rest => if (rest.take 8).countP isHexDigit = 8 then some 10 else none
  | _ => none

/-- How many characters of a text go on a name.  `skip` counts the characters of
an escape that have been accounted for. -/
def nameExtent : Nat → List Char → Nat
  | _, [] => 0
  | skip + 1, _ :: cs => 1 + nameExtent skip cs
  | 0, c :: cs =>
    if Text.isNameChar c then 1 + nameExtent 0 cs
    else
      match universalExtent? (c :: cs) with
      | some n => 1 + nameExtent (n - 1) cs
      | none => 0

/-- Whether a text begins with a name. -/
def beginsName : List Char → Bool
  | [] => false
  | c :: cs => Text.isNameStart c || (universalExtent? (c :: cs)).isSome

/-- How many characters the word at the start of a text takes, if there is one.
An `@` in front of a name is part of it. -/
def wordExtent? : List Char → Option Nat
  | '@' :: cs => if beginsName cs then some (1 + nameExtent 0 cs) else none
  | cs => if beginsName cs then some (nameExtent 0 cs) else none

/-- Whether a character satisfies `p` or separates digits. -/
def orUnderscore (p : Char → Bool) (c : Char) : Bool := p c || c = '_'

/-- How many characters a row of digits takes, if a text begins with one.  It may
hold underscores, but not at its end. -/
def digitsExtent? (digit : Char → Bool) (cs : List Char) : Option Nat :=
  let row := cs.takeWhile (orUnderscore digit)
  let n := (row.reverse.dropWhile (· = '_')).length
  if n = 0 then none else some n

/-- How many characters a row of digits of base ten takes, if a text begins with
one.  It begins with a digit. -/
def decimalExtent? (cs : List Char) : Option Nat :=
  if cs.head?.any Char.isDigit then digitsExtent? Char.isDigit cs else none

/-- How many characters the mark of a whole number's size takes. -/
def sizeMarkExtent : List Char → Nat
  | c :: cs =>
    if c = 'u' || c = 'U' then if cs.head? = some 'l' || cs.head? = some 'L' then 2 else 1
    else if c = 'l' || c = 'L' then if cs.head? = some 'u' || cs.head? = some 'U' then 2 else 1
    else 0
  | [] => 0

/-- How many characters an exponent takes, if a text begins with one. -/
def exponentExtent? : List Char → Option Nat
  | e :: cs =>
    if e = 'e' || e = 'E' then
      let sign := if cs.head? = some '+' || cs.head? = some '-' then 1 else 0
      if (cs.drop sign).head?.any Char.isDigit then
        some (1 + sign + ((cs.drop sign).takeWhile (orUnderscore Char.isDigit)).length)
      else none
    else none
  | [] => none

/-- How many characters the mark of a fractional number's precision takes. -/
def precisionMarkExtent : List Char → Nat
  | c :: _ => if "fFdDmM".toList.contains c then 1 else 0
  | [] => 0

/-- How many characters an exponent and a mark of precision take, which may both be
absent. -/
def scaleExtent (cs : List Char) : Nat :=
  let e := (exponentExtent? cs).getD 0
  e + precisionMarkExtent (cs.drop e)

/-- How many characters a point with digits behind it takes, if a text begins with
one. -/
def fractionExtent? : List Char → Option Nat
  | '.' :: cs => (decimalExtent? cs).map (· + 1)
  | _ => none

/-- How many characters a whole number of another base takes, if a text begins with
one. -/
def basedExtent? : List Char → Option Nat
  | '0' :: b :: cs =>
    let digits :=
      if b = 'x' || b = 'X' then digitsExtent? isHexDigit cs
      else if b = 'b' || b = 'B' then digitsExtent? (fun c => c = '0' || c = '1') cs
      else none
    digits.map fun n => 2 + n + sizeMarkExtent (cs.drop n)
  | _ => none

/-- How many characters the number at the start of a text takes, if there is one,
and whether it is a whole number. -/
def numberExtent? (cs : List Char) : Option (Nat × Bool) :=
  match basedExtent? cs with
  | some n => some (n, true)
  | none =>
    match decimalExtent? cs with
    | none => (fractionExtent? cs).map fun n => (n + scaleExtent (cs.drop n), false)
    | some n =>
      let fraction := (fractionExtent? (cs.drop n)).getD 0
      let scale := scaleExtent (cs.drop (n + fraction))
      if 0 < fraction + scale then some (n + fraction + scale, false)
      else some (n + sizeMarkExtent (cs.drop n), true)

/-! ## Marks -/

/-- The marks of more than one character, longest first.  A `>` is never joined
to what follows it: it may close a list of type arguments. -/
def longMarks : List (List Char) :=
  ["<<=", "??=", "=>", "==", "!=", "<=", "&&", "||", "??", "++", "--", "+=", "-=", "*=",
    "/=", "%=", "&=", "|=", "^=", "->", "::", "..", "<<"].map String.toList

/-- The marks of one character. -/
def shortMarks : List Char := "\x7b\x7d()[]<>;:,.?=+-*/%&|^!~".toList

/-- How many characters the mark at the start of a text takes, if there is one. -/
def markExtent? : List Char → Option Nat
  | [] => none
  | c :: cs =>
    match longMarks.find? (·.isPrefixOf (c :: cs)) with
    | some m => some m.length
    | none => if shortMarks.contains c then some 1 else none

end Source
end AggregateAudit
