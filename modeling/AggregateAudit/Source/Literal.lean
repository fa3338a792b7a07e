import AggregateAudit.Source.Lexeme

/-!
# Characters and strings

How far a character or a string without code in it reaches.  There are three
kinds of string: the plain one, where a backslash escapes; the verbatim one,
where a quote is doubled; and the raw one between three or more quotes.
-/

namespace AggregateAudit
namespace Source

/-- How often a character is repeated at the start of a text. -/
def runLength (c : Char) (cs : List Char) : Nat := (cs.takeWhile (· = c)).length

/-- The characters that stand for one character behind a backslash. -/
def isEscaped (c : Char) : Bool := "abefnrtv'\"\\?0".toList.contains c

/-- How many characters the escape behind a backslash takes, if it is one: two to
four digits of base sixteen behind `x`, four behind `u`, eight behind `U`, or one of
a few characters. -/
def escapeExtent? : List Char → Option Nat
  | [] => none
  | c :: cs =>
    let digits := fun n => ((cs.take n).takeWhile isHexDigit).length
    if c = 'x' then if 2 ≤ digits 4 then some (1 + digits 4) else none
    else if c = 'u' then if digits 4 = 4 then some 5 else none
    else if c = 'U' then if digits 8 = 8 then some 9 else none
    else if isEscaped c then some 1 else none

/-- How many characters the comments at the start of a text take.  `skip` characters
have been accounted for. -/
def commentsExtent : Nat → List Char → Nat
  | _, [] => 0
  | skip + 1, _ :: cs => 1 + commentsExtent skip cs
  | 0, c :: cs =>
    match commentExtent? (c :: cs) with
    | some n => 1 + commentsExtent (n - 1) cs
    | none => 0

/-- How many characters a character literal takes behind its opening quote.  There
may be comments in front of the character, and blanks and comments behind it.  An
escape that is none takes one character. -/
def characterExtent? (cs : List Char) : Option Nat :=
  let front := commentsExtent 0 cs
  let inner :=
    match cs.drop front with
    | [] => 0
    | '\\' :: rest => 1 + (escapeExtent? rest).getD 1
    | '\'' :: _ => 0
    | _ => 1
  if inner = 0 then none
  else
    let gap := gapExtent (fun _ => true) 0 (cs.drop (front + inner))
    if (cs.drop (front + inner + gap)).head? = some '\'' then some (front + inner + gap + 1)
    else none

/-- How many characters a plain string takes behind its opening quote, the
closing one included.  The text of a string does not reach over the end of a
line; behind one, blanks and comments are passed, and only an escape or the
closing quote may follow.  `skip` characters have been accounted for. -/
def plainExtent? : Nat → List Char → Option Nat
  | _, [] => none
  | skip + 1, _ :: cs => (plainExtent? skip cs).map (· + 1)
  | 0, c :: cs =>
    if c = '"' then some 1
    else if c = '\\' then (plainExtent? 1 cs).map (· + 1)
    else if c = '\n' then
      let gap := gapExtent (fun _ => true) 0 cs
      match cs.drop gap with
      | '"' :: _ => (plainExtent? gap cs).map (· + 1)
      | '\\' :: _ => (plainExtent? gap cs).map (· + 1)
      | _ => none
    else (plainExtent? 0 cs).map (· + 1)

/-- How many characters a verbatim string takes behind its opening quote.  `skip`
characters have been accounted for. -/
def verbatimExtent? : Nat → List Char → Option Nat
  | _, [] => none
  | skip + 1, _ :: cs => (verbatimExtent? skip cs).map (· + 1)
  | 0, c :: cs =>
    if c = '"' then
      if cs.head? = some '"' then (verbatimExtent? 1 cs).map (· + 1) else some 1
    else (verbatimExtent? 0 cs).map (· + 1)

/-- How many characters a raw string takes behind its opening quotes, of which
there are `quotes`.  `run` quotes have been read in a row. -/
def rawExtent? (quotes run : Nat) : List Char → Option Nat
  | [] => if quotes ≤ run then some 0 else none
  | c :: cs =>
    if c = '"' then (rawExtent? quotes (run + 1) cs).map (· + 1)
    else if quotes ≤ run then some 0
    else (rawExtent? quotes 0 cs).map (· + 1)

/-- How many characters the mark of a byte string takes behind a closing quote. -/
def byteMarkExtent : List Char → Nat
  | 'u' :: '8' :: _ => 2
  | 'U' :: '8' :: _ => 2
  | _ => 0

/-- How many characters the number, character or string at the start of a text
takes, if there is one. -/
def literalExtent? (cs : List Char) : Option Nat :=
  let string (opening : Nat) (inner : Option Nat) : Option Nat :=
    inner.map fun n => opening + n + byteMarkExtent (cs.drop (opening + n))
  match cs with
  | [] => none
  | '\'' :: rest => (characterExtent? rest).map (· + 1)
  | '@' :: '"' :: rest => string 2 (verbatimExtent? 0 rest)
  | '"' :: rest =>
    let quotes := runLength '"' cs
    if 3 ≤ quotes then string quotes (rawExtent? quotes 0 (cs.drop quotes))
    else string 1 (plainExtent? 0 rest)
  | cs => (numberExtent? cs).map (·.1)

/-! ## Kinds of literals -/

/-- What a literal is. -/
inductive LiteralClass where
  /-- A whole number. -/
  | integer
  /-- A number with a fraction, an exponent or a mark of precision. -/
  | real
  | character
  | text
  deriving DecidableEq

/-- Whether every backslash of a text begins an escape.  `skip` characters have been
accounted for. -/
def escapesFit : Nat → List Char → Bool
  | _, [] => true
  | skip + 1, _ :: cs => escapesFit skip cs
  | 0, c :: cs =>
    if c = '\\' then
      match escapeExtent? cs with
      | some n => escapesFit n cs
      | none => false
    else escapesFit 0 cs

/-- What a written literal is; nothing if an escape in it is none. -/
def literalClass? (cs : List Char) : Option LiteralClass :=
  match cs with
  | '\'' :: rest => if escapesFit 0 rest then some .character else none
  | '"' :: rest => if 3 ≤ runLength '"' cs || escapesFit 0 rest then some .text else none
  | '@' :: _ => some .text
  | _ =>
    match numberExtent? cs with
    | some (_, whole) => some (if whole then .integer else .real)
    | none => some .text

end Source
end AggregateAudit
