import AggregateAudit.Source.Directive

/-!
# Strings with code in them

A string behind `$` holds code between braces, and that code may hold such
strings again.  So reading lexemes depends on what one is inside of: the *modes*,
innermost first.  In the text of a string there are only stretches of text, holes
and the closing quote; in a hole the lexemes are those of any code, but the brace
that closes the hole is told apart, and a colon outside of all brackets begins a
format, which is text again.
-/

namespace AggregateAudit
namespace Source

/-- How a string with code in it is written. -/
structure TextForm where
  /-- How many quotes close it. -/
  quotes : Nat
  /-- How many braces open a hole. -/
  braces : Nat
  /-- Whether a quote in it is doubled instead of escaped. -/
  verbatim : Bool

/-- Whether backslashes escape in a string, and line ends do not belong to it. -/
def TextForm.isPlain (f : TextForm) : Bool := f.quotes = 1 && !f.verbatim

/-- What the reader of lexemes is inside of. -/
inductive Mode where
  | text (form : TextForm)
  /-- Code that `braces` braces close, inside `depth` brackets of its own, where
  `choices` question marks wait for their colon. -/
  | hole (braces depth choices : Nat)

/-- How many characters a string takes that is opened behind dollars as if it held
code, and is closed at once.  There is no such string. -/
def emptyTextExtent? (cs : List Char) : Option Nat :=
  let dollars := runLength '$' cs
  if 0 < dollars && runLength '"' (cs.drop dollars) = 2 then some (dollars + 2) else none

/-- How a string with code in it starts, if one does at the start of a text, and
how many characters its opening takes. -/
def textStart? (cs : List Char) : Option (TextForm × Nat) :=
  let lead := if cs.head? = some '@' then 1 else 0
  let dollars := runLength '$' (cs.drop lead)
  if dollars = 0 then none
  else
    match cs.drop (lead + dollars) with
    | '@' :: '"' :: _ => some (⟨1, dollars, true⟩, lead + dollars + 2)
    | '"' :: more =>
      let quotes := 1 + runLength '"' more
      if lead = 1 then some (⟨1, dollars, true⟩, lead + dollars + 1)
      else if 3 ≤ quotes then some (⟨quotes, dollars, false⟩, dollars + quotes)
      else some (⟨1, dollars, false⟩, dollars + 1)
    | _ => none

/-- Whether a character of a text with holes stands for itself. -/
def isPlainText (c : Char) : Bool := c ≠ '"' && c ≠ '\x7b' && c ≠ '\\' && c ≠ '\n'

/-- What comes next in the text of a string: its kind, its extent, and the modes
behind it.  As many braces as the string has dollars open a hole; one more is
text. -/
def TextForm.step (f : TextForm) (outer : List Mode) (cs : List Char) :
    LexemeKind × Nat × List Mode :=
  let stay := Mode.text f :: outer
  match cs with
  | [] => (.textPart, 0, stay)
  | '"' :: rest =>
    let run := 1 + runLength '"' rest
    if f.verbatim && 2 ≤ run then (.textPart, 2, stay)
    else if f.quotes = 1 then (.textClose, 1, outer)
    else if f.quotes ≤ run then (.textClose, run, outer)
    else (.textPart, run, stay)
  | '\x7b' :: rest =>
    let run := 1 + runLength '\x7b' rest
    if run = f.braces then (.holeOpen, run, .hole f.braces 0 0 :: stay)
    else if run < f.braces then (.textPart, run, stay)
    else (.textPart, f.braces + 1, stay)
  | '\\' :: rest =>
    if f.isPlain then
      match escapeExtent? rest with
      | some n => (.textPart, 1 + n, stay)
      | none => (.stray, if rest.head? = some '\x7b' then 1 else 2, stay)
    else (.textPart, 1, stay)
  | '\n' :: _ => (if f.isPlain then .stray else .textPart, 1, stay)
  | _ => (.textPart, (cs.takeWhile isPlainText).length, stay)

/-- Whether a question mark begins a choice between two values, given what
follows it: before a point or a bracket it asks for a value to be there. -/
def beginsChoice : List Char → Bool
  | '.' :: d :: _ => d.isDigit
  | '.' :: [] => false
  | '[' :: _ => false
  | _ => true

/-- The modes behind a mark in the code of a hole. -/
def holeAfterMark (braces depth choices : Nat) (mark : List Char) (rest : List Char) : Mode :=
  match mark with
  | ['('] => .hole braces (depth + 1) choices
  | ['['] => .hole braces (depth + 1) choices
  | ['\x7b'] => .hole braces (depth + 1) choices
  | [')'] => .hole braces (depth - 1) choices
  | [']'] => .hole braces (depth - 1) choices
  | ['\x7d'] => .hole braces (depth - 1) choices
  | ['?'] =>
    if depth = 0 && beginsChoice rest then .hole braces depth (choices + 1)
    else .hole braces depth choices
  | [':'] => if depth = 0 then .hole braces depth (choices - 1) else .hole braces depth choices
  | _ => .hole braces depth choices

/-- What comes next in a hole outside all brackets if it is no ordinary lexeme:
the closing braces, or a format, which goes on to a brace or a quote. -/
def holeEnd? (braces choices : Nat) (outer : List Mode) (cs : List Char) :
    Option (LexemeKind × Nat × List Mode) :=
  match cs with
  | '\x7d' :: _ => some (.holeClose, min braces (runLength '\x7d' cs), outer)
  | ':' :: ':' :: _ => none
  | ':' :: rest =>
    if choices = 0 then
      some (.format, 1 + (rest.takeWhile fun c => c ≠ '\x7d' && c ≠ '"').length,
        .hole braces 0 0 :: outer)
    else none
  | _ => none

end Source
end AggregateAudit
