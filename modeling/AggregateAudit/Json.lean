/-!
# JSON values and their text

A JSON value, the text it is written as, and the reading of such a text.  Numbers
matter to this library only as natural numbers, so a number that is written as
plain digits is kept as a `Nat` and any other number as its digits and marks.

Writing comes in two forms that differ in white space only: `compact`, and
`pretty` with two blanks of indentation per level.  Strings are escaped as little
as possible: quotes, backslashes and control characters.
-/

namespace AggregateAudit

/-- A JSON value. -/
inductive Json where
  | null
  | bool (b : Bool)
  /-- A number written as digits only. -/
  | natural (n : Nat)
  /-- Any other number, as it is written. -/
  | number (literal : List Char)
  | string (s : String)
  | array (items : List Json)
  /-- An object, with its members in order. -/
  | object (members : List (String × Json))

namespace Json

/-! ## Writing -/

/-- A digit of base sixteen, in lower case. -/
def hexDigit (n : Nat) : Char := if n < 10 then Char.ofNat (48 + n) else Char.ofNat (87 + n)

/-- A character inside a string. -/
def escape (c : Char) : List Char :=
  if c = '"' then ['\\', '"']
  else if c = '\\' then ['\\', '\\']
  else if c = '\n' then ['\\', 'n']
  else if c = '\r' then ['\\', 'r']
  else if c = '\t' then ['\\', 't']
  else if c.toNat = 8 then ['\\', 'b']
  else if c.toNat = 12 then ['\\', 'f']
  else if c.toNat < 32 then ['\\', 'u', '0', '0', hexDigit (c.toNat / 16), hexDigit (c.toNat % 16)]
  else [c]

/-- A string between quotes. -/
def quoted (s : String) : List Char := '"' :: (s.toList.flatMap escape ++ ['"'])

/-- The digits of a natural number. -/
def digits (n : Nat) : List Char := (toString n).toList

/-- What separates the parts of an array or object: the line breaks and blanks of
one level, or nothing. -/
structure Layout where
  /-- Whether each item stands on a line of its own. -/
  lines : Bool

/-- The break in front of an item that stands `level` levels deep. -/
def Layout.break (l : Layout) (level : Nat) : List Char :=
  if l.lines then '\n' :: List.replicate (2 * level) ' ' else []

/-- The mark between a key and its value. -/
def Layout.colon (l : Layout) : List Char := if l.lines then [':', ' '] else [':']

mutual

/-- A value that stands `level` levels deep, as text. -/
def write (l : Layout) (level : Nat) : Json → List Char
  | null => ['n', 'u', 'l', 'l']
  | bool true => ['t', 'r', 'u', 'e']
  | bool false => ['f', 'a', 'l', 's', 'e']
  | natural n => digits n
  | number t => t
  | string s => quoted s
  | array [] => ['[', ']']
  | array (v :: vs) =>
    '[' :: (l.break (level + 1) ++ write l (level + 1) v ++ writeItems l (level + 1) vs
      ++ l.break level ++ [']'])
  | object [] => ['{', '}']
  | object ((k, v) :: ms) =>
    '{' :: (l.break (level + 1) ++ quoted k ++ l.colon ++ write l (level + 1) v
      ++ writeMembers l (level + 1) ms ++ l.break level ++ ['}'])

/-- The items of an array behind the first one. -/
def writeItems (l : Layout) (level : Nat) : List Json → List Char
  | [] => []
  | v :: vs => ',' :: (l.break level ++ write l level v ++ writeItems l level vs)

/-- The members of an object behind the first one. -/
def writeMembers (l : Layout) (level : Nat) : List (String × Json) → List Char
  | [] => []
  | (k, v) :: ms =>
    ',' :: (l.break level ++ quoted k ++ l.colon ++ write l level v ++ writeMembers l level ms)

end

/-- The value on one line, without blanks. -/
def compact (v : Json) : String := String.ofList (write ⟨false⟩ 0 v)

/-- The value with each item on a line of its own. -/
def pretty (v : Json) : String := String.ofList (write ⟨true⟩ 0 v)

/-! ## Looking into a value -/

/-- The value of the last member of an object with this key. -/
def get? (v : Json) (key : String) : Option Json :=
  match v with
  | object members => (members.reverse.find? (·.1 = key)).map (·.2)
  | _ => none

end Json
end AggregateAudit
