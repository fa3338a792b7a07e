import AggregateAudit.Json

/-!
# Reading JSON

The reader goes through a text once and gives up at the first character that does
not fit.  It is total because every value takes at least one character: the
number of characters bounds how often it has to look for another value.
-/

namespace AggregateAudit
namespace Json

/-- The white space of JSON. -/
def isSpace (c : Char) : Bool := c = ' ' || c = '\n' || c = '\r' || c = '\t'

/-- A text behind the white space it begins with. -/
def skipSpace (cs : List Char) : List Char := cs.dropWhile isSpace

/-- The value of a digit of base sixteen. -/
def hexValue? (c : Char) : Option Nat :=
  if c.isDigit then some (c.toNat - 48)
  else if 'a' ≤ c && c ≤ 'f' then some (c.toNat - 87)
  else if 'A' ≤ c && c ≤ 'F' then some (c.toNat - 55)
  else none

/-- The value of four digits of base sixteen. -/
def hex4? (a b c d : Char) : Option Nat := do
  let a ← hexValue? a
  let b ← hexValue? b
  let c ← hexValue? c
  let d ← hexValue? d
  some (((a * 16 + b) * 16 + c) * 16 + d)

/-- The character of a one-letter escape. -/
def simpleEscape? : Char → Option Char
  | '"' => some '"'
  | '\\' => some '\\'
  | '/' => some '/'
  | 'b' => some (Char.ofNat 8)
  | 'f' => some (Char.ofNat 12)
  | 'n' => some '\n'
  | 'r' => some '\r'
  | 't' => some '\t'
  | _ => none

/-- The rest of a string behind its opening quote, and the text behind it.  An
escape above the basic plane is written as two halves. -/
def readString : List Char → Option (List Char × List Char)
  | [] => none
  | '"' :: rest => some ([], rest)
  | '\\' :: 'u' :: a :: b :: c :: d :: rest =>
    match hex4? a b c d with
    | none => none
    | some n =>
      if 0xD800 ≤ n && n < 0xDC00 then
        match rest with
        | '\\' :: 'u' :: e :: f :: g :: h :: more =>
          match hex4? e f g h with
          | none => none
          | some m =>
            if 0xDC00 ≤ m && m < 0xE000 then
              (readString more).map fun (s, r) =>
                (Char.ofNat (0x10000 + (n - 0xD800) * 0x400 + (m - 0xDC00)) :: s, r)
            else none
        | _ => none
      else if 0xDC00 ≤ n && n < 0xE000 then none
      else (readString rest).map fun (s, r) => (Char.ofNat n :: s, r)
  | '\\' :: e :: rest =>
    match simpleEscape? e with
    | none => none
    | some c => (readString rest).map fun (s, r) => (c :: s, r)
  | c :: rest =>
    if c.toNat < 32 || c = '\\' then none
    else (readString rest).map fun (s, r) => (c :: s, r)

/-- The number that a row of digits stands for. -/
def valueOfDigits (ds : List Char) : Nat := ds.foldl (fun n d => n * 10 + (d.toNat - 48)) 0

/-- The fraction at the start of a text, with its point; nothing if there is
none. -/
def readFraction : List Char → Option (List Char × List Char)
  | '.' :: rest =>
    let ds := rest.takeWhile Char.isDigit
    if ds.isEmpty then none else some ('.' :: ds, rest.dropWhile Char.isDigit)
  | cs => some ([], cs)

/-- The exponent at the start of a text; nothing if there is none. -/
def readExponent : List Char → Option (List Char × List Char)
  | [] => some ([], [])
  | e :: rest =>
    if e = 'e' || e = 'E' then
      let sign := (rest.take 1).filter fun c => c = '+' || c = '-'
      let rest := rest.drop sign.length
      let ds := rest.takeWhile Char.isDigit
      if ds.isEmpty then none else some (e :: (sign ++ ds), rest.dropWhile Char.isDigit)
    else some ([], e :: rest)

/-- The number at the start of a text.  A first zero is the only digit in front of
the point. -/
def readNumber (cs : List Char) : Option (Json × List Char) := do
  let negative := cs.head? = some '-'
  let body := if negative then cs.drop 1 else cs
  let whole := body.takeWhile Char.isDigit
  if whole.isEmpty then none
  if whole.head? = some '0' && 1 < whole.length then none
  let (fraction, rest) ← readFraction (body.dropWhile Char.isDigit)
  let (exponent, rest) ← readExponent rest
  if !negative && fraction.isEmpty && exponent.isEmpty then
    some (natural (valueOfDigits whole), rest)
  else
    some (number ((if negative then ['-'] else []) ++ whole ++ fraction ++ exponent), rest)

mutual

/-- The value at the start of a text without white space in front; at most `n`
values deep and wide. -/
def readValue : Nat → List Char → Option (Json × List Char)
  | 0, _ => none
  | n + 1, cs =>
    match cs with
    | 'n' :: 'u' :: 'l' :: 'l' :: rest => some (null, rest)
    | 't' :: 'r' :: 'u' :: 'e' :: rest => some (bool true, rest)
    | 'f' :: 'a' :: 'l' :: 's' :: 'e' :: rest => some (bool false, rest)
    | '"' :: rest => (readString rest).map fun (s, r) => (string (String.ofList s), r)
    | '[' :: rest =>
      match skipSpace rest with
      | ']' :: more => some (array [], more)
      | more => (readItems n more).map fun (vs, r) => (array vs, r)
    | '{' :: rest =>
      match skipSpace rest with
      | '}' :: more => some (object [], more)
      | more => (readMembers n more).map fun (ms, r) => (object ms, r)
    | _ => readNumber cs

/-- The items of an array up to its closing bracket. -/
def readItems : Nat → List Char → Option (List Json × List Char)
  | 0, _ => none
  | n + 1, cs => do
    let (v, rest) ← readValue n cs
    match skipSpace rest with
    | ',' :: more => do
      let (vs, r) ← readItems n (skipSpace more)
      some (v :: vs, r)
    | ']' :: more => some ([v], more)
    | _ => none

/-- The members of an object up to its closing brace. -/
def readMembers : Nat → List Char → Option (List (String × Json) × List Char)
  | 0, _ => none
  | n + 1, cs =>
    match cs with
    | '"' :: rest => do
      let (k, rest) ← readString rest
      match skipSpace rest with
      | ':' :: rest => do
        let (v, rest) ← readValue n (skipSpace rest)
        match skipSpace rest with
        | ',' :: more => do
          let (ms, r) ← readMembers n (skipSpace more)
          some ((String.ofList k, v) :: ms, r)
        | '}' :: more => some ([(String.ofList k, v)], more)
        | _ => none
      | _ => none
    | _ => none

end

/-- Reads a text that holds one value and nothing else but white space. -/
def read? (text : String) : Option Json := do
  let cs := skipSpace text.toList
  let (v, rest) ← readValue (cs.length + 1) cs
  if (skipSpace rest).isEmpty then some v else none

end Json
end AggregateAudit
