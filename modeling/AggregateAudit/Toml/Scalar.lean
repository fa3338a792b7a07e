import AggregateAudit.Toml.Value

/-!
# The scalar values of TOML

Strings in their four forms, integers in their four bases, floating-point numbers,
dates and times.  Each reader takes what it can from the start of a text and
answers with the value and the text that is left, or `none`.
-/

namespace AggregateAudit
namespace Toml

/-! ## Characters -/

/-- A blank within a line. -/
def isGap (c : Char) : Bool := c = ' ' || c = '\t'

/-- Characters that may stand in a comment. -/
def isCommentChar (c : Char) : Bool := c = '\t' || (0x20 ≤ c.toNat && c.toNat ≠ 0x7F)

/-- Characters that may stand in a string as they are, quotes and backslashes
apart. -/
def isStringChar (c : Char) : Bool := c = '\t' || (0x20 ≤ c.toNat && c.toNat ≠ 0x7F)

def isHex (c : Char) : Bool :=
  c.isDigit || ('a' ≤ c && c ≤ 'f') || ('A' ≤ c && c ≤ 'F')

/-- The value of a digit, in any base up to sixteen. -/
def digitValue (c : Char) : Nat :=
  if c.isDigit then c.toNat - 48
  else if 'a' ≤ c && c ≤ 'f' then c.toNat - 87
  else c.toNat - 55

/-- The number that a row of digits stands for. -/
def ofDigits (base : Nat) (ds : List Char) : Nat :=
  ds.foldl (fun n d => n * base + digitValue d) 0

/-- The text behind a line break at the start of a text. -/
def lineBreak? : List Char → Option (List Char)
  | '\n' :: rest => some rest
  | '\r' :: '\n' :: rest => some rest
  | _ => none

/-! ## Strings -/

/-- The character of a code point, which must not be half of a pair. -/
def codePoint? (n : Nat) : Option Char :=
  if n < 0xD800 || (0xE000 ≤ n && n < 0x110000) then some (Char.ofNat n) else none

/-- The character of an escape behind its backslash, and how many characters the
escape takes. -/
def escape? : List Char → Option (Char × Nat)
  | 'b' :: _ => some (Char.ofNat 8, 1)
  | 't' :: _ => some ('\t', 1)
  | 'n' :: _ => some ('\n', 1)
  | 'f' :: _ => some (Char.ofNat 12, 1)
  | 'r' :: _ => some ('\r', 1)
  | '"' :: _ => some ('"', 1)
  | '\\' :: _ => some ('\\', 1)
  | 'u' :: rest =>
    let ds := rest.take 4
    if ds.countP isHex = 4 then (codePoint? (ofDigits 16 ds)).map (·, 5) else none
  | 'U' :: rest =>
    let ds := rest.take 8
    if ds.countP isHex = 8 then (codePoint? (ofDigits 16 ds)).map (·, 9) else none
  | _ => none

/-- Puts a character in front of what has been read. -/
def prepend (c : Char) (r : Option (List Char × List Char)) : Option (List Char × List Char) :=
  r.map fun (s, rest) => (c :: s, rest)

/-- The rest of a basic string.  `skip` characters belong to an escape that has
been read. -/
def basicString : (skip : Nat) → List Char → Option (List Char × List Char)
  | _, [] => none
  | skip + 1, _ :: cs => basicString skip cs
  | 0, c :: cs =>
    if c = '"' then some ([], cs)
    else if c = '\\' then
      match escape? cs with
      | some (e, n) => prepend e (basicString n cs)
      | none => none
    else if isStringChar c then prepend c (basicString 0 cs)
    else none

/-- The rest of a literal string. -/
def literalString : List Char → Option (List Char × List Char)
  | [] => none
  | c :: cs =>
    if c = '\'' then some ([], cs)
    else if isStringChar c then prepend c (literalString cs)
    else none

/-- The end of a string between three quotes each, if it stands at the start of a
text: up to two more quotes belong to the string. -/
def tripleEnd? (q : Char) : List Char → Option (List Char × List Char)
  | a :: b :: c :: d :: e :: rest =>
    if a = q && b = q && c = q then
      if d = q && e = q then some ([q, q], rest)
      else if d = q then some ([q], e :: rest)
      else some ([], d :: e :: rest)
    else none
  | [a, b, c, d] =>
    if a = q && b = q && c = q then if d = q then some ([q], []) else some ([], [d]) else none
  | [a, b, c] => if a = q && b = q && c = q then some ([], []) else none
  | _ => none

/-- Whether a backslash in front of this text ends its line. -/
def endsLine (cs : List Char) : Bool := (lineBreak? (cs.dropWhile isGap)).isSome

/-- The rest of a basic string of several lines.  After a backslash at the end of a
line, `joining` skips blanks and line breaks. -/
def basicText (joining : Bool) : (skip : Nat) → List Char → Option (List Char × List Char)
  | _, [] => none
  | skip + 1, _ :: cs => basicText joining skip cs
  | 0, c :: cs =>
    if joining && (isGap c || c = '\n') then basicText true 0 cs
    else if joining && c = '\r' && cs.head? = some '\n' then basicText true 0 cs
    else
      match tripleEnd? '"' (c :: cs) with
      | some r => some r
      | none =>
        if c = '\\' then
          if endsLine cs then basicText true 0 cs
          else
            match escape? cs with
            | some (e, n) => prepend e (basicText false n cs)
            | none => none
        else if c = '\n' then prepend '\n' (basicText false 0 cs)
        else if c = '\r' && cs.head? = some '\n' then basicText false 0 cs
        else if isStringChar c then prepend c (basicText false 0 cs)
        else none

/-- The rest of a literal string of several lines. -/
def literalText : List Char → Option (List Char × List Char)
  | [] => none
  | c :: cs =>
    match tripleEnd? '\'' (c :: cs) with
    | some r => some r
    | none =>
      if c = '\n' then prepend '\n' (literalText cs)
      else if c = '\r' && cs.head? = some '\n' then literalText cs
      else if isStringChar c then prepend c (literalText cs)
      else none

/-- A text behind the line break it may begin with. -/
def dropFirstBreak (cs : List Char) : List Char := (lineBreak? cs).getD cs

/-- The string at the start of a text, in any of its forms. -/
def string? : List Char → Option (List Char × List Char)
  | '"' :: '"' :: '"' :: rest => basicText false 0 (dropFirstBreak rest)
  | '"' :: rest => basicString 0 rest
  | '\'' :: '\'' :: '\'' :: rest => literalText (dropFirstBreak rest)
  | '\'' :: rest => literalString rest
  | _ => none

/-! ## Numbers -/

/-- Digits with single underscores between them; `none` where an underscore does
not stand between two digits.  The underscores are left out. -/
def spacedDigits? (isDigit : Char → Bool) (cs : List Char) : Option (List Char) :=
  match cs with
  | [] => none
  | [c] => if isDigit c then some [c] else none
  | c :: '_' :: rest => if isDigit c then (spacedDigits? isDigit rest).map (c :: ·) else none
  | c :: rest => if isDigit c then (spacedDigits? isDigit rest).map (c :: ·) else none

/-- Digits without a zero in front, unless zero is the only one. -/
def plainDigits? (cs : List Char) : Option (List Char) := do
  let ds ← spacedDigits? Char.isDigit cs
  match ds with
  | '0' :: _ :: _ => none
  | _ => some ds

/-- Whether an integer fits into 64 bits. -/
def fits64 (n : Int) : Bool := -9223372036854775808 ≤ n && n < 9223372036854775808

/-- A text without the sign it may begin with, and whether that was a minus. -/
def unsigned : List Char → Bool × List Char
  | '-' :: cs => (true, cs)
  | '+' :: cs => (false, cs)
  | cs => (false, cs)

/-- The integer that a word stands for. -/
def integer? (word : List Char) : Option Int := do
  let n ←
    match word with
    | '0' :: 'x' :: ds => (spacedDigits? isHex ds).map fun ds => (ofDigits 16 ds : Int)
    | '0' :: 'o' :: ds =>
      (spacedDigits? (fun c => '0' ≤ c && c ≤ '7') ds).map fun ds => (ofDigits 8 ds : Int)
    | '0' :: 'b' :: ds =>
      (spacedDigits? (fun c => c = '0' || c = '1') ds).map fun ds => (ofDigits 2 ds : Int)
    | _ =>
      let (negative, body) := unsigned word
      (plainDigits? body).map fun ds =>
        if negative then -(ofDigits 10 ds : Int) else (ofDigits 10 ds : Int)
  if fits64 n then some n else none

/-- Whether `mantissa · 10^exponent` is too large for a double: at or above the
middle between the largest double and the next power of two. -/
def exceedsDouble (mantissa : Nat) (exponent : Int) : Bool :=
  if mantissa = 0 then false
  else if exponent < 0 then
    (Nat.pow 2 1024 - Nat.pow 2 970) * Nat.pow 10 (-exponent).toNat ≤ mantissa
  else if 400 < exponent then true
  else Nat.pow 2 1024 - Nat.pow 2 970 ≤ mantissa * Nat.pow 10 exponent.toNat

/-- Whether a word is a floating-point number.  A number above the largest double
is refused, one below the smallest is not. -/
def isFloat (word : List Char) : Bool :=
  let (negative, body) := unsigned word
  if body = ['i', 'n', 'f'] || body = ['n', 'a', 'n'] then true
  else
    let isMark := fun c => c = 'e' || c = 'E'
    let number := body.takeWhile fun c => !isMark c
    let power := (body.dropWhile fun c => !isMark c).drop 1
    let hasPower := body.any isMark
    let whole := number.takeWhile (· ≠ '.')
    let fraction := (number.dropWhile (· ≠ '.')).drop 1
    let hasFraction := number.contains '.'
    let (powerNegative, powerBody) := unsigned power
    match plainDigits? whole with
    | none => false
    | some ws =>
      let fs := if hasFraction then spacedDigits? Char.isDigit fraction else some []
      let ps := if hasPower then spacedDigits? Char.isDigit powerBody else some []
      match fs, ps with
      | some fs, some ps =>
        if !hasFraction && !hasPower then false
        else
          let size := min (ofDigits 10 ps) 100000
          let exponent := (if powerNegative then -(size : Int) else size) - fs.length
          negative || !exceedsDouble (ofDigits 10 (ws ++ fs)) exponent
      | _, _ => false

/-! ## Dates and times -/

/-- Two digits as a number within bounds. -/
def two? (lo hi : Nat) : List Char → Option (Nat × List Char)
  | a :: b :: rest =>
    if a.isDigit && b.isDigit then
      let n := ofDigits 10 [a, b]
      if lo ≤ n && n ≤ hi then some (n, rest) else none
    else none
  | _ => none

/-- The text behind a given character. -/
def char? (c : Char) : List Char → Option (List Char)
  | d :: rest => if d = c then some rest else none
  | [] => none

/-- How many days a month has. -/
def daysIn (year month : Nat) : Nat :=
  if month = 2 then
    if year % 4 = 0 && (year % 100 ≠ 0 || year % 400 = 0) then 29 else 28
  else if month = 4 || month = 6 || month = 9 || month = 11 then 30
  else 31

/-- The text behind a date. -/
def date? (cs : List Char) : Option (List Char) := do
  let ys := cs.take 4
  if ys.countP Char.isDigit ≠ 4 then none
  let year := ofDigits 10 ys
  let (month, rest) ← two? 1 12 (← char? '-' (cs.drop 4))
  let (_, rest) ← two? 1 (daysIn year month) (← char? '-' rest)
  some rest

/-- The text behind a time of day.  A minute may have a sixty-first second. -/
def time? (cs : List Char) : Option (List Char) := do
  let (_, rest) ← two? 0 23 cs
  let (_, rest) ← two? 0 59 (← char? ':' rest)
  let (_, rest) ← two? 0 60 (← char? ':' rest)
  match rest with
  | '.' :: more => if more.head?.any Char.isDigit then some (more.dropWhile Char.isDigit) else none
  | _ => some rest

/-- The text behind the offset from universal time that may follow a time. -/
def offset? (cs : List Char) : Option (List Char) :=
  match cs with
  | 'Z' :: rest => some rest
  | 'z' :: rest => some rest
  | s :: rest =>
    if s = '+' || s = '-' then do
      let (_, rest) ← two? 0 23 rest
      let (_, rest) ← two? 0 59 (← char? ':' rest)
      some rest
    else some cs
  | [] => some []

/-- The text behind a date, a time or both. -/
def datetime? (cs : List Char) : Option (List Char) :=
  match date? cs with
  | some rest =>
    match rest with
    | d :: more =>
      if d = 'T' || d = 't' || d = ' ' then
        match time? more with
        | some after => offset? after
        | none => some rest
      else some rest
    | [] => some []
  | none => time? cs

end Toml
end AggregateAudit
