import AggregateAudit.Path

/-!
# Patterns of ignore files

The patterns of ignore files differ from exclude patterns: wildcards do not cross
slashes, `**` crosses them, `{a,b}` offers alternatives, and a backslash takes a
character literally.  They are matched against the bytes of a path, so `?` and a
class stand for one byte.

A group of alternatives holds rows of tokens, so tokens and rows are one nested
type.  Matching answers for a path and all its suffixes at once, because trying one
way after the other to divide a path among wildcards takes too long.
-/

namespace AggregateAudit
namespace Ignore

/-! ## Patterns -/

/-- The bytes from `low` to `high`. -/
structure ByteRange where
  low : UInt8
  high : UInt8
  deriving DecidableEq

def ByteRange.contains (r : ByteRange) (b : UInt8) : Bool := r.low ≤ b && b ≤ r.high

/-- A part of a pattern. -/
inductive Token where
  | literal (c : Char)
  /-- `?`: one byte that is no slash. -/
  | anyByte
  /-- `*`: any bytes that are no slashes. -/
  | anyBytes
  /-- `**/` at the start: nothing, or anything that ends with a slash. -/
  | leadingComponents
  /-- `/**` at the end: a slash and anything. -/
  | trailingComponents
  /-- `/**/` in the middle: a slash, or anything between two slashes. -/
  | innerComponents
  | byteClass (negated : Bool) (class_ : List ByteRange)
  /-- `{…,…}`. -/
  | alternatives (branches : List (List Token))

/-- Why a pattern cannot be read. -/
inductive Fault where
  | emptyRange (low high : Char)
  | unopenedGroup
  | unclosedGroup
  | danglingEscape
  deriving DecidableEq

def Fault.message : Fault → String
  | emptyRange low high =>
    "invalid range; '" ++ String.singleton low ++ "' > '" ++ String.singleton high ++ "'"
  | unopenedGroup =>
    "unopened alternate group; missing '\x7b' (maybe escape '\x7d' with '[\x7d]'?)"
  | unclosedGroup =>
    "unclosed alternate group; missing '\x7d' (maybe escape '\x7b' with '[\x7b]'?)"
  | danglingEscape => "dangling '\\'"

/-! ## Classes -/

/-- A class while it is read: its ranges, the last one first, and whether a dash
waits for the end of a range. -/
structure ClassReader where
  ranges : List (Char × Char) := []
  open_ : Bool := false

/-- Reads one character of a class. -/
def ClassReader.step (r : ClassReader) (c : Char) : Except Fault ClassReader :=
  match r.ranges, r.open_ with
  | (low, _) :: rest, true =>
    if c < low then .error (.emptyRange low c) else .ok ⟨(low, c) :: rest, false⟩
  | _ :: _, false =>
    if c = '-' then .ok { r with open_ := true } else .ok ⟨(c, c) :: r.ranges, false⟩
  | [], _ => .ok ⟨[(c, c)], false⟩

/-- The ranges of a class: a dash that ends the class stands for itself. -/
def ClassReader.finish (r : ClassReader) : List (Char × Char) :=
  ((if r.open_ then [('-', '-')] else []) ++ r.ranges).reverse

/-- The bytes of a character. -/
def bytesOf (c : Char) : List UInt8 := (String.singleton c).toUTF8.toList

/-- The bytes that a range of characters stands for: a range of single bytes is
itself; of longer characters each byte stands for itself, and the range reaches from
the last byte of the lower one to the first byte of the higher one. -/
def byteRanges (r : Char × Char) : List ByteRange :=
  let single (b : UInt8) : ByteRange := ⟨b, b⟩
  if r.1 = r.2 then (bytesOf r.1).map single
  else
    let low := bytesOf r.1
    let high := bytesOf r.2
    (low.dropLast.map single) ++ [⟨low.getLastD 0, high.headD 0⟩] ++ (high.drop 1).map single

/-- What reading a class can lead to. -/
inductive ClassOutcome where
  | closed (ranges : List (Char × Char)) (length : Nat)
  | unclosed
  | fault (f : Fault)

/-- Reads a class up to its closing bracket, which cannot be its first character.
`taken` counts the characters that have been read. -/
def readClass (r : ClassReader) (taken : Nat) : List Char → ClassOutcome
  | [] => .unclosed
  | c :: cs =>
    if c = ']' && !r.ranges.isEmpty then .closed r.finish (taken + 1)
    else
      match r.step c with
      | .ok r => readClass r (taken + 1) cs
      | .error f => .fault f

/-- Whether a class begins with a mark of negation. -/
def isNegation (cs : List Char) : Bool := cs.head? = some '!' || cs.head? = some '^'

/-! ## Reading a pattern -/

/-- A group of alternatives that is still open: the tokens in front of it and the
branches that are complete, the last one first in both. -/
structure OpenGroup where
  front : List Token
  branches : List (List Token)

/-- What has been read of a pattern. -/
structure Reader where
  /-- The tokens of the branch that is being read, the last one first. -/
  row : List Token := []
  /-- The groups that are open, the innermost one first. -/
  groups : List OpenGroup := []
  /-- The character in front. -/
  before : Option Char := none
  /-- Whether some bracket had no counterpart.  Then brackets stand for
  themselves. -/
  bracketsAreLiteral : Bool := false

namespace Reader

def push (r : Reader) (t : Token) : Reader := { r with row := t :: r.row }

/-- Closes the innermost group. -/
def closeGroup (r : Reader) : Except Fault Reader :=
  match r.groups with
  | [] => .error .unopenedGroup
  | g :: gs =>
    let branches := (r.row.reverse :: g.branches).reverse
    .ok { r with row := .alternatives branches :: g.front, groups := gs }

/-- Opens a group. -/
def openGroup (r : Reader) : Reader :=
  { r with row := [], groups := ⟨r.row, []⟩ :: r.groups }

/-- A comma begins a new branch of a group and stands for itself elsewhere. -/
def comma (r : Reader) : Reader :=
  match r.groups with
  | [] => r.push (.literal ',')
  | g :: gs => { r with row := [], groups := ⟨g.front, r.row.reverse :: g.branches⟩ :: gs }

/-- Two stars that are no component of their own. -/
def twoStars (r : Reader) : Reader := (r.push .anyBytes).push .anyBytes

/-- Puts a recursive wildcard in place of the slash in front of it, unless another
one reaches up to here. -/
def replaceSlash (r : Reader) (t : Token) : Reader :=
  match r.row with
  | .leadingComponents :: _ => r
  | .trailingComponents :: _ => r
  | _ :: rest => { r with row := t :: rest }
  | [] => r

/-- Reads a pair of stars, given the text behind it.  The second component says how
many characters of that text belong to it. -/
def doubleStar (r : Reader) (behind : List Char) : Reader × Nat :=
  let inGroup := !r.groups.isEmpty
  if r.row.isEmpty then
    match behind with
    | [] => (r.push .leadingComponents, 0)
    | '/' :: _ => (r.push .leadingComponents, 1)
    | _ :: _ => (r.twoStars, 0)
  else if r.before ≠ some '/'
      && !(inGroup && (r.before = some ',' || r.before = some '{')) then
    (r.twoStars, 0)
  else
    match behind with
    | [] => (r.replaceSlash .trailingComponents, 0)
    | '/' :: _ => (r.replaceSlash .innerComponents, 1)
    | c :: _ =>
      if inGroup && (c = ',' || c = '}') then (r.replaceSlash .trailingComponents, 0)
      else (r.twoStars, 0)

/-- Reads a class, given the text behind its bracket. -/
def readBracket (r : Reader) (behind : List Char) : Except Fault (Reader × Nat) :=
  let negated := isNegation behind
  let mark := if negated then 1 else 0
  match readClass {} mark (behind.drop mark) with
  | .closed ranges length => .ok (r.push (.byteClass negated (ranges.flatMap byteRanges)), length)
  | .unclosed => .ok ({ r with bracketsAreLiteral := true }.push (.literal '['), 0)
  | .fault f => .error f

/-- Reads a character, given the text behind it.  The second component says how many
characters of that text belong to it. -/
def step (r : Reader) (c : Char) (behind : List Char) : Except Fault (Reader × Nat) :=
  if c = '?' then .ok (r.push .anyByte, 0)
  else if c = '*' then
    match behind with
    | '*' :: rest =>
      let (r, taken) := r.doubleStar rest
      .ok (r, taken + 1)
    | _ => .ok (r.push .anyBytes, 0)
  else if c = '[' && !r.bracketsAreLiteral then r.readBracket behind
  else if c = '{' then .ok (r.openGroup, 0)
  else if c = '}' then r.closeGroup.map (·, 0)
  else if c = ',' then .ok (r.comma, 0)
  else if c = '\\' then
    match behind with
    | [] => .error .danglingEscape
    | d :: _ => .ok (r.push (.literal d), 1)
  else .ok (r.push (.literal c), 0)

/-- Reads the rest of a pattern.  The first `skip` characters belong to a token that
has been read. -/
def run (r : Reader) : (skip : Nat) → List Char → Except Fault Reader
  | _, [] => .ok r
  | skip + 1, c :: cs => run { r with before := some c } skip cs
  | 0, c :: cs =>
    match r.step c cs with
    | .error f => .error f
    | .ok (r, skip) => run { r with before := some c } skip cs

end Reader

/-- The tokens of a pattern. -/
def parse (pattern : List Char) : Except Fault (List Token) :=
  match Reader.run {} 0 pattern with
  | .error f => .error f
  | .ok r => if r.groups.isEmpty then .ok r.row.reverse else .error .unclosedGroup

/-! ## Matching -/

mutual

/-- Whether a token says nothing: a group whose branches all say nothing. -/
def isVoid : Token → Bool
  | .alternatives branches => areVoid branches
  | _ => false

/-- Whether a row of tokens says nothing. -/
def isVoidRow : List Token → Bool
  | [] => true
  | t :: ts => isVoid t && isVoidRow ts

/-- Whether several rows of tokens say nothing. -/
def areVoid : List (List Token) → Bool
  | [] => true
  | row :: rows => isVoidRow row && areVoid rows

end

/-! ### Verdicts on all suffixes

A row of verdicts belongs to a path: one for the path itself, one for each shorter
suffix of it, and the last one for the empty suffix. -/

/-- The verdicts of which only the one on the empty suffix is good. -/
def atEnd : List UInt8 → List Bool
  | [] => [true]
  | _ :: bs => false :: atEnd bs

/-- For each suffix, whether its first byte satisfies `p` and the verdict behind that
byte is good. -/
def nextFits (p : UInt8 → Bool) : List UInt8 → List Bool → List Bool
  | b :: bs, _ :: rest => (p b && rest.headD false) :: nextFits p bs rest
  | _, _ => [false]

/-- For each suffix, whether it begins with these bytes and the verdict behind them is
good. -/
def nextAre : List UInt8 → List UInt8 → List Bool → List Bool
  | [], _, rest => rest
  | c :: cs, s, rest => nextFits (· = c) s (nextAre cs s rest)

/-- For each suffix, whether the verdict on it or on a shorter one is good, where the
bytes between satisfy `p`. -/
def anyLater (p : UInt8 → Bool) : List UInt8 → List Bool → List Bool
  | b :: bs, v :: rest =>
    let later := anyLater p bs rest
    (v || (p b && later.headD false)) :: later
  | _, rest => rest

/-- For each suffix, whether the verdict behind one of its slashes is good. -/
def anyBehindSlash : List UInt8 → List Bool → List Bool
  | b :: bs, _ :: rest =>
    let later := anyBehindSlash bs rest
    ((b = Path.slash && rest.headD false) || later.headD false) :: later
  | _, _ => [false]

/-- For each suffix, whether one of two verdicts is good. -/
def eitherOf (vs ws : List Bool) : List Bool := vs.zipWith (· || ·) ws

mutual

/-- The verdicts with one more token in front. -/
def Token.verdicts (s : List UInt8) (rest : List Bool) : Token → List Bool
  | .literal c => nextAre (bytesOf c) s rest
  | .anyByte => nextFits (· ≠ Path.slash) s rest
  | .anyBytes => anyLater (· ≠ Path.slash) s rest
  | .leadingComponents => eitherOf rest (anyBehindSlash s rest)
  | .trailingComponents => nextFits (· = Path.slash) s (anyLater (fun _ => true) s rest)
  | .innerComponents => nextFits (· = Path.slash) s (eitherOf rest (anyBehindSlash s rest))
  | .byteClass negated class_ => nextFits (fun b => class_.any (·.contains b) ≠ negated) s rest
  | .alternatives branches => if areVoid branches then rest else branchVerdicts s rest branches

/-- The verdicts with a row of tokens in front. -/
def rowVerdicts (s : List UInt8) (rest : List Bool) : List Token → List Bool
  | [] => rest
  | t :: ts => t.verdicts s (rowVerdicts s rest ts)

/-- The verdicts with one of several rows in front, leaving out those that say
nothing. -/
def branchVerdicts (s : List UInt8) (rest : List Bool) : List (List Token) → List Bool
  | [] => rest.map fun _ => false
  | row :: rows =>
    if isVoidRow row then branchVerdicts s rest rows
    else eitherOf (rowVerdicts s rest row) (branchVerdicts s rest rows)

end

/-- Whether a pattern matches a whole path.  The pattern `**` matches every path. -/
def matchPath (pattern : List Token) (path : List UInt8) : Bool :=
  match pattern with
  | [.leadingComponents] => true
  | _ => (rowVerdicts path (atEnd path) pattern).headD false

end Ignore
end AggregateAudit
