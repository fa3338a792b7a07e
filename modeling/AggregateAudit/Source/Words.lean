import AggregateAudit.Source.Piece

/-!
# Words and types

Cutting a row into declarations rests on two questions about its pieces: which
words can be names, and how many pieces a written type takes.

No word is reserved everywhere.  A word is a keyword in a place where the grammar
has a use for that keyword, and a name in all others: behind a point any word is
a name, and so it is behind `class`.  The lists below are the keywords of the
places that need one.
-/

namespace AggregateAudit
namespace Source

/-! ## Keywords by place -/

/-- The words that stand for types. -/
def builtinTypes : List String :=
  ["bool", "byte", "char", "decimal", "double", "float", "int", "long", "nint", "nuint", "object",
    "sbyte", "short", "string", "uint", "ulong", "ushort", "void"]

/-- The words that modify a declaration wherever one may begin. -/
def modifierWords : List String :=
  ["abstract", "async", "const", "extern", "fixed", "internal", "new", "override", "partial",
    "private", "protected", "public", "readonly", "required", "sealed", "static", "unsafe",
    "virtual", "volatile"]

/-- The words that say what a member is. -/
def memberWords : List String :=
  ["class", "delegate", "enum", "event", "explicit", "implicit", "interface", "record", "struct"]

/-- The words that say what a statement or an expression is. -/
def statementWords : List String :=
  ["await", "base", "break", "checked", "const", "continue", "default", "delegate", "do", "false",
    "fixed", "for", "foreach", "goto", "if", "lock", "new", "null", "return", "sizeof", "stackalloc",
    "switch", "this", "throw", "true", "try", "typeof", "unchecked", "using", "while"]

/-- The words that may stand between two operands. -/
def infixWords : List String := ["as", "is", "switch", "with"]

namespace Piece

/-- Whether a piece is a word. -/
def isAnyWord (p : Piece) : Bool := p.word?.isSome

/-- Whether a piece is one of these words. -/
def isWordOf (words : List String) (p : Piece) : Bool := p.word?.any words.contains

/-- Whether a piece is a word, but none of these. -/
def isWordBut (words : List String) (p : Piece) : Bool := p.word?.any (!words.contains ·)

/-- Whether a piece is a modifier of a declaration. -/
def isModifier (p : Piece) : Bool := p.isWordOf modifierWords

end Piece

/-- How many modifiers stand at the start of a row. -/
def modifierCount (ps : List Piece) : Nat := (ps.takeWhile (·.isModifier)).length

/-- Reads what follows the modifiers of a row, and counts them.  The word `file`
modifies only where it cannot be read as a name. -/
def behindModifiers {α : Type} (read : List Piece → Option α) : List Piece → Option (Nat × α)
  | [] => none
  | p :: ps =>
    match if p.isModifier then none else read (p :: ps) with
    | some a => some (0, a)
    | none =>
      if p.isModifier || p.isWord "file" then
        (behindModifiers read ps).map fun r => (r.1 + 1, r.2)
      else none

/-! ## Types -/

/-- The marks that may stand between angle brackets. -/
def angleMarks : List String := [",", ".", "?", "*", "::"]

/-- How many pieces lie between angle brackets, up to and including the `>` that
closes `depth` more of them than itself. -/
def anglesExtent : Nat → List Piece → Option Nat
  | _, [] => none
  | depth, p :: ps =>
    if p.isMark "<" then (anglesExtent (depth + 1) ps).map (· + 1)
    else if p.isMark ">" then
      match depth with
      | 0 => some 1
      | d + 1 => (anglesExtent d ps).map (· + 1)
    else if p.mark?.any angleMarks.contains || p.isAnyWord || p.isGroup .paren
        || p.isGroup .square || p.isGroup .conditional then
      (anglesExtent depth ps).map (· + 1)
    else none

/-- How many pieces the type parameters at the start of a row take: zero where
there are none, `none` where they are not closed. -/
def typeParametersExtent : List Piece → Option Nat
  | [] => some 0
  | p :: ps => if p.isMark "<" then (anglesExtent 0 ps).map (· + 1) else some 0

/-- How far the reading of a type has come. -/
inductive TypeState where
  /-- A type is to begin. -/
  | start
  /-- A name is to follow a point. -/
  | member
  /-- A function pointer is to go on with its type arguments. -/
  | pointer
  /-- A name has been read, type arguments may follow. -/
  | named
  /-- Inside type arguments, with this many more angle brackets open. -/
  | angles (depth : Nat)
  /-- Type arguments have been read, a point may follow. -/
  | applied
  /-- Only question marks, stars and square brackets may follow. -/
  | suffix

/-- Whether a piece goes on a type that has been read. -/
def Piece.isTypeSuffix (p : Piece) : Bool := p.isMark "?" || p.isMark "*" || p.isGroup .square

/-- How many pieces of a row go on a type; `none` if they do not make one. -/
def typeExtent : TypeState → List Piece → Option Nat
  | .start, [] => none
  | .start, p :: ps =>
    if p.isWord "delegate" && ps.head?.any (·.isMark "*") then
      (typeExtent .pointer ps).map (· + 1)
    else if p.isGroup .paren then (typeExtent .suffix ps).map (· + 1)
    else if p.isWordOf builtinTypes then (typeExtent .suffix ps).map (· + 1)
    else if p.isAnyWord then (typeExtent .named ps).map (· + 1)
    else none
  | .member, [] => none
  | .member, p :: ps => if p.isAnyWord then (typeExtent .named ps).map (· + 1) else none
  | .pointer, [] => none
  | .pointer, p :: ps =>
    if p.isMark "<" then (typeExtent (.angles 0) ps).map (· + 1)
    else if p.isMark "*" || p.isAnyWord || p.isGroup .square then
      (typeExtent .pointer ps).map (· + 1)
    else none
  | .named, [] => some 0
  | .named, p :: ps =>
    if p.isMark "<" then (typeExtent (.angles 0) ps).map (· + 1)
    else if p.isMark "." || p.isMark "::" then (typeExtent .member ps).map (· + 1)
    else if p.isTypeSuffix then (typeExtent .suffix ps).map (· + 1)
    else some 0
  | .angles _, [] => none
  | .angles depth, p :: ps =>
    if p.isMark "<" then (typeExtent (.angles (depth + 1)) ps).map (· + 1)
    else if p.isMark ">" then
      match depth with
      | 0 => (typeExtent .applied ps).map (· + 1)
      | d + 1 => (typeExtent (.angles d) ps).map (· + 1)
    else if p.mark?.any angleMarks.contains || p.isAnyWord || p.isGroup .paren
        || p.isGroup .square then
      (typeExtent (.angles depth) ps).map (· + 1)
    else none
  | .applied, [] => some 0
  | .applied, p :: ps =>
    if p.isMark "." || p.isMark "::" then (typeExtent .member ps).map (· + 1)
    else if p.isTypeSuffix then (typeExtent .suffix ps).map (· + 1)
    else some 0
  | .suffix, [] => some 0
  | .suffix, p :: ps => if p.isTypeSuffix then (typeExtent .suffix ps).map (· + 1) else some 0

/-- A written type that begins with a name goes on behind it. -/
theorem typeExtent_start_name {p : Piece} (hword : p.isAnyWord = true)
    (hgroup : p.isGroup .paren = false) (hdelegate : p.isWord "delegate" = false)
    (hbuiltin : p.isWordOf builtinTypes = false) (ps : List Piece) :
    typeExtent .start (p :: ps) = (typeExtent .named ps).map (· + 1) := by
  simp [typeExtent, hword, hgroup, hdelegate, hbuiltin]

/-- The ways to read a type at the start of a row, as numbers of pieces, the
preferred one first.  The words `ref`, with `readonly` behind it or without, and
`scoped` may stand in front of a type; `scoped` may be a type itself as well. -/
def typeExtents : List Piece → List Nat
  | [] => []
  | p :: ps =>
    if p.isWord "ref" then
      match ps with
      | [] => []
      | q :: rest =>
        if q.isWord "readonly" then (typeExtents rest).map (· + 2)
        else (typeExtents (q :: rest)).map (· + 1)
    else
      let plain := (typeExtent .start (p :: ps)).toList
      if p.isWord "scoped" then (typeExtents ps).map (· + 1) ++ plain else plain

/-- The ways to read a type that does not begin with one of the `barred` words, a
function pointer apart. -/
def typeExtentsBut (barred : List String) (ps : List Piece) : List Nat :=
  match ps with
  | [] => []
  | p :: rest =>
    if p.isWordOf barred && !(p.isWord "delegate" && rest.head?.any (·.isMark "*")) then []
    else typeExtents ps

end Source
end AggregateAudit
