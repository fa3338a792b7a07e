import AggregateAudit.Source.Outline

/-!
# Outlines of members

What may stand between the braces of a type or a namespace.  A name with
parameters and nothing in front of it is a constructor; behind a type it is a
method; everything else is read only for its end and for the blocks in it.
-/

namespace AggregateAudit
namespace Source

/-! ## Constructors -/

/-- The words that no constructor is named. -/
def constructorBarred : List String := memberWords ++ modifierWords ++ builtinTypes ++ ["ref"]

/-- How many pieces the call of another constructor takes. -/
def initializerExtent : List Piece → Nat
  | c :: w :: a :: _ =>
    if c.isMark ":" && w.isWordOf ["base", "this"] && a.isGroup .paren then 3 else 0
  | _ => 0

/-- Whether a list of variables goes on or ends with a piece. -/
def isDeclaratorEnd (p : Piece) : Bool :=
  p.isMark "=" || p.isMark "," || p.isMark ";" || p.isGroup .square

/-- Whether a row begins with `var` and variables in parentheses. -/
def beginsVariables : List Piece → Bool
  | p :: q :: r :: _ =>
    p.isWord "var" && q.isGroup .paren && isDeclaratorEnd r
      && Category.tuplePattern.recognizes q.inside
  | _ => false

/-- A constructor: a name, its parameters, perhaps a call of another constructor,
and a body. -/
def constructor? (ps : List Piece) : Option Outline :=
  match ps with
  | p :: q :: rest =>
    if p.isWordBut constructorBarred && q.isGroup .paren && !beginsVariables ps then
      let call := initializerExtent rest
      (functionBody? (rest.drop call)).map fun body =>
        ⟨.constructorDeclaration, [.name, .parameters] ++ Part.runOf .initializer call ++ body⟩
    else none
  | _ => none

/-! ## Members that begin with a type -/

/-- How many pieces of an interface's name, with the point behind it, stand in
front of the name of an explicitly implemented member.  `angles` counts the open
angle brackets and `length` the pieces since the last point. -/
def explicitExtent (angles length : Nat) : List Piece → Nat
  | [] => 0
  | p :: ps =>
    if p.isMark "." || p.isMark "::" then
      if angles = 0 then length + 1 + explicitExtent 0 0 ps
      else explicitExtent angles (length + 1) ps
    else if p.isMark "<" then explicitExtent (angles + 1) (length + 1) ps
    else if p.isMark ">" then explicitExtent (angles - 1) (length + 1) ps
    else if 0 < angles then explicitExtent angles (length + 1) ps
    else if p.isAnyWord && length = 0 then explicitExtent 0 1 ps
    else 0

/-- Accessors in braces, with an initial value behind them if there is an equals
sign. -/
def accessors? (ps : List Piece) : Option (List Part) :=
  match ps with
  | [] => none
  | p :: rest =>
    if p.isGroup .brace then
      if rest.head?.any (·.isMark "=") then (upToSemicolon? rest).map (.braces .accessors :: ·)
      else some [.braces .accessors]
    else none

/-- An operator behind the type of its result: the sign, the parameters and a
body. -/
def operatorTail? (ps : List Piece) : Option (List Part) := do
  let n ← before? (·.isGroup .paren) ps
  let body ← functionBody? (ps.drop (n + 1))
  some (.tokens n :: .parameters :: body)

/-- An indexer behind the type of its elements: `this`, the parameters in square
brackets, and accessors or an arrow. -/
def indexerTail? (ps : List Piece) : Option (List Part) := do
  let body ← accessors? (ps.drop 2) <|> arrowBody? (ps.drop 2)
  some (.tokens 2 :: body)

/-- A member whose type takes the first `t` pieces. -/
def memberOfType? (ps : List Piece) (t : Nat) : Option Outline :=
  let e := explicitExtent 0 0 (ps.drop t)
  let other (parts : List Part) : Outline := ⟨.otherDeclaration, .tokens (t + e) :: parts⟩
  match ps.drop (t + e) with
  | n :: q :: more =>
    if n.isWord "operator" then (operatorTail? (n :: q :: more)).map other
    else if n.isWord "this" then (indexerTail? (n :: q :: more)).map other
    else if n.isAnyWord then
      if q.isMark "<" || q.isGroup .paren then
        (functionTail? (q :: more)).map fun tail =>
          ⟨.methodDeclaration, .tokens (t + e) :: .name :: tail⟩
      else if q.isGroup .brace then
        (accessors? (q :: more)).map fun parts => other (.tokens 1 :: parts)
      else if q.isMark "=>" then
        (arrowBody? (q :: more)).map fun parts => other (.tokens 1 :: parts)
      else if isDeclaratorEnd q then (upToSemicolon? (n :: q :: more)).map other
      else none
    else if n.isGroup .paren && e = 0 && isDeclaratorEnd q then
      (upToSemicolon? (n :: q :: more)).map other
    else none
  | _ => none

/-- A member that begins with a type. -/
def typedMember? (ps : List Piece) : Option Outline :=
  (typeExtentsBut (memberWords ++ modifierWords) ps).findSome? (memberOfType? ps)

/-! ## All members -/

/-- An event: accessors in braces, or everything up to a semicolon. -/
def event? (ps : List Piece) : Option Outline := do
  let n ← before? (fun p => p.isGroup .brace || p.isMark "=" || p.isMark ";") ps
  if (ps.drop n).head?.any (·.isGroup .brace) then
    some ⟨.otherDeclaration, [.tokens n, .braces .accessors]⟩
  else (upToSemicolon? ps).map (⟨.otherDeclaration, ·⟩)

/-- A conversion: `operator`, the type it converts to, a parameter and a body. -/
def conversion? (ps : List Piece) : Option Outline := do
  let n ← before? (·.isWord "operator") ps
  let rest := ps.drop (n + 1)
  let k := if rest.head?.any (·.isWord "checked") then 1 else 0
  let t ← (typeExtents (rest.drop k)).head?
  let tail ← operatorTail? (rest.drop (k + t))
  some ⟨.otherDeclaration, .tokens (n + 1 + k + t) :: tail⟩

/-- A member behind its attributes and modifiers. -/
def member? (ps : List Piece) : Option Outline :=
  match ps with
  | [] => none
  | p :: _ =>
    if p.isWord "event" then event? ps
    else if p.isWordOf ["implicit", "explicit"] then conversion? ps
    else if p.isMark "~" then (operatorTail? ps).map (⟨.otherDeclaration, ·⟩)
    else typeLike? ps <|> constructor? ps <|> typedMember? ps

/-- A declaration inside a type or a namespace. -/
def declaration? (ps : List Piece) : Option Outline := directive? ps <|> decorated? member? ps

/-- An accessor: attributes, modifiers, a word and a body. -/
def accessor? (ps : List Piece) : Option Outline := do
  let a := attributeCount ps
  let m := modifierCount (ps.drop a)
  match ps.drop (a + m) with
  | [] => none
  | p :: rest =>
    if p.isAnyWord then
      let body ← functionBody? rest
      some ⟨.otherDeclaration, .tokens (a + m + 1) :: body⟩
    else none

end Source
end AggregateAudit
