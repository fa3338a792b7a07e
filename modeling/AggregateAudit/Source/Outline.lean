import AggregateAudit.Source.Recognition
import AggregateAudit.Source.Tree

/-!
# Outlines of declarations and statements

An outline says what the next declaration or statement of a row of pieces is and
how its pieces are to be grouped, as a list of *parts* with their lengths.  It
holds no text: cutting a row at the lengths of its parts, whatever they are,
cannot lose anything.  That keeps all knowledge of the grammar in this module
and the two that build on it, and all care for the text in the one that builds
trees.

This module holds the parts and what members and types have in common.
-/

namespace AggregateAudit
namespace Source

/-- Where pieces stand, which decides how they are read. -/
inductive Region where
  /-- Outside any braces, or inside a directive among statements. -/
  | topLevel
  /-- Inside a type or a namespace. -/
  | members
  /-- Inside a block. -/
  | statements
  /-- Inside the braces of a `switch` statement. -/
  | sections
  /-- Inside the braces of a property, an indexer or an event. -/
  | accessors
  /-- Inside an expression, a type or a list. -/
  | expression
  deriving DecidableEq

/-- What the braces around a region are. -/
def Region.branchKind : Region → BranchKind
  | topLevel => .unit
  | members => .declarationList
  | statements => .block
  | sections => .switchBody
  | accessors => .accessorList
  | expression => .broken

/-- A stretch of the pieces of a declaration or statement. -/
inductive Part where
  /-- Pieces without a role. -/
  | tokens (count : Nat)
  /-- The declared name. -/
  | name
  | modifier
  /-- Pieces that form a branch of their own. -/
  | run (kind : BranchKind) (count : Nat)
  /-- Pieces that do not fit together. -/
  | broken (count : Nat)
  /-- The body `=> expression`. -/
  | arrow (count : Nat)
  /-- A parenthesised list of parameters. -/
  | parameters
  /-- A base list; in a record an argument list belongs to its entry. -/
  | bases (inRecord : Bool) (count : Nat)
  /-- Braces around a region. -/
  | braces (region : Region)
  /-- A conditional directive with what it encloses. -/
  | conditional

/-- How many pieces a part takes. -/
def Part.size : Part → Nat
  | tokens n => n
  | name => 1
  | modifier => 1
  | run _ n => n
  | broken n => n
  | arrow n => n
  | parameters => 1
  | bases _ n => n
  | braces _ => 1
  | conditional => 1

/-- How many pieces a row of parts takes. -/
def partsSize (parts : List Part) : Nat := parts.foldr (fun p n => p.size + n) 0

@[simp] theorem partsSize_nil : partsSize [] = 0 := rfl

@[simp] theorem partsSize_cons (p : Part) (ps : List Part) :
    partsSize (p :: ps) = p.size + partsSize ps := rfl

@[simp] theorem partsSize_append (ps qs : List Part) :
    partsSize (ps ++ qs) = partsSize ps + partsSize qs := by
  induction ps with
  | nil => simp
  | cons p ps ih => simp [ih, Nat.add_assoc]

/-- What a stretch of pieces is, and its parts. -/
structure Outline where
  kind : BranchKind
  parts : List Part

/-- A branch of its own over `n` pieces, or no part at all if there are none. -/
def Part.runOf (kind : BranchKind) (n : Nat) : List Part := if n = 0 then [] else [.run kind n]

/-! ## Common tails -/

/-- How many pieces stand before the first one that satisfies `p`; `none` if
there is no such piece. -/
def before? (p : Piece → Bool) (ps : List Piece) : Option Nat := ps.findIdx? p

/-- Everything up to the next semicolon. -/
def upToSemicolon? (ps : List Piece) : Option (List Part) :=
  (before? (·.isMark ";") ps).map fun n => [.tokens (n + 1)]

/-- The body `=> expression` with its semicolon. -/
def arrowBody? (ps : List Piece) : Option (List Part) :=
  if ps.head?.any (·.isMark "=>") then
    (before? (·.isMark ";") ps).map fun n => [.arrow n, .tokens 1]
  else none

/-- A body of a function: a block, an arrow with an expression, or a semicolon. -/
def functionBody? (ps : List Piece) : Option (List Part) :=
  match ps with
  | [] => none
  | p :: _ =>
    if p.isGroup .brace then some [.braces .statements]
    else if p.isMark ";" then some [.tokens 1]
    else arrowBody? ps

/-- How many pieces the constraints on type parameters take. -/
def constraintsExtent (ps : List Piece) : Nat :=
  if ps.head?.any (·.isWord "where") then
    (ps.takeWhile fun q => !(q.isGroup .brace || q.isMark ";" || q.isMark "=>")).length
  else 0

/-- A function behind its name: type parameters, parameters, constraints and a
body. -/
def functionTail? (ps : List Piece) : Option (List Part) := do
  let generics ← typeParametersExtent ps
  match ps.drop generics with
  | [] => none
  | p :: rest =>
    if p.isGroup .paren then
      let constraints := constraintsExtent rest
      let body ← functionBody? (rest.drop constraints)
      some (Part.runOf .typeParameters generics ++ [.parameters, .tokens constraints] ++ body)
    else none

/-- A semicolon behind the braces of a declaration belongs to it if nothing at
all stands between them. -/
def closingSemicolon (ps : List Piece) : List Part :=
  if ps.head?.any fun p => p.isMark ";" && p.isAdjacent then [.tokens 1] else []

/-! ## Attributes and modifiers -/

/-- Whether an attribute list is aimed at the whole program. -/
def isGlobalAttribute (p : Piece) : Bool :=
  p.isGroup .square &&
    match p.inside with
    | w :: c :: _ => (w.isWord "assembly" || w.isWord "module") && c.isMark ":"
    | _ => false

/-- Whether a piece is an attribute list of a declaration. -/
def isAttribute (p : Piece) : Bool := p.isGroup .square && !isGlobalAttribute p

/-- Whether a piece is a conditional directive that may stand among attribute
lists. -/
def fitsAttributes (p : Piece) : Bool :=
  p.isGroup .conditional && (Category.branch .attributes).recognizes p.inside

/-- Whether a piece is a conditional directive that belongs to the attributes of the
declaration behind it.  One without any attribute is a declaration by itself. -/
def isConditionalAttribute (p : Piece) : Bool :=
  fitsAttributes p && !(Category.branch .declarations).recognizes p.inside

/-- How many attribute lists stand at the start of a row.  Behind the first one a
conditional directive need not hold any. -/
def attributeCount (ps : List Piece) : Nat :=
  match ps with
  | [] => 0
  | p :: rest =>
    if isAttribute p || isConditionalAttribute p then
      1 + (rest.takeWhile fun q => isAttribute q || fitsAttributes q).length
    else 0

/-- Reads a declaration behind its attributes and modifiers, by the given reader. -/
def decorated? (read : List Piece → Option Outline) (ps : List Piece) : Option Outline :=
  let a := attributeCount ps
  (behindModifiers read (ps.drop a)).map fun (m, o) =>
    { o with
      parts := List.replicate a (.run .attributes 1) ++ List.replicate m .modifier ++ o.parts }

/-! ## Types -/

/-- How many pieces a base list takes behind its colon, at most `n` entries long:
types, each perhaps with arguments, and commas between them. -/
def basesExtent : Nat → List Piece → Option Nat
  | 0, _ => none
  | n + 1, ps => do
    let t ← (typeExtents ps).head?
    let arguments := if (ps.drop t).head?.any (·.isGroup .paren) then 1 else 0
    let k := t + arguments
    if (ps.drop k).head?.any (·.isMark ",") then
      (basesExtent n (ps.drop (k + 1))).map (k + 1 + ·)
    else some k

/-- What stands between the name of a type and its body, at most `n` parts: type
parameters, parameters and base lists in any order, then constraints.  The body
is braces or a semicolon. -/
def typeTail? (inRecord : Bool) : Nat → List Piece → Option (List Part)
  | 0, _ => none
  | n + 1, ps =>
    match ps with
    | [] => none
    | p :: rest =>
      if p.isMark "<" then do
        let generics ← typeParametersExtent ps
        let tail ← typeTail? inRecord n (ps.drop generics)
        some (.run .typeParameters generics :: tail)
      else if p.isGroup .paren then (typeTail? inRecord n rest).map (.parameters :: ·)
      else if p.isMark ":" then do
        let k ← basesExtent rest.length rest
        let tail ← typeTail? inRecord n (rest.drop k)
        some (.bases inRecord (k + 1) :: tail)
      else
        let constraints := constraintsExtent ps
        match ps.drop constraints with
        | [] => none
        | b :: more =>
          if b.isGroup .brace then
            some (.tokens constraints :: .braces .members :: closingSemicolon more)
          else if b.isMark ";" then some [.tokens constraints, .tokens 1]
          else none

/-- A type declaration whose keywords take the first `n` pieces.  Any word is a
name behind them. -/
def typeAfter? (kind : TypeKind) (n : Nat) (ps : List Piece) : Option Outline :=
  match ps.drop n with
  | [] => none
  | p :: rest =>
    if p.isAnyWord then
      (typeTail? (kind = .recordType) (rest.length + 1) rest).map fun parts =>
        ⟨.typeDeclaration kind, .tokens n :: .name :: parts⟩
    else none

/-- The types, enumerations and delegates, without what may stand in front of
their keyword. -/
def typeLike? (ps : List Piece) : Option Outline :=
  match ps with
  | [] => none
  | p :: rest =>
    match p.word? with
    | some "class" => typeAfter? .classType 1 ps
    | some "struct" => typeAfter? .structType 1 ps
    | some "interface" => typeAfter? .interfaceType 1 ps
    | some "record" =>
      if rest.head?.any (·.isWordOf ["class", "struct"]) then typeAfter? .recordType 2 ps
      else typeAfter? .recordType 1 ps
    | some "ref" =>
      let m := modifierCount rest
      if (rest.drop m).head?.any (·.isWord "struct") then typeAfter? .structType (m + 2) ps
      else none
    | some "enum" => do
      let n ← before? (fun q => q.isGroup .brace || q.isMark ";") ps
      let closing :=
        if (ps.drop n).head?.any (·.isMark ";") then [] else closingSemicolon (ps.drop (n + 1))
      some ⟨.otherDeclaration, .tokens (n + 1) :: closing⟩
    | some "delegate" =>
      if rest.head?.any (·.isMark "*") then none
      else (upToSemicolon? ps).map (⟨.otherDeclaration, ·⟩)
    | _ => none

/-! ## Directives of the language -/

/-- A using directive, an external alias or a namespace: nothing stands in front
of them. -/
def directive? (ps : List Piece) : Option Outline :=
  match ps with
  | p :: q :: _ =>
    if (p.isWord "using" && !q.isGroup .paren) || (p.isWord "global" && q.isWord "using")
        || (p.isWord "extern" && q.isWord "alias") then
      (upToSemicolon? ps).map (⟨.otherDeclaration, ·⟩)
    else if p.isWord "namespace" && q.isAnyWord then do
      let n ← before? (fun r => r.isGroup .brace || r.isMark ";") ps
      if (ps.drop n).head?.any (·.isMark ";") then some ⟨.otherDeclaration, [.tokens (n + 1)]⟩
      else
        some ⟨.namespaceDeclaration,
          .tokens n :: .braces .members :: closingSemicolon (ps.drop (n + 1))⟩
    else none
  | _ => none

end Source
end AggregateAudit
