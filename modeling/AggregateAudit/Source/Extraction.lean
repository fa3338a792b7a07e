import AggregateAudit.Source.Parse
import AggregateAudit.Text.Search

/-!
# Declarations of a syntax tree

Walking a tree collects its declarations.  Outside of types the walk goes down
through everything, so it does not matter in what a type is wrapped.  Inside a
type it looks only at the type's own braces, and goes down through directives
alone: which branch of a conditional directive is active is not known, so the
members of every branch are found.

The walk carries the place where each tree starts, because trees do not record
where they stand.
-/

namespace AggregateAudit
namespace Source

/-! ## Facts about one node -/

namespace Node

/-- The name a declaration introduces: its first name leaf, or nothing. -/
def declaredName (children : List Node) : String :=
  match children.find? (·.isLeaf .name) with
  | some n => n.text
  | none => ""

/-- The modifiers of a declaration, in the order they are written. -/
def modifiers (children : List Node) : List Modifier :=
  (children.filter (·.isLeaf .modifier)).map fun n =>
    .ofKeyword (String.ofList (Text.trim n.text.toList))

/-- How many parameters a declaration lists.  A `params` array is not a parameter
in this count. -/
def parameterCount (children : List Node) : Nat :=
  match children.find? (·.isBranch .parameterList) with
  | some list => list.children.countP (·.isBranch .parameter)
  | none => 0

/-- How many statements stand directly in a block. -/
def statementCount (block : Node) : Nat :=
  block.children.countP fun n => n.isNamed && !n.isTrivia

/-- The body of a constructor: the last block or arrow among its children. -/
def bodyOf (children : List Node) : Body :=
  children.foldl
    (fun body n =>
      match n with
      | .branch .block cs => .block (statementCount (.branch .block cs))
      | .branch .arrow _ => .expression
      | _ => body)
    .absent

/-- The entries of a base list, as written. -/
def baseEntries (baseList : Node) : List String :=
  (baseList.children.filter fun n => n.isNamed && !n.isTrivia && !n.isBranch .argumentList).map
    Node.text

/-- The base types of a type: the entries of its last base list, if it has one. -/
def baseTypes (children : List Node) : Option (List String) :=
  ((children.filter (·.isBranch .baseList)).getLast?).map baseEntries

/-- Whether the walk through a type's members goes down into a node. -/
def isDirective : Node → Bool
  | .branch .conditional _ => true
  | .branch .alternative _ => true
  | _ => false

end Node

/-! ## The walk -/

/-- The constructor that a node declares. -/
def constructorOf (file : Path) (owner : String) (p : Position) (n : Node) : Constructor where
  owner := owner
  name := Node.declaredName n.children
  modifiers := Node.modifiers n.children
  parameterCount := Node.parameterCount n.children
  body := Node.bodyOf n.children
  location := p.locate file n

/-- The method that a node declares. -/
def methodOf (file : Path) (owner : String) (p : Position) (n : Node) : Method where
  owner := owner
  name := Node.declaredName n.children
  modifiers := Node.modifiers n.children
  location := p.locate file n

/-- The header of the type that a node declares. -/
def headerOf (file : Path) (kind : TypeKind) (p : Position) (n : Node) : TypeHeader where
  name := Node.declaredName n.children
  kind := kind
  baseTypes := Node.baseTypes n.children
  location := p.locate file n

mutual

/-- The members that a node inside the braces of a type stands for: itself, those
of its branches if it is a directive, or none. -/
def membersOf (file : Path) (owner : String) (p : Position) : Node → List Member
  | .leaf .. => []
  | .branch kind cs =>
    match kind with
    | .constructorDeclaration =>
      [.constructor (constructorOf file owner p (.branch .constructorDeclaration cs))]
    | .methodDeclaration => [.method (methodOf file owner p (.branch .methodDeclaration cs))]
    | .typeDeclaration k =>
      [.type (headerOf file k p (.branch (.typeDeclaration k) cs))
        (bodyMembers file (Node.declaredName cs) p cs)]
    | .conditional => membersOfAll file owner p cs
    | .alternative => membersOfAll file owner p cs
    | _ => []

/-- The members that a row of nodes stands for. -/
def membersOfAll (file : Path) (owner : String) (p : Position) : List Node → List Member
  | [] => []
  | c :: cs => membersOf file owner p c ++ membersOfAll file owner (p.past c) cs

/-- The members of a type, found in the first pair of braces among its children. -/
def bodyMembers (file : Path) (owner : String) (p : Position) : List Node → List Member
  | [] => []
  | c :: cs =>
    match c with
    | .branch .declarationList inside => membersOfAll file owner p inside
    | _ => bodyMembers file owner (p.past c) cs

end

mutual

/-- The types of a node: itself, or the outermost types inside it. -/
def typesOf (file : Path) (p : Position) : Node → List TypeDeclaration
  | .leaf .. => []
  | .branch kind cs =>
    match kind with
    | .typeDeclaration k =>
      [⟨headerOf file k p (.branch (.typeDeclaration k) cs),
        bodyMembers file (Node.declaredName cs) p cs⟩]
    | _ => typesOfAll file p cs

/-- The types of a row of nodes. -/
def typesOfAll (file : Path) (p : Position) : List Node → List TypeDeclaration
  | [] => []
  | c :: cs => typesOf file p c ++ typesOfAll file (p.past c) cs

end

/-! ## Whole texts -/

/-- The declarations of one text. -/
structure SourceUnit where
  file : Path
  /-- The types that no other type encloses, in source order. -/
  types : List TypeDeclaration
  /-- Whether some part of the text fits nowhere. -/
  hasSyntaxErrors : Bool

/-- The declarations of a syntax tree. -/
def SourceUnit.ofTree (file : Path) (root : Node) : SourceUnit where
  file := file
  types := typesOfAll file {} root.children
  hasSyntaxErrors := root.hasError

/-- The declarations of a text. -/
def extract (file : Path) (source : String) : SourceUnit := SourceUnit.ofTree file (parse source)

end Source
end AggregateAudit
