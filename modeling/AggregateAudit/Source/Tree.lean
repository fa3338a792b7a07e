import AggregateAudit.Declaration

/-!
# Syntax trees

A syntax tree keeps every character of the text it stands for.  Its leaves carry
text, blanks and comments included, and its branches group leaves under a kind;
reading the leaves from left to right gives the text back.  Nothing in the tree
records a position: a position is how much text lies to the left, so it is
computed by whoever walks the tree.  This is why no tree can contradict itself
about spans --- a child lies inside its parent and two siblings never overlap,
whatever the tree.

The tree is only as deep as the declarations are.  A statement or an expression
is one branch over its tokens: what is inside it decides nothing here.
-/

namespace AggregateAudit
namespace Source

/-- What a leaf is.  `token` and `blank` are the anonymous ones. -/
inductive LeafKind where
  /-- A keyword, a literal or a mark that has no role of its own. -/
  | token
  /-- White space. -/
  | blank
  | comment
  /-- A one-line directive such as `#region` or `#pragma`. -/
  | directive
  /-- The name that a declaration introduces. -/
  | name
  | modifier
  /-- Text that fits nowhere. -/
  | stray
  deriving DecidableEq

/-- What a branch is. -/
inductive BranchKind where
  /-- A whole text. -/
  | unit
  | namespaceDeclaration
  | typeDeclaration (kind : TypeKind)
  | constructorDeclaration
  | methodDeclaration
  /-- A field, property, event, operator, destructor, indexer, enumeration,
  delegate, using directive or the like. -/
  | otherDeclaration
  | attributes
  | typeParameters
  | parameterList
  | parameter
  /-- A `params` array, which is not an ordinary parameter. -/
  | parameterArray
  | baseList
  | baseType
  | argumentList
  /-- The call of another constructor in front of a constructor's body. -/
  | initializer
  /-- The braces of a type or a namespace and what stands between them. -/
  | declarationList
  | block
  /-- The braces of a property, an indexer or an event. -/
  | accessorList
  /-- The braces of a `switch` statement. -/
  | switchBody
  /-- The body `=> expression`. -/
  | arrow
  | statement
  /-- From `#if` to `#endif`. -/
  | conditional
  /-- From `#elif` or `#else` to the end of that branch. -/
  | alternative
  /-- Text whose parts do not fit together. -/
  | broken
  deriving DecidableEq

/-- A syntax tree. -/
inductive Node where
  | leaf (kind : LeafKind) (text : String)
  | branch (kind : BranchKind) (children : List Node)

namespace Node

/-- The kind of a branch; a leaf has none. -/
def branchKind? : Node → Option BranchKind
  | leaf .. => none
  | branch k _ => some k

/-- The children of a branch; a leaf has none. -/
def children : Node → List Node
  | leaf .. => []
  | branch _ cs => cs

def isLeaf (k : LeafKind) : Node → Bool
  | leaf k' _ => k' = k
  | branch .. => false

def isBranch (k : BranchKind) : Node → Bool
  | leaf .. => false
  | branch k' _ => k' = k

/-- Anonymous leaves are the ones that stand for nothing but their text. -/
def isNamed : Node → Bool
  | leaf .token _ => false
  | leaf .blank _ => false
  | _ => true

/-- Comments and directives may stand anywhere and belong to nothing. -/
def isTrivia : Node → Bool
  | leaf .comment _ => true
  | leaf .directive _ => true
  | branch .conditional _ => true
  | branch .alternative _ => true
  | _ => false

mutual

/-- The text of a tree: its leaves, read from left to right. -/
def text : Node → String
  | leaf _ t => t
  | branch _ cs => textAll cs

/-- The text of a row of trees. -/
def textAll : List Node → String
  | [] => ""
  | c :: cs => text c ++ textAll cs

end

mutual

/-- Whether some part of the tree does not fit. -/
def hasError : Node → Bool
  | leaf k _ => k = .stray
  | branch k cs => k = .broken || anyError cs

/-- Whether some tree of a row has an error. -/
def anyError : List Node → Bool
  | [] => false
  | c :: cs => hasError c || anyError cs

end

variable (k : BranchKind) (c : Node) (cs ds : List Node)

@[simp] theorem children_leaf (l : LeafKind) (t : String) : (leaf l t).children = [] := rfl

@[simp] theorem children_branch : (branch k cs).children = cs := rfl

@[simp] theorem hasError_leaf (l : LeafKind) (t : String) :
    (leaf l t).hasError = decide (l = .stray) := rfl

@[simp] theorem hasError_branch : (branch k cs).hasError = (decide (k = .broken) || anyError cs) :=
  rfl

@[simp] theorem anyError_nil : anyError [] = false := rfl

@[simp] theorem anyError_cons : anyError (c :: cs) = (c.hasError || anyError cs) := rfl

@[simp] theorem anyError_append : anyError (cs ++ ds) = (anyError cs || anyError ds) := by
  induction cs with
  | nil => rfl
  | cons c cs ih => rw [List.cons_append, anyError_cons, ih, anyError_cons, Bool.or_assoc]

end Node

/-! ## Positions -/

/-- A place in a text: the line and the column count from one, the column and the
offset count bytes. -/
structure Position where
  line : Nat := 1
  column : Nat := 1
  offset : Nat := 0
  deriving DecidableEq

namespace Position

/-- The place behind one more character.  Only a line feed ends a line. -/
def step (p : Position) (c : Char) : Position :=
  if c = '\n' then ⟨p.line + 1, 1, p.offset + 1⟩
  else ⟨p.line, p.column + c.utf8Size, p.offset + c.utf8Size⟩

/-- The place behind a stretch of text. -/
def advance (p : Position) (t : String) : Position := t.toList.foldl step p

mutual

/-- The place behind a tree. -/
def past (p : Position) : Node → Position
  | .leaf _ t => p.advance t
  | .branch _ cs => p.pastAll cs

/-- The place behind a row of trees. -/
def pastAll (p : Position) : List Node → Position
  | [] => p
  | c :: cs => (p.past c).pastAll cs

end

/-- The location of a tree that starts at `p`. -/
def locate (p : Position) (file : Path) (n : Node) : Location where
  file := file
  line := p.line
  column := p.column
  offset := p.offset
  length := (p.past n).offset - p.offset

end Position
end Source
end AggregateAudit
