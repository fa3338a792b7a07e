import AggregateAudit.Source.Statement

/-!
# From text to syntax tree

A row of pieces is cut at the lengths that outlines give, and each stretch is
wrapped as its outline says.  Cutting is `take` and `drop`, wrapping adds a
branch around leaves, and the trivia in front of a stretch stays in front of its
branch; so the tree of a text holds exactly the characters of the text, however
the grammar reads them, and a branch begins and ends with a lexeme of its own.

The recursion into brackets is counted: a level of the tree is built from the
level below it, and there are no more levels than lexemes.
-/

namespace AggregateAudit
namespace Source

/-! ## Leaves -/

/-- The leaf of a lexeme that has no role of its own. -/
def leafOf (l : Lexeme) : Node :=
  match l.kind with
  | .blank => .leaf .blank l.text
  | .comment => .leaf .comment l.text
  | .directive => .leaf .directive l.text
  | .stray => .leaf .stray l.text
  | _ => .leaf .token l.text

namespace Piece

/-- A piece without the trivia in front of it. -/
def detached : Piece → Piece
  | lexeme _ l => lexeme [] l
  | group _ b o inside trail c => group [] b o inside trail c

/-- The leaves of a piece. -/
def leaves (p : Piece) : List Node := p.lexemes.map leafOf

/-- The leaves of a row of pieces. -/
def leavesAll (ps : List Piece) : List Node := (lexemesAll ps).map leafOf

/-- The leaves of a piece, its own lexeme as a leaf of the given kind. -/
def labelled (k : LeafKind) : Piece → List Node
  | lexeme lead l => lead.map leafOf ++ [.leaf k l.text]
  | group lead b o inside trail c => leaves (group lead b o inside trail c)

end Piece

/-! ## Branches -/

/-- A branch around a row of pieces; the trivia in front of it stays outside. -/
def wrap (k : BranchKind) (build : List Piece → List Node) : List Piece → List Node
  | [] => []
  | p :: ps => p.lead.map leafOf ++ [.branch k (build (p.detached :: ps))]

/-- A branch around a group, whose contents are built by `build`. -/
def enclosed (k : BranchKind) (build : List Piece → List Node) : Piece → List Node
  | .lexeme lead l => lead.map leafOf ++ [leafOf l]
  | .group lead _ o inside trail c =>
    lead.map leafOf
      ++ [.branch k (leafOf o :: (build inside ++ trail.map leafOf ++ c.toList.map leafOf))]

/-! ## Expressions

An expression is a row of leaves, but a function without a name may hold a block,
and what is in a block is read as in any other.  Such a block stands behind an
arrow, behind `delegate`, or behind `delegate` and its parameters. -/

/-- What the piece before makes of braces in an expression. -/
inductive BlockCue where
  /-- They are no block. -/
  | none
  /-- They are a block. -/
  | ready
  /-- They are a block, also with parameters in between. -/
  | delegate
  deriving DecidableEq

/-- What a piece says about braces behind it. -/
def BlockCue.behind (cue : BlockCue) (p : Piece) : BlockCue :=
  if p.isMark "=>" then ready
  else if p.isWord "delegate" then delegate
  else if p.isGroup .paren && cue = delegate then ready
  else none

/-- A branch around braces if what they hold has the category it should have,
otherwise leaves. -/
def enclosedIf (c : Category) (inner : Region → List Piece → List Node) (r : Region) (p : Piece) :
    List Node :=
  if c.recognizes p.inside then enclosed r.branchKind (inner r) p else p.leaves

/-- The trees of an expression, of a type or of a list. -/
def expressionNodes (inner : Region → List Piece → List Node) : BlockCue → List Piece → List Node
  | _, [] => []
  | cue, p :: ps =>
    let nodes :=
      match p with
      | .lexeme .. => p.leaves
      | .group lead b o inside trail c =>
        if b = .brace && cue ≠ .none then enclosedIf .statements inner .statements p
        else
          lead.map leafOf ++ leafOf o ::
            (inner .expression inside ++ trail.map leafOf ++ c.toList.map leafOf)
    nodes ++ expressionNodes inner (cue.behind p) ps

/-! ## Lists with commas -/

/-- How many pieces stand before the next comma that separates entries.  Commas
between angle brackets do not; behind an equals sign a `<` is a bracket only if a
list of type arguments follows.  `skip` pieces have been accounted for. -/
def entryExtent (angles : Nat) (assigned : Bool) : Nat → List Piece → Nat
  | _, [] => 0
  | skip + 1, _ :: ps => 1 + entryExtent angles assigned skip ps
  | 0, p :: ps =>
    if p.isMark "," && angles = 0 then 0
    else if p.isMark "=" then 1 + entryExtent 0 true 0 ps
    else if p.isMark "<" then
      if assigned then 1 + entryExtent angles assigned ((anglesExtent 0 ps).getD 0) ps
      else 1 + entryExtent (angles + 1) assigned 0 ps
    else if p.isMark ">" && !assigned then 1 + entryExtent (angles - 1) assigned 0 ps
    else 1 + entryExtent angles assigned 0 ps

/-- At most `n` entries of a row, built by `build`, with the commas between them.
An entry without pieces is broken. -/
def entries (build : List Piece → List Node) : Nat → List Piece → List Node
  | _, [] => []
  | 0, ps => Piece.leavesAll ps
  | n + 1, p :: ps =>
    match entryExtent 0 false 0 (p :: ps) with
    | 0 => wrap .broken Piece.leavesAll [p] ++ entries build n ps
    | k + 1 =>
      build (p :: ps.take k) ++ Piece.leavesAll ((ps.drop k).take 1)
        ++ entries build n ((ps.drop k).drop 1)

/-- A parameter, or the array of all further arguments. -/
def parameterNodes (build : List Piece → List Node) (ps : List Piece) : List Node :=
  let behind := ps.dropWhile fun p => isAttribute p || fitsAttributes p
  let kind := if behind.head?.any (·.isWord "params") then .parameterArray else .parameter
  wrap kind build ps

/-- An entry of a base list.  Outside a record, the arguments behind its type stand
beside it. -/
def baseNodes (build : List Piece → List Node) (inRecord : Bool) (ps : List Piece) : List Node :=
  let split := if inRecord then ps.length else (typeExtents ps).headD ps.length
  wrap .baseType build (ps.take split) ++ wrap .argumentList build (ps.drop split)

/-! ## Parts -/

/-- The trees of a part, given how the regions one level further in are built. -/
def partNodes (inner : Region → List Piece → List Node) (r : Region) (part : Part)
    (ps : List Piece) : List Node :=
  let flat := expressionNodes inner .none
  match part with
  | .tokens _ => flat ps
  | .name => ps.flatMap (·.labelled .name)
  | .modifier => ps.flatMap (·.labelled .modifier)
  | .run k _ => wrap k flat ps
  | .broken _ => wrap .broken flat ps
  | .arrow _ => wrap .arrow flat ps
  | .parameters =>
    ps.flatMap (enclosed .parameterList fun qs => entries (parameterNodes flat) qs.length qs)
  | .bases inRecord _ =>
    wrap .baseList
      (fun qs =>
        Piece.leavesAll (qs.take 1) ++ entries (baseNodes flat inRecord) qs.length (qs.drop 1))
      ps
  | .braces .sections => ps.flatMap (enclosedIf .sections inner .sections)
  | .braces .accessors => ps.flatMap (enclosedIf .accessors inner .accessors)
  | .braces region => ps.flatMap (enclosed region.branchKind (inner region))
  | .conditional =>
    ps.flatMap fun p =>
      enclosed (if p.isGroup .alternative then .alternative else .conditional)
        (inner (if r = .members then .members else .topLevel)) p

/-- The trees of a row of parts; pieces beyond the last part are left as leaves. -/
def partsNodes (inner : Region → List Piece → List Node) (r : Region) :
    List Part → List Piece → List Node
  | [], ps => Piece.leavesAll ps
  | part :: parts, ps =>
    partNodes inner r part (ps.take part.size) ++ partsNodes inner r parts (ps.drop part.size)

/-- The trees of one declaration or statement.  A directive is a branch already. -/
def outlineNodes (inner : Region → List Piece → List Node) (r : Region) (o : Outline)
    (ps : List Piece) : List Node :=
  if o.kind = .conditional then partsNodes inner r o.parts ps
  else wrap o.kind (partsNodes inner r o.parts) ps

/-! ## Rows -/

/-- The trees of at most `n` declarations or statements of a region. -/
def rowNodes (inner : Region → List Piece → List Node) (r : Region) : Nat → List Piece → List Node
  | _, [] => []
  | 0, ps => Piece.leavesAll ps
  | n + 1, p :: ps =>
    let o := r.outline (p :: ps)
    let k := partsSize o.parts - 1
    outlineNodes inner r o (p :: ps.take k) ++ rowNodes inner r n (ps.drop k)

/-- The trees of a region that is nested at most `depth` deep. -/
def regionNodes : (depth : Nat) → Region → List Piece → List Node
  | 0, _, ps => Piece.leavesAll ps
  | depth + 1, .expression, ps => expressionNodes (regionNodes depth) .none ps
  | depth + 1, r, ps => rowNodes (regionNodes depth) r ps.length ps

/-- The syntax tree of a text. -/
def parse (source : String) : Node :=
  let ls := lexemes source.toList
  let (ps, trail) := pieces ls
  .branch (if isSound ls ps then .unit else .broken)
    (regionNodes (ls.length + 1) .topLevel ps ++ trail.map leafOf)

end Source
end AggregateAudit
