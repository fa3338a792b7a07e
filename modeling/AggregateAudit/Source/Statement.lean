import AggregateAudit.Source.Member

/-!
# Outlines of statements

A statement is read for its end, for the statements embedded in it and for the
blocks of its own.  Statements that another one embeds are not told apart: the
whole is one statement.

`Region.outline` puts the readers of all regions together.
-/

namespace AggregateAudit
namespace Source

/-! ## Functions inside functions -/

/-- A function inside a function, whose type takes the first `t` pieces.  Behind a
type that could be an operand, a word that stands between operands is no name. -/
def functionOfType? (ps : List Piece) (t : Nat) : Option (List Part) :=
  match ps.drop t with
  | [] => none
  | n :: rest =>
    let barred := if ps.head?.any (·.isWordOf builtinTypes) then [] else infixWords
    if n.isWordBut barred then (functionTail? rest).map (.tokens (t + 1) :: ·) else none

/-- A function inside a function. -/
def localFunction? (ps : List Piece) : Option (List Part) :=
  let a := attributeCount ps
  let read (rest : List Piece) : Option (List Part) :=
    (typeExtentsBut statementWords rest).findSome? (functionOfType? rest)
  (behindModifiers read (ps.drop a)).map fun (m, parts) => .tokens (a + m) :: parts

/-! ## Statements -/

/-- Whether a piece is a conditional directive that encloses an operand. -/
def isConditionalOperand (p : Piece) : Bool :=
  p.isGroup .conditional && (Category.branch .expression).recognizes p.inside
    && fittingAmong [.branch .items, .branch .expression] p.inside = [.branch .expression]

/-- Whether a piece is a conditional directive around declarations and statements. -/
def isConditionalRow (p : Piece) : Bool :=
  p.isGroup .conditional && !isConditionalAttribute p && !isConditionalOperand p

/-- How many pieces the head of a handler takes: parenthesised exceptions and
conditions behind `when`. -/
def handlerHead : List Piece → Nat
  | [] => 0
  | p :: ps =>
    if p.isGroup .paren then 1 + handlerHead ps
    else
      match ps with
      | [] => 0
      | q :: rest => if p.isWord "when" && q.isGroup .paren then 2 + handlerHead rest else 0

/-- The handlers of a `try`, at most `n` of them, and its last block. -/
def handlers : Nat → List Piece → List Part
  | 0, _ => []
  | n + 1, ps =>
    match ps with
    | p :: rest =>
      if p.isWord "catch" then
        let h := handlerHead rest
        if (rest.drop h).head?.any (·.isGroup .brace) then
          .tokens (1 + h) :: .braces .statements :: handlers n (rest.drop (h + 1))
        else []
      else if p.isWord "finally" && rest.head?.any (·.isGroup .brace) then
        [.tokens 1, .braces .statements]
      else []
    | [] => []

/-- The words that are followed by a parenthesised head and a statement. -/
def headedWords : List String := ["while", "for", "foreach", "lock", "fixed", "using"]

/-- The words that are followed by a block. -/
def blockWords : List String := ["checked", "unchecked", "unsafe"]

/-- The parts of the statement at the start of a row; `n` bounds how deep
statements are embedded in it. -/
def statement? : Nat → List Piece → Option (List Part)
  | 0, _ => none
  | n + 1, ps =>
    match ps with
    | [] => none
    | p :: rest =>
      if p.isGroup .brace then some [.braces .statements]
      else if isConditionalRow p then some [.conditional]
      else
        match p.word?, rest with
        | some "if", c :: body =>
          if c.isGroup .paren then do
            let yes ← statement? n body
            match body.drop (partsSize yes) with
            | e :: other =>
              if e.isWord "else" then do
                let no ← statement? n other
                some (.tokens 2 :: yes ++ .tokens 1 :: no)
              else some (.tokens 2 :: yes)
            | [] => some (.tokens 2 :: yes)
          else none
        | some "do", body => do
          let loop ← statement? n body
          match body.drop (partsSize loop) with
          | w :: c :: s :: _ =>
            if w.isWord "while" && c.isGroup .paren && s.isMark ";" then
              some (.tokens 1 :: loop ++ [.tokens 3])
            else none
          | _ => none
        | some "try", b :: more =>
          if b.isGroup .brace then
            some (.tokens 1 :: .braces .statements :: handlers more.length more)
          else none
        | some "switch", c :: b :: _ =>
          if c.isGroup .paren && b.isGroup .brace then some [.tokens 2, .braces .sections]
          else upToSemicolon? ps
        | some "await", q :: _ =>
          if q.isWordOf ["foreach", "using"] then (statement? n rest).map (.tokens 1 :: ·)
          else upToSemicolon? ps
        | some "yield", q :: _ =>
          if q.isWordOf ["return", "break"] then upToSemicolon? ps
          else if q.isMark ":" then (statement? n (rest.drop 1)).map (.tokens 2 :: ·)
          else localFunction? ps <|> upToSemicolon? ps
        | some w, q :: more =>
          if headedWords.contains w && q.isGroup .paren then
            (statement? n more).map (.tokens 2 :: ·)
          else if blockWords.contains w && q.isGroup .brace then
            some [.tokens 1, .braces .statements]
          else if p.isWordBut (statementWords ++ modifierWords ++ builtinTypes) && q.isMark ":" then
            (statement? n more).map (.tokens 2 :: ·)
          else localFunction? ps <|> upToSemicolon? ps
        | _, _ => localFunction? ps <|> upToSemicolon? ps

/-- A statement; if none can be read, everything up to the next braces or to the
end. -/
def statementOutline (ps : List Piece) : Outline :=
  match statement? (ps.length + 1) ps with
  | some parts => ⟨.statement, parts⟩
  | none => ⟨.statement, [.broken ((before? (·.isGroup .brace) ps).getD ps.length)]⟩

/-- A label of a `switch` statement, or a statement behind one. -/
def sectionOutline (ps : List Piece) : Outline :=
  let isLabel :=
    match ps with
    | p :: q :: _ => p.isWord "case" || (p.isWord "default" && q.isMark ":")
    | _ => false
  match if isLabel then before? (·.isMark ":") ps else none with
  | some n => ⟨.statement, [.tokens (n + 1)]⟩
  | none => statementOutline ps

/-! ## All regions -/

/-- The words that begin a declaration outside of braces and never a statement. -/
def declarationWords : List String := ["class", "struct", "interface", "enum", "namespace"]

/-- Whether a row begins as a declaration does, perhaps behind attributes and
modifiers. -/
def beginsDeclaration (ps : List Piece) : Bool :=
  let ps := ps.drop (attributeCount ps)
  (ps.drop (modifierCount ps)).head?.any (·.isWordOf declarationWords)

/-- A piece that fits nowhere. -/
def misplaced : Outline := ⟨.broken, [.tokens 1]⟩

/-- What the next declaration or statement of a row is.  Every answer takes at
least one piece of a row that has one. -/
def Region.outline (r : Region) (ps : List Piece) : Outline :=
  match ps with
  | [] => ⟨.broken, []⟩
  | p :: _ =>
    if isConditionalRow p || p.isGroup .alternative then
      ⟨.conditional, [.conditional]⟩
    else
      match r with
      | .statements => statementOutline ps
      | .sections => sectionOutline ps
      | .accessors => (accessor? ps).getD misplaced
      | .members => (declaration? ps).getD misplaced
      | .expression => ⟨.statement, [.tokens ps.length]⟩
      | .topLevel =>
        if isGlobalAttribute p then ⟨.otherDeclaration, [.tokens 1]⟩
        else
          match directive? ps <|> decorated? typeLike? ps with
          | some o => o
          | none => if beginsDeclaration ps then misplaced else statementOutline ps

end Source
end AggregateAudit
