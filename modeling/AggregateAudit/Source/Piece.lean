import AggregateAudit.Source.Lexemes

/-!
# Pieces: lexemes with their brackets matched

Everything the grammar decides, it decides between matching brackets.  So before
any grammar, the lexemes of a text are folded into *pieces*: a piece is a single
lexeme or a bracketed group of pieces, and it carries the blanks and comments in
front of it.  A conditional directive is a bracket too, opened by `#if`, closed
by `#endif`, with each `#elif` or `#else` opening a group inside it that needs no
closer.

The fold is a machine with a stack of open brackets, one step per lexeme.  A
closer that fits no open bracket becomes a stray lexeme.  A bracket that is still
open when an outer one closes, or when the text ends, is *dissolved*: its opener
becomes a stray lexeme and its contents move out.  No lexeme is lost either way.
-/

namespace AggregateAudit
namespace Source

/-- The brackets of the language. -/
inductive Bracket where
  | brace
  | paren
  | square
  /-- A string with code in it. -/
  | text
  /-- The code in a string. -/
  | hole
  /-- `#if … #endif`. -/
  | conditional
  /-- `#elif …` or `#else …`, up to the next of these or to `#endif`. -/
  | alternative
  deriving DecidableEq

/-- A lexeme or a bracketed group, behind the trivia that leads up to it. -/
inductive Piece where
  | lexeme (lead : List Lexeme) (l : Lexeme)
  | group (lead : List Lexeme) (bracket : Bracket) (opener : Lexeme) (inside : List Piece)
      (trail : List Lexeme) (closer : Option Lexeme)

namespace Piece

/-- The trivia in front of a piece. -/
def lead : Piece → List Lexeme
  | lexeme t _ => t
  | group t .. => t

mutual

/-- The lexemes that a piece was made of. -/
def lexemes : Piece → List Lexeme
  | lexeme t l => t ++ [l]
  | group t _ o inside trail c => t ++ o :: (lexemesAll inside ++ trail ++ c.toList)

/-- The lexemes of a row of pieces. -/
def lexemesAll : List Piece → List Lexeme
  | [] => []
  | p :: ps => lexemes p ++ lexemesAll ps

end

end Piece

/-! ## The machine -/

/-- An open bracket, with the pieces that were read before it on its level,
last first. -/
structure OpenBracket where
  lead : List Lexeme
  bracket : Bracket
  opener : Lexeme
  before : List Piece

/-- The state of the fold: the open brackets, innermost first, the pieces read on
the current level and the trivia read since, both last first. -/
structure Nesting where
  stack : List OpenBracket := []
  level : List Piece := []
  pending : List Lexeme := []

namespace Nesting

/-- The bracket that a lexeme opens. -/
def opens (l : Lexeme) : Option Bracket :=
  match l.kind, l.text with
  | .mark, "\x7b" => some .brace
  | .mark, "(" => some .paren
  | .mark, "[" => some .square
  | .textOpen, _ => some .text
  | .holeOpen, _ => some .hole
  | .conditionalIf, _ => some .conditional
  | .conditionalElif, _ => some .alternative
  | .conditionalElse, _ => some .alternative
  | _, _ => none

/-- The bracket that a lexeme closes. -/
def closes (l : Lexeme) : Option Bracket :=
  match l.kind, l.text with
  | .mark, "\x7d" => some .brace
  | .mark, ")" => some .paren
  | .mark, "]" => some .square
  | .textClose, _ => some .text
  | .holeClose, _ => some .hole
  | .conditionalEnd, _ => some .conditional
  | _, _ => none

/-- Adds a lexeme to the current level. -/
def push (s : Nesting) (l : Lexeme) : Nesting :=
  { s with level := .lexeme s.pending.reverse l :: s.level, pending := [] }

/-- Adds a lexeme that fits nowhere. -/
def pushStray (s : Nesting) (l : Lexeme) : Nesting := s.push { l with kind := .stray }

/-- Opens a bracket. -/
def enter (s : Nesting) (b : Bracket) (l : Lexeme) : Nesting where
  stack := ⟨s.pending.reverse, b, l, s.level⟩ :: s.stack
  level := []
  pending := []

/-- Gives up the innermost bracket: its opener is stray, and its contents join
the level around it. -/
def dissolve (s : Nesting) : Nesting :=
  match s.stack with
  | [] => s
  | o :: outer =>
    { s with
      stack := outer
      level := s.level ++ .lexeme o.lead { o.opener with kind := .stray } :: o.before }

/-- Closes the innermost bracket. -/
def close (s : Nesting) (closer : Option Lexeme) : Nesting :=
  match s.stack with
  | [] => s
  | o :: outer =>
    { stack := outer
      level := .group o.lead o.bracket o.opener s.level.reverse s.pending.reverse closer :: o.before
      pending := [] }

/-- Leaves the innermost bracket on the way to an outer one that is being closed:
a branch of a conditional ends there, anything else is given up. -/
def abandon (s : Nesting) : Nesting :=
  match s.stack with
  | [] => s
  | o :: _ => if o.bracket = .alternative then s.close none else s.dissolve

/-- Leaves brackets, at most `n` of them, until one of the wanted kind is
innermost. -/
def abandonTo (b : Bracket) : Nat → Nesting → Nesting
  | 0, s => s
  | n + 1, s =>
    match s.stack with
    | [] => s
    | o :: _ => if o.bracket = b then s else abandonTo b n s.abandon

/-- Whether a bracket of this kind is open. -/
def isOpen (s : Nesting) (b : Bracket) : Bool := s.stack.any (·.bracket = b)

/-- Whether the innermost bracket is a conditional or a branch of one. -/
def inConditional (s : Nesting) : Bool :=
  s.stack.head?.any fun o => o.bracket = .conditional || o.bracket = .alternative

/-- One lexeme. -/
def step (s : Nesting) (l : Lexeme) : Nesting :=
  if l.isTrivia then { s with pending := l :: s.pending }
  else
    match opens l with
    | some .alternative =>
      if s.inConditional then s.enter .alternative l else s.pushStray l
    | some b => s.enter b l
    | none =>
      match closes l with
      | some b =>
        if s.isOpen b then (abandonTo b s.stack.length s).close (some l) else s.pushStray l
      | none => s.push l

/-- Gives up every bracket that is still open. -/
def finish : Nat → Nesting → Nesting
  | 0, s => s
  | n + 1, s => finish n s.dissolve

end Nesting

/-- The pieces of a row of lexemes, and the trivia behind the last one. -/
def pieces (ls : List Lexeme) : List Piece × List Lexeme :=
  let read := ls.foldl Nesting.step {}
  let done := Nesting.finish read.stack.length read
  (done.level.reverse, done.pending.reverse)

/-! ## Looking at pieces -/

namespace Piece

/-- The text of a piece that is a word. -/
def word? : Piece → Option String
  | lexeme _ l => if l.kind = .word then some l.text else none
  | group .. => none

def isWord (w : String) (p : Piece) : Bool := p.word? = some w

/-- The text of a piece that is a mark. -/
def mark? : Piece → Option String
  | lexeme _ l => if l.kind = .mark then some l.text else none
  | group .. => none

def isMark (m : String) (p : Piece) : Bool := p.mark? = some m

/-- Whether a piece is a group of this bracket. -/
def isGroup (b : Bracket) : Piece → Bool
  | lexeme .. => false
  | group _ b' .. => b' = b

/-- The pieces inside a group. -/
def inside : Piece → List Piece
  | lexeme .. => []
  | group _ _ _ ps _ _ => ps

/-- Whether a piece follows the one before it without anything between them. -/
def isAdjacent (p : Piece) : Bool := p.lead.isEmpty

end Piece
end Source
end AggregateAudit
