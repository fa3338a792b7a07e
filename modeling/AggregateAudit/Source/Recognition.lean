import AggregateAudit.Source.Grammar

/-!
# Recognition: which rows the grammar knows

Whether a row of pieces belongs to a category is found by reading the row once, from
left to right, with all the possibilities there are.  A possibility is a stack of
forms that what is left of the row must have, one after the other.  A step first
opens the topmost forms until a single piece is expected, then keeps the
possibilities that expect what stands there.

Before a group, the possibilities expect certain categories of its inside.  The
inside is read once for all of them together.  So a word is a keyword inside a group
if it may be one in any of the readings that the group can still have.
-/

namespace AggregateAudit
namespace Source

/-! ## Possibilities -/

/-- A way to read a row: the category that the whole row is to have, and the forms
that what is left of it must have. -/
structure Possibility where
  goal : Category
  stack : List Form
  deriving DecidableEq

namespace Possibility

/-- The possibility that nothing has been read of a row. -/
def start (c : Category) : Possibility := ⟨c, [.call c]⟩

/-- Opens the topmost form of a stack until a single piece or the end is expected, and
puts the possibilities that come out in front of `others`.  At most `n` forms are
opened, which is enough for every form that does not begin with itself. -/
def openStack (goal : Category) : Nat → List Form → List Possibility → List Possibility
  | 0, _, others => others
  | _ + 1, [], others => ⟨goal, []⟩ :: others
  | n + 1, f :: rest, others =>
    match f with
    | .empty => openStack goal n rest others
    | .both a b => openStack goal n (a :: b :: rest) others
    | .either a b => openStack goal n (a :: rest) (openStack goal n (b :: rest) others)
    | .optional a => openStack goal n (a :: rest) (openStack goal n rest others)
    | .many a => openStack goal n (a :: .many a :: rest) (openStack goal n rest others)
    | .call c => openStack goal n (c.form :: rest) others
    | _ => ⟨goal, f :: rest⟩ :: others

/-- How many forms are opened at one place at most. -/
def openLimit : Nat := 400

/-- Opens the topmost forms of all possibilities. -/
def openAll (ways : List Possibility) : List Possibility :=
  ways.foldr (fun w others => openStack w.goal openLimit w.stack others) []

/-! ## Steps -/

/-- What is left of a possibility behind a form that it expects. -/
def behind? (expected : Form → Bool) (w : Possibility) : Option Possibility :=
  match w.stack with
  | f :: rest => if expected f then some { w with stack := rest } else none
  | [] => none

/-- What is left of possibilities behind a form that they expect. -/
def behindAll (expected : Form → Bool) (ways : List Possibility) : List Possibility :=
  ways.filterMap (behind? expected)

/-- The words that are names even where they are expected as keywords. -/
def looseWords : List String :=
  ["alias", "ascending", "by", "descending", "equals", "file", "from", "global", "group", "into",
    "join", "let", "notnull", "on", "orderby", "scoped", "select", "unmanaged", "var", "when",
    "where", "yield"]

/-- Whether a form is one of these keywords. -/
def isKeyword (w : String) : Form → Bool
  | .words ws => ws.contains w
  | _ => false

/-- What is left behind a word.  It is a keyword if some possibility expects it to be
one. -/
def behindWord (w : String) (ways : List Possibility) : List Possibility :=
  let asKeyword := behindAll (isKeyword w) ways
  let asName := behindAll (· = .name) ways
  if asKeyword.isEmpty then asName
  else if looseWords.contains w then asKeyword ++ asName
  else asKeyword

/-- How many characters the mark takes that a possibility expects, if it is there. -/
def markLength (run : List Char) (w : Possibility) : Nat :=
  match w.stack with
  | .mark m :: _ => if m.isPrefixOf run then m.length else 0
  | _ => 0

/-- The stack behind the first character of a mark of `n` characters. -/
def inMark (n : Nat) (rest : List Form) : List Form :=
  if n ≤ 1 then rest else .markRest (n - 1) :: rest

/-- What is left of a possibility behind a character of a mark, where the longest
mark that is expected takes `n` characters. -/
def behindMark? (run : List Char) (attached : Bool) (n : Nat) (w : Possibility) :
    Option Possibility :=
  match w.stack with
  | .mark m :: rest =>
    if m.isPrefixOf run && m.length = n then some { w with stack := inMark n rest } else none
  | .markRest k :: rest => some { w with stack := inMark k rest }
  | .closeAngle :: rest => if run.head? = some '>' then some { w with stack := rest } else none
  | .attachedSemicolon :: rest =>
    if attached && run.head? = some ';' then some { w with stack := rest } else none
  | _ => none

/-- What is left behind a character of a mark, where `run` are the characters of marks
from there on that nothing stands between. -/
def behindMark (run : List Char) (attached : Bool) (ways : List Possibility) :
    List Possibility :=
  let n := (ways.map (markLength run)).foldl max 0
  ways.filterMap (behindMark? run attached n)

/-- What is left behind all characters of a mark, given the characters of marks that
follow it at once. -/
def behindMarks (after : List Char) :
    (attached : Bool) → List Char → List Possibility → List Possibility
  | _, [], ways => ways
  | attached, c :: cs, ways =>
    behindMarks after true cs (behindMark (c :: cs ++ after) attached (openAll ways)).eraseDups

/-- The category that a possibility expects between brackets. -/
def expectedInside? (b : Bracket) (w : Possibility) : Option Category :=
  match w.stack with
  | .group b' c :: _ => if b' = b then some c else none
  | _ => none

/-- Whether a form is a group of which the inside has one of these categories. -/
def isGroupOf (b : Bracket) (cs : List Category) : Form → Bool
  | .group b' c => b' = b && cs.contains c
  | _ => false

/-- What is left behind a lexeme, given the characters of marks that follow it at
once. -/
def behindLexeme (l : Lexeme) (attached : Bool) (after : List Char) (ways : List Possibility) :
    List Possibility :=
  match l.kind with
  | .word => behindWord l.text (openAll ways)
  | .literal =>
    if (literalClass? l.text.toList).isSome then behindAll (· = .literal) (openAll ways) else []
  | .textPart => behindAll (· = .textPart) (openAll ways)
  | .format => behindAll (· = .format) (openAll ways)
  | .mark => behindMarks after attached l.text.toList ways
  | _ => []

/-- The goals of the possibilities that have nothing left to read. -/
def reached (ways : List Possibility) : List Category :=
  ((openAll ways).filter (·.stack.isEmpty)).map (·.goal)

end Possibility

/-! ## Rows -/

/-- The characters of marks at the start of a row that nothing stands in front of or
between. -/
def markRun : List Piece → List Char
  | .lexeme [] l :: ps => if l.kind = .mark then l.text.toList ++ markRun ps else []
  | _ => []

mutual

/-- The possibilities that are left behind a row of pieces. -/
def readRow (ways : List Possibility) : List Piece → List Possibility
  | [] => ways
  | p :: ps =>
    match (readPiece (markRun ps) ways p).eraseDups with
    | [] => []
    | w :: rest => readRow (w :: rest) ps

/-- The possibilities that are left behind a piece, given the characters of marks that
follow it at once.  A conditional directive without a condition fits nowhere. -/
def readPiece (after : List Char) (ways : List Possibility) : Piece → List Possibility
  | .lexeme lead l => Possibility.behindLexeme l lead.isEmpty after ways
  | .group _ b o inside _ _ =>
    let opened := Possibility.openAll ways
    let expected := (opened.filterMap (Possibility.expectedInside? b)).eraseDups
    if directiveFits o.text.toList then
      let fitting := Possibility.reached (readRow (expected.map .start) inside)
      Possibility.behindAll (Possibility.isGroupOf b fitting) opened
    else []

end

/-- Those of some categories that a row of pieces has, if it has to have one of
them. -/
def fittingAmong (cs : List Category) (ps : List Piece) : List Category :=
  Possibility.reached (readRow (cs.map .start) ps)

/-- Whether a row of pieces belongs to a category. -/
def Category.recognizes (c : Category) (ps : List Piece) : Bool := !(fittingAmong [c] ps).isEmpty

/-! ## Whole texts -/

/-- Whether a line ends before anything but blanks and comments comes. -/
def lineEndFollows : List Lexeme → Bool
  | [] => false
  | l :: ls =>
    if l.kind = .blank then l.text.contains '\n' || lineEndFollows ls
    else l.kind = .comment && lineEndFollows ls

/-- Whether all directives that stand alone are written as their words ask for, and
end with their line.  `atStart` says that nothing but such directives, blanks and
comments came before; only there may a line name the program that runs the text. -/
def directivesFit (atStart : Bool) : List Lexeme → Bool
  | [] => true
  | l :: ls =>
    if l.kind = .directive then
      if "#!".isPrefixOf l.text then atStart && directivesFit false ls
      else directiveFits l.text.toList && lineEndFollows ls && directivesFit atStart ls
    else directivesFit (atStart && l.isTrivia) ls

/-- Whether the grammar knows a text, given by its lexemes and its pieces. -/
def isSound (ls : List Lexeme) (ps : List Piece) : Bool :=
  directivesFit true ls && Category.items.recognizes ps

end Source
end AggregateAudit
