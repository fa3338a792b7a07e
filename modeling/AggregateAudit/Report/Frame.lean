import AggregateAudit.Finding
import AggregateAudit.Text.Search
import AggregateAudit.Text.Width

/-!
# Framed findings

A framed finding shows the stretch of source text that it is about: the lines of the
declaration, one line in front and one behind, with line numbers on the left.  A
declaration on one line is underlined, and a declaration on several lines is
embraced by an arrow in the gutter.

Offsets and lengths count bytes, as they do in locations.  Underlines count columns:
a tab reaches to the next multiple of four, and other characters are as wide as
`Text.width` says.  An escape character begins a colour command, which has no width
up to and including the next `m`.
-/

namespace AggregateAudit
namespace Frame

/-! ## Lines and rows -/

/-- The number of bytes of a text. -/
def size (s : List Char) : Nat := s.foldr (fun c n => c.utf8Size + n) 0

/-- The lines of a text, each with its end: a line feed, a carriage return, or the
two together. -/
def lines : List Char → List (List Char)
  | [] => []
  | c :: cs =>
    if c = '\n' || (c = '\r' && cs.head? ≠ some '\n') then [c] :: lines cs
    else
      match lines cs with
      | [] => [[c]]
      | line :: rest => (c :: line) :: rest

/-- How many lines end within the first `limit` bytes. -/
def linesWithin (limit : Nat) : List (List Char) → Nat
  | [] => 0
  | line :: rest => if size line ≤ limit then linesWithin (limit - size line) rest + 1 else 0

/-- A row of a frame: what stands between two line feeds. -/
structure Row where
  number : Nat
  /-- Where the row begins in the source. -/
  offset : Nat
  /-- Its length, with its end. -/
  length : Nat
  /-- Its text, without its end. -/
  text : List Char

/-- The rows of a text, each with its end. -/
def rowTexts : List Char → List (List Char)
  | [] => []
  | c :: cs =>
    if c = '\n' then [c] :: rowTexts cs
    else
      match rowTexts cs with
      | [] => [[c]]
      | row :: rest => (c :: row) :: rest

/-- A row without its end. -/
def withoutEnd (row : List Char) : List Char :=
  match row.reverse with
  | '\n' :: '\r' :: rest => rest.reverse
  | '\n' :: rest => rest.reverse
  | _ => row

/-- The rows of a text that begins at an offset, behind `number` lines.  A carriage
return that ends the text begins no line of its own. -/
def rowsFrom (number offset : Nat) : List (List Char) → List Row
  | [] => []
  | row :: rest =>
    let own := if rest.isEmpty && row.getLast? = some '\r' then number else number + 1
    ⟨own, offset, size row, withoutEnd row⟩ :: rowsFrom (number + 1) (offset + size row) rest

/-- A stretch of a source. -/
structure Span where
  offset : Nat
  length : Nat

namespace Span

def stop (s : Span) : Nat := s.offset + s.length

/-- How many lines end in front of a span. -/
def linesBefore (s : Span) (source : List Char) : Nat := linesWithin s.offset (lines source)

/-- The rows that a frame around a span shows. -/
def rows (s : Span) (source : List Char) : List Row :=
  let all := lines source
  let first := s.linesBefore source - 1
  let last := linesWithin (s.stop - 1) all + 1
  let front := (all.take first).flatten
  let shown := ((all.drop first).take (last + 1 - first)).flatten
  rowsFrom first (size front) (rowTexts shown)

/-- The line and the column at which a span begins, from one. -/
def position (s : Span) (source : List Char) : Nat × Nat :=
  let before := s.linesBefore source
  (before + 1, s.offset - size ((lines source).take before).flatten + 1)

end Span

/-! ## Columns -/

/-- The width of each character of a row, the first of which stands in a column,
inside a colour command or not. -/
def widthsFrom (column : Nat) (escaped : Bool) : List Char → List Nat
  | [] => []
  | c :: cs =>
    if escaped then 0 :: widthsFrom column (c ≠ 'm') cs
    else if c.toNat = 0x1B then 0 :: widthsFrom column true cs
    else
      let w := if c = '\t' then 4 - column % 4 else Text.width c
      w :: widthsFrom (column + w) false cs

/-- A row as it is shown: tabs are blanks. -/
def shownText (text : List Char) : List Char :=
  ((text.zip (widthsFrom 0 false text)).map fun (c, w) =>
    if c = '\t' then List.replicate w ' ' else [c]).flatten

/-- The characters at the start of a row that fill `limit` bytes. -/
def takeBytes (limit : Nat) : List Char → List Char
  | [] => []
  | c :: cs => if c.utf8Size ≤ limit then c :: takeBytes (limit - c.utf8Size) cs else []

/-- The column of an offset in a row.  Behind the text of the row there is one column
more. -/
def Row.column (r : Row) (offset : Nat) : Nat :=
  let columns := (widthsFrom 0 false (takeBytes (offset - r.offset) r.text)).foldr (· + ·) 0
  if size r.text < offset - r.offset then columns + 1 else columns

/-! ## Drawing -/

/-- How a span stands to a row. -/
inductive Relation where
  | apart
  | within
  | begins
  | passes
  | ends
  deriving DecidableEq

def Row.relation (r : Row) (s : Span) : Relation :=
  let stop := r.offset + r.length
  if r.offset ≤ s.offset && s.stop ≤ stop then .within
  else if r.offset ≤ s.offset && s.offset < stop then .begins
  else if s.offset < r.offset && stop < s.stop then .passes
  else if s.offset < r.offset && r.offset < s.stop then .ends
  else .apart

/-- A text repeated. -/
def times (n : Nat) (s : String) : String := String.join (List.replicate n s)

/-- The number of a row in its column, and the bar behind it. -/
def numbered (width : Nat) (number : Nat) : String :=
  let digits := toString number
  " " ++ times (width - digits.length) " " ++ digits ++ " │ "

/-- The column of numbers beside a line that is no row. -/
def unnumbered (width : Nat) : String := " " ++ times width " " ++ " · "

/-- What stands in the gutter in front of a row of a span of several lines. -/
def gutter : Relation → String
  | .begins => "╭─▶ "
  | .ends => "├─▶ "
  | .passes => "│   "
  | _ => "    "

/-- The lines below a row: the underline of a span on it, or the end of one that ends
on it, and the label. -/
def below (width : Nat) (s : Span) (label : String) (r : Row) : List String :=
  match r.relation s with
  | .within =>
    let start := r.column s.offset
    let stop := max (r.column s.stop) (start + 1)
    let middle := (start + stop) / 2
    [unnumbered width ++ times start " " ++ times (middle - start) "─" ++ "┬"
        ++ times (stop - middle - 1) "─",
      unnumbered width ++ times middle " " ++ "╰── " ++ label]
  | .ends => [unnumbered width ++ "╰──── " ++ label]
  | _ => []

/-- The lines of a frame. -/
def draw (name : String) (source : List Char) (s : Span) (label : String) : List String :=
  let rows := s.rows source
  let width := (toString ((rows.getLast?.map Row.number).getD 0)).length
  let margin := times (width + 2) " "
  let hasGutter := rows.any fun r => r.relation s ≠ .within && r.relation s ≠ .apart
  let (line, column) := s.position source
  [margin ++ "╭─[" ++ name ++ ":" ++ toString line ++ ":" ++ toString column ++ "]"]
    ++ rows.flatMap (fun r =>
      (numbered width r.number ++ (if hasGutter then gutter (r.relation s) else "")
          ++ String.ofList (shownText r.text))
        :: below width s label r)
    ++ [margin ++ "╰────"]

/-! ## Whole findings -/

/-- How wide a line of text may be. -/
def textWidth : Nat := 78

/-- Fills lines with words, as many as fit; `line` is the line that is being
filled. -/
def fill (width : Nat) (indent line : String) : List String → List String
  | [] => [line]
  | word :: rest =>
    if line.length + 1 + word.length ≤ width then fill width indent (line ++ " " ++ word) rest
    else line :: fill width indent (indent ++ word) rest

/-- A text as lines that are not too wide.  The first one begins with `first`, the
others with `indent`. -/
def wrap (width : Nat) (first indent text : String) : List String :=
  match (text.toList.splitOn ' ').map String.ofList with
  | [] => [first]
  | word :: rest => fill width indent (first ++ word) rest

/-- The lines of a framed finding.  Without a source only the message and the hint
are shown. -/
def finding (f : Finding) (source : Option String) : List String :=
  let d := f.diagnostic
  wrap textWidth "  × " "  │ " d.message
    ++ (match source with
      | some text =>
        draw f.location.file.display text.toList ⟨d.label.offset, d.label.length⟩ d.label.text
      | none => [])
    ++ (match d.help with
      | some help => wrap textWidth "  help: " "        " help
      | none => [])

end Frame
end AggregateAudit
