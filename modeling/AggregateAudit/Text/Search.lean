/-!
# Searching and trimming text

The few questions that this library asks of a row of characters: whether another
row occurs in it, what is left when the blanks at both ends are taken away, and
whether it is another one but for the case of its letters.
-/

namespace AggregateAudit
namespace Text

/-- Whether `needle` occurs somewhere in a row. -/
def occurs {α : Type} [BEq α] (needle : List α) : List α → Bool
  | [] => needle.isEmpty
  | c :: cs => needle.isPrefixOf (c :: cs) || occurs needle cs

/-- Searching a row finds what is a stretch of it. -/
theorem occurs_iff_infix {α : Type} [BEq α] [LawfulBEq α] {needle s : List α} :
    occurs needle s = true ↔ needle <:+: s := by
  induction s with
  | nil => simp [occurs]
  | cons c s ih =>
    rw [occurs, Bool.or_eq_true, ih, List.isPrefixOf_iff_prefix, List.infix_cons_iff]

/-- The white space of Unicode. -/
def isWhite (c : Char) : Bool :=
  let n := c.toNat
  (0x09 ≤ n && n ≤ 0x0D) || n == 0x20 || n == 0x85 || n == 0xA0 || n == 0x1680
    || (0x2000 ≤ n && n ≤ 0x200A) || n == 0x2028 || n == 0x2029 || n == 0x202F
    || n == 0x205F || n == 0x3000

/-- A row without the members at its end that satisfy `p`. -/
def dropEndWhile {α : Type} (p : α → Bool) (s : List α) : List α :=
  (s.reverse.dropWhile p).reverse

/-- A text without the white space at both ends. -/
def trim (s : List Char) : List Char := dropEndWhile isWhite (s.dropWhile isWhite)

/-- Equality up to the case of ASCII letters. -/
def eqIgnoringCase (s t : String) : Bool :=
  s.toList.map Char.toLower == t.toList.map Char.toLower

/-- A row of lines as text: each line, and its end. -/
def unlines (lines : List String) : String := String.join (lines.map (· ++ "\n"))

end Text
end AggregateAudit
