import AggregateAudit.Source.Interpolation

/-!
# Cutting a text into lexemes

No character is dropped: the lexemes of a text, read one after the other, are the
text.  That is so by construction, because reading answers only the kind and the
extent of the next lexeme, and the cutting is done here, once, for all of them.
-/

namespace AggregateAudit
namespace Source

/-- The kind of the lexeme at the start of code, how many characters it takes, and
the string it opens, if it opens one. -/
def codeLexeme (c : Char) (cs : List Char) : LexemeKind × Nat × Option TextForm :=
  if isBlank c then (.blank, 1 + (cs.takeWhile isBlank).length, none)
  else if c = '#' then
    match directiveExtent? (c :: cs) with
    | some (kind, n) => (kind, n, none)
    | none => (.stray, 1, none)
  else if let some n := commentExtent? (c :: cs) then (.comment, n, none)
  -- A block comment without an end.
  else if c = '/' && cs.head? = some '*' then (.stray, 1 + cs.length, none)
  else if let some n := emptyTextExtent? (c :: cs) then (.stray, n, none)
  else if let some (form, n) := textStart? (c :: cs) then (.textOpen, n, some form)
  else if let some n := wordExtent? (c :: cs) then (.word, n, none)
  else if let some n := literalExtent? (c :: cs) then (.literal, n, none)
  else if let some n := markExtent? (c :: cs) then (.mark, n, none)
  else (.stray, if c = '"' || c = '\'' then 1 + lineExtent cs else 1, none)

/-- The next lexeme of a text: its kind, how many characters it takes, and the
modes behind it. -/
def nextLexeme (modes : List Mode) (c : Char) (cs : List Char) : LexemeKind × Nat × List Mode :=
  match modes with
  | .text form :: outer => form.step outer (c :: cs)
  | .hole braces depth choices :: outer =>
    match if depth = 0 then holeEnd? braces choices outer (c :: cs) else none with
    | some lexeme => lexeme
    | none =>
      match codeLexeme c cs with
      | (kind, n, some form) => (kind, n, .text form :: modes)
      | (.mark, n, none) =>
        (.mark, n,
          holeAfterMark braces depth choices ((c :: cs).take n) ((c :: cs).drop n) :: outer)
      | (kind, n, none) => (kind, n, modes)
  | [] =>
    match codeLexeme c cs with
    | (kind, n, some form) => (kind, n, [.text form])
    | (kind, n, none) => (kind, n, [])

/-- The first `n` lexemes of a text; what is left behind them is one stray
lexeme, so no character is lost for any `n`. -/
def lexemesUpTo : Nat → List Mode → List Char → List Lexeme
  | _, _, [] => []
  | 0, _, cs => [⟨.stray, String.ofList cs⟩]
  | n + 1, modes, c :: cs =>
    let (kind, k, after) := nextLexeme modes c cs
    ⟨kind, String.ofList (c :: cs.take (k - 1))⟩ :: lexemesUpTo n after (cs.drop (k - 1))

/-- The lexemes of a text.  Each takes at least one character, so there are at
most as many as there are characters. -/
def lexemes (cs : List Char) : List Lexeme := lexemesUpTo cs.length [] cs

end Source
end AggregateAudit
