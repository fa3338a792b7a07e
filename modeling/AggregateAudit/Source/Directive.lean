import AggregateAudit.Source.Literal

/-!
# Directives

A directive begins with `#` wherever it stands on its line, and its word is
recognised by how the text goes on, not by where the word ends.  How far a
directive reaches depends on the word:

* `#region` and `#endregion` may have a text on the same line;
* `#error`, `#warning`, `#define` and `#undef` must have a text, which may begin on
  a later line;
* `#if`, `#elif`, `#pragma`, `#line` and `#nullable` have operands, and end at the
  first line end that does not stand inside them;
* `#else` and `#endif` are nothing but their word.

Whether the operands are the right ones is another question, which does not change
how far a directive reaches.
-/

namespace AggregateAudit
namespace Source

/-! ## Texts -/

/-- How many characters of a text go on the text of a directive.  It ends with
its line or before a block comment, but a slash takes the next character with it
whatever that is, and so does a backslash with a line end.  `skip` characters
have been accounted for. -/
def argumentRest : Nat → List Char → Nat
  | _, [] => 0
  | skip + 1, _ :: cs => 1 + argumentRest skip cs
  | 0, c :: cs =>
    if c = '\n' then 0
    else if c = '/' then
      match cs with
      | [] => 0
      | d :: _ => if d = '*' then 0 else 1 + argumentRest 1 cs
    else if c = '\\' then
      match cs with
      | '\n' :: _ => 1 + argumentRest 1 cs
      | '\r' :: '\n' :: _ => 1 + argumentRest 2 cs
      | _ => 1 + argumentRest 0 cs
    else 1 + argumentRest 0 cs

/-- How many characters a text that begins at once takes: none at the end of a
line or before a comment. -/
def argumentExtent : List Char → Nat
  | [] => 0
  | c :: cs =>
    if isBlank c || (commentExtent? (c :: cs)).isSome then 0 else 1 + argumentRest 0 cs

/-- How many characters a text takes that may begin behind blanks satisfying `p`
and comments. -/
def argumentBehind (p : Char → Bool) (cs : List Char) : Nat :=
  let gap := gapExtent p 0 cs
  let n := argumentExtent (cs.drop gap)
  if n = 0 then (cs.takeWhile fun c => isBlank c && p c).length else gap + n

/-! ## Operands -/

/-- How many characters the operands of a directive take, up to the first line
end outside parentheses that stands behind an operand.  `expecting` says that an
operand is to follow, `depth` counts the open parentheses, and `skip` characters
have been accounted for. -/
def operandsExtent (expecting : Bool) (depth : Nat) : Nat → List Char → Nat
  | _, [] => 0
  | skip + 1, _ :: cs => 1 + operandsExtent expecting depth skip cs
  | 0, c :: cs =>
    if c = '\n' && !expecting && depth = 0 then 0
    else
      match commentExtent? (c :: cs) with
      | some n => 1 + operandsExtent expecting depth (n - 1) cs
      | none =>
        if isBlank c then 1 + operandsExtent expecting depth 0 cs
        else if c = '(' then 1 + operandsExtent true (depth + 1) 0 cs
        else if c = ')' then 1 + operandsExtent false (depth - 1) 0 cs
        else if c = '!' || c = '&' || c = '|' || c = '=' || c = ',' || c = '-' then
          1 + operandsExtent true depth 0 cs
        else
          match literalExtent? (c :: cs) with
          | some n => 1 + operandsExtent false depth (n - 1) cs
          | none => 1 + operandsExtent false depth 0 cs

/-! ## Words -/

/-- How a directive goes on behind its word. -/
inductive DirectiveForm where
  /-- With a text on the same line, or with nothing. -/
  | remark
  /-- With a text. -/
  | message
  /-- With operands. -/
  | operands
  /-- With nothing. -/
  | bare

/-- The words of directives. -/
def directiveWords : List (String × LexemeKind × DirectiveForm) :=
  [("region", .directive, .remark), ("endregion", .directive, .remark),
   ("error", .directive, .message), ("warning", .directive, .message),
   ("define", .directive, .message), ("undef", .directive, .message),
   ("line", .directive, .operands), ("pragma", .directive, .operands),
   ("nullable", .directive, .operands), ("if", .conditionalIf, .operands),
   ("elif", .conditionalElif, .operands), ("else", .conditionalElse, .bare),
   ("endif", .conditionalEnd, .bare)]

/-- How many characters a directive takes behind its word. -/
def DirectiveForm.extent : DirectiveForm → List Char → Nat
  | remark, cs => argumentBehind (· ≠ '\n') cs
  | message, cs => argumentBehind (fun _ => true) cs
  | operands, cs => operandsExtent true 0 0 cs
  | bare, _ => 0

/-- The kind and the extent of the directive at the start of a text, if there is
one. -/
def directiveExtent? : List Char → Option (LexemeKind × Nat)
  | '#' :: '!' :: cs => some (.directive, 2 + lineExtent cs)
  | '#' :: cs =>
    let gap := (cs.takeWhile fun c => c = ' ' || c = '\t').length
    let rest := cs.drop gap
    match directiveWords.find? fun d => d.1.toList.isPrefixOf rest with
    | some (word, kind, form) =>
      some (kind, 1 + gap + word.length + form.extent (rest.drop word.length))
    | none => none
  | _ => none

/-! ## What operands there may be -/

/-- A part of the operands of a directive. -/
inductive Operand where
  | word (text : String)
  | literal (kind : LiteralClass)
  | mark (text : String)
  deriving DecidableEq

/-- The operand or mark at the start of a text, and how many characters it takes. -/
def operand? (cs : List Char) : Option (Operand × Nat) :=
  match wordExtent? cs with
  | some n => some (.word (String.ofList (cs.take n)), n)
  | none =>
    match literalExtent? cs with
    | some n => (literalClass? (cs.take n)).map fun k => (.literal k, n)
    | none => (markExtent? cs).map fun n => (.mark (String.ofList (cs.take n)), n)

/-- The first `n` operands of a text, and none if something else stands there. -/
def operandsUpTo : Nat → List Char → Option (List Operand)
  | n, cs =>
    match cs.drop (gapExtent (fun _ => true) 0 cs) with
    | [] => some []
    | rest =>
      match n, operand? rest with
      | n + 1, some (o, k) => (operandsUpTo n (rest.drop k)).map (o :: ·)
      | _, _ => none

/-- Whether operands make a condition: names, truth values, whole numbers and
characters, joined and compared, negated and parenthesised.  `expecting` says that
an operand is to follow, and `depth` counts the open parentheses. -/
def isCondition (expecting : Bool) (depth : Nat) : List Operand → Bool
  | [] => !expecting && depth = 0
  | .word _ :: os => expecting && isCondition false depth os
  | .literal k :: os => expecting && (k = .integer || k = .character) && isCondition false depth os
  | .mark m :: os =>
    if m = "!" then expecting && isCondition true depth os
    else if m = "(" then expecting && isCondition true (depth + 1) os
    else if m = ")" then !expecting && 0 < depth && isCondition false (depth - 1) os
    else !expecting && ["&&", "||", "==", "!="].contains m && isCondition true depth os

/-- Whether operands are codes of warnings with commas between them. -/
def areCodes : List Operand → Bool
  | [] => true
  | [.word _] => true
  | [.literal .integer] => true
  | .word _ :: .mark "," :: o :: os => areCodes (o :: os)
  | .literal .integer :: .mark "," :: o :: os => areCodes (o :: os)
  | _ => false

/-- Whether operands say what is done about warnings, or what a file's checksum is. -/
def isPragma : List Operand → Bool
  | .word "warning" :: .word action :: codes =>
    (action = "disable" || action = "restore") && areCodes codes
  | [.word "checksum", .literal .text, .literal .text, .literal .text] => true
  | _ => false

/-- Whether operands say whether absent values are looked for, and where. -/
def isNullable : List Operand → Bool
  | .word setting :: scope =>
    ["enable", "disable", "restore"].contains setting
      && (scope = [] || scope = [.word "annotations"] || scope = [.word "warnings"])
  | _ => false

/-- What is left of operands behind a line and a column in parentheses. -/
def behindPlace? : List Operand → Option (List Operand)
  | .mark "(" :: .literal .integer :: .mark "," :: .literal .integer :: .mark ")" :: rest =>
    some rest
  | _ => none

/-- Whether operands say which line this is, and perhaps of which file. -/
def isLine (os : List Operand) : Bool :=
  match os with
  | [.word w] => w = "default" || w = "hidden"
  | [.literal .integer] => true
  | [.literal .integer, .literal .text] => true
  | _ =>
    match behindPlace? os with
    | some (.mark "-" :: more) =>
      behindPlace? more = some [.literal .text]
        || behindPlace? more = some [.literal .integer, .literal .text]
    | _ => false

/-- Whether a directive has the operands its word asks for. -/
def operandsFit (word : String) (cs : List Char) : Bool :=
  match operandsUpTo cs.length cs with
  | none => false
  | some os =>
    match word with
    | "if" => isCondition true 0 os
    | "elif" => isCondition true 0 os
    | "pragma" => isPragma os
    | "nullable" => isNullable os
    | "line" => isLine os
    | _ => true

/-- Whether a directive that must have a text has one. -/
def messageFits (cs : List Char) : Bool :=
  0 < argumentExtent (cs.drop (gapExtent (fun _ => true) 0 cs))

/-- Whether a directive is written as its word asks for. -/
def directiveFits : List Char → Bool
  | '#' :: cs =>
    let rest := cs.dropWhile fun c => c = ' ' || c = '\t'
    match directiveWords.find? fun d => d.1.toList.isPrefixOf rest with
    | some (word, _, .operands) => operandsFit word (rest.drop word.length)
    | some (word, _, .message) => messageFits (rest.drop word.length)
    | _ => true
  | _ => true

end Source
end AggregateAudit
