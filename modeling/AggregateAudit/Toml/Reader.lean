import AggregateAudit.Toml.Scalar

/-!
# Reading TOML

A document is a sequence of lines: headers that open a table or add an element to
an array of tables, and keys with their values.  The reader accepts or refuses;
why it refuses is not recorded.

Arrays and inline tables may be nested less than eighty deep.  That limit belongs
to the format as it is read here, and it is also what bounds the recursion of
`readValue`.
-/

namespace AggregateAudit
namespace Toml

/-- How deep arrays and inline tables may be nested, and how long a path of dotted
keys may be: less than this. -/
def nestingLimit : Nat := 80

/-- A text behind the blanks it begins with. -/
def skipGap (cs : List Char) : List Char := cs.dropWhile isGap

/-- A text behind the comment it may begin with. -/
def skipComment : List Char → List Char
  | '#' :: rest => rest.dropWhile isCommentChar
  | cs => cs

/-- The text behind the end of a line: blanks, a comment, and a line break or the
end of the text. -/
def endOfLine? (cs : List Char) : Option (List Char) :=
  match skipComment (skipGap cs) with
  | [] => some []
  | rest => lineBreak? rest

/-- A text behind blanks, comments and line breaks, at most `n` lines of them.
`none` if a comment does not end as a line does. -/
def skipLines? : Nat → List Char → Option (List Char)
  | 0, cs => some cs
  | n + 1, cs =>
    let rest := skipGap cs
    match rest with
    | '#' :: _ =>
      match skipComment rest with
      | [] => some []
      | more => (lineBreak? more).bind (skipLines? n)
    | _ =>
      match lineBreak? rest with
      | some more => skipLines? n more
      | none => some rest

/-! ## Keys -/

/-- Characters of a bare key. -/
def isBareKeyChar (c : Char) : Bool := c.isAlphanum || c = '_' || c = '-'

/-- The key at the start of a text. -/
def simpleKey? (cs : List Char) : Option (String × List Char) :=
  match cs with
  | '"' :: rest => (basicString 0 rest).map fun (k, r) => (String.ofList k, r)
  | '\'' :: rest => (literalString rest).map fun (k, r) => (String.ofList k, r)
  | _ =>
    let word := cs.takeWhile isBareKeyChar
    if word.isEmpty then none else some (String.ofList word, cs.dropWhile isBareKeyChar)

/-- The keys of a dotted key, at most `n` of them, and the text behind them and the
blanks around them. -/
def dottedKey? : Nat → List Char → Option (List String × List Char)
  | 0, _ => none
  | n + 1, cs => do
    let (k, rest) ← simpleKey? (skipGap cs)
    match skipGap rest with
    | '.' :: more => do
      let (ks, rest) ← dottedKey? n more
      some (k :: ks, rest)
    | rest => some ([k], rest)

/-- A dotted key as a path and its last key. -/
def splitLast? (ks : List String) : Option (List String × String) :=
  ks.getLast?.map fun k => (ks.dropLast, k)

/-- The key in front of an equals sign, and the text behind the sign. -/
def keyEquals? (cs : List Char) : Option ((List String × String) × List Char) := do
  let (ks, rest) ← dottedKey? (nestingLimit - 1) cs
  let rest ← char? '=' rest
  let key ← splitLast? ks
  some (key, skipGap rest)

/-! ## Values -/

/-- The characters of a number or a word of letters. -/
def isWordPart (c : Char) : Bool := c.isAlphanum || c = '_' || c = '+' || c = '-' || c = '.'

/-- A value that is not made of others. -/
def scalar? (cs : List Char) : Option (Value × List Char) :=
  match string? cs with
  | some (s, rest) => some (.string (String.ofList s), rest)
  | none =>
    if cs.head? = some '"' || cs.head? = some '\'' then none
    else
      match datetime? cs with
      | some rest => some (.datetime (String.ofList (cs.take (cs.length - rest.length))), rest)
      | none =>
        let word := cs.takeWhile isWordPart
        let rest := cs.dropWhile isWordPart
        if word = ['t', 'r', 'u', 'e'] then some (.boolean true, rest)
        else if word = ['f', 'a', 'l', 's', 'e'] then some (.boolean false, rest)
        else
          match integer? word with
          | some n => some (.integer n, rest)
          | none => if isFloat word then some (.float (String.ofList word), rest) else none

/-- The rest of an array behind its bracket, at most `n` items, with a reader of
values. -/
def readArray (value : List Char → Option (Value × List Char)) :
    Nat → List Char → Option (List Value × List Char)
  | 0, _ => none
  | n + 1, cs => do
    let cs ← skipLines? cs.length cs
    match cs with
    | ']' :: rest => some ([], rest)
    | _ => do
      let (v, rest) ← value cs
      let rest ← skipLines? rest.length rest
      match rest with
      | ',' :: more => do
        let (vs, r) ← readArray value n more
        some (v :: vs, r)
      | ']' :: more => some ([v], more)
      | _ => none

/-- The members of an inline table up to its brace, at most `n` of them, added to
what has been read. -/
def readInline (value : List Char → Option (Value × List Char)) :
    Nat → List (String × Item) → List Char → Option (List (String × Item) × List Char)
  | 0, _, _ => none
  | n + 1, entries, cs => do
    let ((path, key), rest) ← keyEquals? cs
    let (v, rest) ← value rest
    let entries ← Item.assign path key v entries
    match skipGap rest with
    | ',' :: more => readInline value n entries more
    | '}' :: more => some (entries, more)
    | _ => none

/-- The value at the start of a text, with at most `depth` levels of nesting. -/
def readValue : (depth : Nat) → List Char → Option (Value × List Char)
  | 0, cs => if cs.head? = some '[' || cs.head? = some '{' then none else scalar? cs
  | depth + 1, cs =>
    match cs with
    | '[' :: rest =>
      (readArray (readValue depth) (rest.length + 1) rest).map fun (vs, r) => (.array vs, r)
    | '{' :: rest =>
      match skipGap rest with
      | '}' :: more => some (.table [], more)
      | more =>
        (readInline (readValue depth) (more.length + 1) [] more).map fun (es, r) =>
          (.table (Item.entriesToValues es), r)
    | _ => scalar? cs

/-! ## Documents -/

/-- A document while it is read: the header that is in force, and all entries. -/
structure Draft where
  header : List String := []
  entries : List (String × Item) := []

/-- The keys between the brackets of a header. -/
def headerKey? (cs : List Char) : Option ((List String × String) × List Char) := do
  let (ks, rest) ← dottedKey? (nestingLimit - 1) cs
  let key ← splitLast? ks
  some (key, rest)

/-- Reads one line that is neither blank nor a comment. -/
def Draft.readLine (d : Draft) (cs : List Char) : Option (Draft × List Char) :=
  match cs with
  | '[' :: '[' :: rest => do
    let ((path, key), rest) ← headerKey? rest
    let rest ← char? ']' (← char? ']' rest)
    let entries ← Item.openElement path key d.entries
    let rest ← endOfLine? rest
    some (⟨path ++ [key], entries⟩, rest)
  | '[' :: rest => do
    let ((path, key), rest) ← headerKey? rest
    let rest ← char? ']' rest
    let entries ← Item.openTable path key d.entries
    let rest ← endOfLine? rest
    some (⟨path ++ [key], entries⟩, rest)
  | _ => do
    let ((path, key), rest) ← keyEquals? cs
    let (v, rest) ← readValue (nestingLimit - 1) rest
    let entries ← Item.assignIn d.header path key v d.entries
    let rest ← endOfLine? rest
    some ({ d with entries }, rest)

/-- Reads at most `n` lines. -/
def Draft.readLines : Nat → Draft → List Char → Option Draft
  | 0, _, _ => none
  | n + 1, d, cs =>
    match skipGap cs with
    | [] => some d
    | c :: rest =>
      if c = '#' || c = '\n' || c = '\r' then
        match endOfLine? (c :: rest) with
        | some more => readLines n d more
        | none => none
      else
        match d.readLine (c :: rest) with
        | some (d, more) => readLines n d more
        | none => none

/-- Reads a document, which may begin with a byte order mark.  The result is the
table of its entries. -/
def read? (text : String) : Option (List (String × Value)) :=
  let cs :=
    match text.toList with
    | [] => []
    | c :: rest => if c.toNat = 0xFEFF then rest else c :: rest
  (Draft.readLines (cs.length + 1) {} cs).map fun d => Item.entriesToValues d.entries

end Toml
end AggregateAudit
