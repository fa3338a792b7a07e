import AggregateAudit.Proofs.TextKept

/-!
# Sketches of declarations

A *sketch* is a type declaration that has not been written down: a kind, a name, base types
and members, where a member is a constructor, a `void` method or a type again.  Sketches are
the inputs of the round trip: they are rendered as text (`Sketch.renderAll`), and the
declarations that the text should be read as are known beforehand (`Sketch.declared`).

Nothing has to be assumed about a sketch.  That its names are identifiers and no keywords is
part of what a name is (`Identifier`), that its modifiers are among the five of the fragment
is part of what a modifier is (`SketchModifier`), and the brackets of its text match because
a sketch is a tree.

The text is also given a second time, as the row of pieces it falls into
(`Sketch.pieces`).  `charsAll_forestPieces` says that the two are the same text; everything
behind it is about pieces, and no proof looks at a rendered string again.
-/

namespace AggregateAudit
namespace Source

/-! ## Names -/

/-- The keywords of the language, first the reserved ones and then those that are keywords
only in some places. -/
def keywords : List String :=
  ["abstract", "as", "base", "bool", "break", "byte", "case", "catch", "char", "checked", "class",
    "const", "continue", "decimal", "default", "delegate", "do", "double", "else", "enum", "event",
    "explicit", "extern", "false", "finally", "fixed", "float", "for", "foreach", "goto", "if",
    "implicit", "in", "int", "interface", "internal", "is", "lock", "long", "namespace", "new",
    "null", "object", "operator", "out", "override", "params", "private", "protected", "public",
    "readonly", "ref", "return", "sbyte", "sealed", "short", "sizeof", "stackalloc", "static",
    "string", "struct", "switch", "this", "throw", "true", "try", "typeof", "uint", "ulong",
    "unchecked", "unsafe", "ushort", "using", "virtual", "void", "volatile", "while"]
  ++
  ["add", "alias", "allows", "and", "args", "ascending", "async", "await", "by", "descending",
    "dynamic", "equals", "extension", "field", "file", "from", "get", "global", "group", "init",
    "into", "join", "let", "managed", "nameof", "nint", "not", "notnull", "nuint", "on", "or",
    "orderby", "partial", "record", "remove", "required", "scoped", "select", "set", "unmanaged",
    "value", "var", "when", "where", "with", "yield"]

/-- Whether a text has the letters, digits and underscores of a word, beginning with a
letter. -/
def isPlainWord (s : String) : Bool :=
  s.toList.head?.any Char.isAlpha && s.toList.all fun c => c.isAlphanum || c = '_'

/-- Whether a text is a word that can be a name everywhere. -/
def isIdentifier (s : String) : Bool := !keywords.contains s && isPlainWord s

/-- A word that can be a name everywhere. -/
structure Identifier where
  text : String
  isIdentifier : isIdentifier text = true

namespace Identifier

theorem isPlainWord (n : Identifier) : Source.isPlainWord n.text = true :=
  (Bool.and_eq_true_iff.mp n.isIdentifier).2

/-- A name is none of the words that cannot be names. -/
theorem not_mem (n : Identifier) {ws : List String}
    (h : ws.all (fun w => !Source.isIdentifier w) = true) : n.text ∉ ws := fun hmem => by
  have hnot := List.all_eq_true.mp h n.text hmem
  simp [n.isIdentifier] at hnot

/-- The characters of a keyword are letters, so a word with a digit in it is none. -/
theorem not_mem_keywords_of_isDigit {s : String} {c : Char} (hc : c ∈ s.toList)
    (hd : c.isDigit = true) : s ∉ keywords := fun hmem => by
  have hall : keywords.all (fun w => w.toList.all fun d => !d.isDigit) = true := by decide +kernel
  have hnot := List.all_eq_true.mp (List.all_eq_true.mp hall s hmem) c hc
  simp [hd] at hnot

/-- The name of the parameter at a place: `p0`, `p1` and so on. -/
def numbered (k : Nat) : Identifier where
  text := "p" ++ k.repr
  isIdentifier := by
    have hdigits : ∀ c ∈ k.repr.toList, c.isDigit = true := fun c hc =>
      Nat.isDigit_of_mem_toDigits (by decide) (by decide) (Nat.toList_repr ▸ hc)
    obtain ⟨c, hc⟩ : ∃ c, c ∈ k.repr.toList := by
      rw [Nat.toList_repr]
      exact List.exists_mem_of_ne_nil _ Nat.toDigits_ne_nil
    have hfree : "p" ++ k.repr ∉ keywords :=
      not_mem_keywords_of_isDigit (String.toList_append ▸ List.mem_append_right _ hc) (hdigits c hc)
    have hword : Source.isPlainWord ("p" ++ k.repr) = true := by
      have hall : k.repr.toList.all (fun c => c.isAlphanum || c = '_') = true :=
        List.all_eq_true.mpr fun d hd => by simp [Char.isAlphanum, hdigits d hd]
      simp only [Source.isPlainWord, String.toList_append, List.all_append, hall]
      rfl
    simp [Source.isIdentifier, hword, hfree]

end Identifier

/-! ## Sketches -/

/-- The modifiers that members of a sketch have. -/
def sketchModifiers : List Modifier :=
  [.publicAccess, .privateAccess, .protectedAccess, .internalAccess, .other "static"]

/-- One of the modifiers that members of a sketch have. -/
structure SketchModifier where
  modifier : Modifier
  mem : modifier ∈ sketchModifiers

/-- How a modifier is written. -/
def SketchModifier.text (m : SketchModifier) : String := m.modifier.keyword

/-- An entry of a base list: names with points between them, perhaps with names as type
arguments. -/
structure SketchBase where
  first : Identifier
  further : List Identifier
  arguments : List Identifier

/-- The body of a constructor. -/
inductive SketchBody where
  /-- A block of calls without arguments. -/
  | block (calls : List Identifier)
  /-- An arrow and a call without arguments. -/
  | arrow (call : Identifier)
  /-- A semicolon. -/
  | absent

/-- A constructor, with so many parameters of type `int`. -/
structure SketchConstructor where
  modifiers : List SketchModifier
  name : Identifier
  parameters : Nat
  body : SketchBody

/-- A `void` method without parameters and statements. -/
structure SketchMethod where
  modifiers : List SketchModifier
  name : Identifier

/-- What stands in front of the members of a type.  Without base types there is no base
list. -/
structure SketchHeader where
  kind : TypeKind
  name : Identifier
  bases : List SketchBase

/-- A member of a type. -/
inductive SketchMember where
  | constructor (c : SketchConstructor)
  | method (m : SketchMethod)
  | type (header : SketchHeader) (members : List SketchMember)

/-- A type declaration that has not been written down. -/
structure Sketch where
  header : SketchHeader
  members : List SketchMember

/-! ## Their text -/

/-- The names behind a first one, each behind a point. -/
def renderDotted (names : List Identifier) : String :=
  String.join (names.map fun n => "." ++ n.text)

/-- Type arguments, if there are any. -/
def renderArguments : List Identifier → String
  | [] => ""
  | names => "<" ++ ", ".intercalate (names.map Identifier.text) ++ ">"

def SketchBase.render (b : SketchBase) : String :=
  b.first.text ++ renderDotted b.further ++ renderArguments b.arguments

/-- A base list, if there are base types. -/
def renderBases : List SketchBase → String
  | [] => ""
  | bases => " : " ++ ", ".intercalate (bases.map SketchBase.render)

def SketchHeader.render (h : SketchHeader) : String :=
  h.kind.word ++ " " ++ h.name.text ++ renderBases h.bases

/-- Modifiers, each behind a space. -/
def renderModifiers (ms : List SketchModifier) : String :=
  String.join (ms.map fun m => " " ++ m.text)

/-- A call without arguments and the semicolon behind it. -/
def renderCall (n : Identifier) : String := " " ++ n.text ++ "();"

def SketchBody.render : SketchBody → String
  | block calls => " \x7b" ++ String.join (calls.map renderCall) ++ " \x7d"
  | arrow call => " =>" ++ renderCall call
  | absent => ";"

/-- The parameters of a constructor: `int p0, int p1` and so on. -/
def renderParameters (n : Nat) : String :=
  ", ".intercalate ((List.range n).map fun k => "int " ++ (Identifier.numbered k).text)

def SketchConstructor.render (c : SketchConstructor) : String :=
  renderModifiers c.modifiers ++ " " ++ c.name.text ++ "(" ++ renderParameters c.parameters ++ ")"
    ++ c.body.render

def SketchMethod.render (m : SketchMethod) : String :=
  renderModifiers m.modifiers ++ " void " ++ m.name.text ++ "() \x7b \x7d"

mutual

/-- A member, behind a space. -/
def SketchMember.render : SketchMember → String
  | .constructor c => c.render
  | .method m => m.render
  | .type h ms => " " ++ h.render ++ " \x7b" ++ renderAll ms ++ " \x7d"

/-- Members, each behind a space. -/
def SketchMember.renderAll : List SketchMember → String
  | [] => ""
  | m :: ms => m.render ++ renderAll ms

end

def Sketch.render (s : Sketch) : String :=
  s.header.render ++ " \x7b" ++ SketchMember.renderAll s.members ++ " \x7d"

/-- The text of a row of types, with spaces between them, such as
`class A : B.C, D<E> { private A(int p0, int p1) { F(); } void G() { } } struct H { }`. -/
def Sketch.renderAll (ss : List Sketch) : String := " ".intercalate (ss.map Sketch.render)

/-! ## The declarations they stand for

Locations are left out: they are those of a declaration that has none. -/

/-- Without base types there is no base list, which is not the same as an empty one. -/
def declaredBases : List SketchBase → Option (List String)
  | [] => none
  | bases => some (bases.map SketchBase.render)

def SketchBody.declared : SketchBody → Body
  | block calls => .block calls.length
  | arrow _ => .expression
  | absent => .absent

def SketchConstructor.declared (owner : String) (c : SketchConstructor) : Constructor where
  owner := owner
  name := c.name.text
  modifiers := c.modifiers.map SketchModifier.modifier
  parameterCount := c.parameters
  body := c.body.declared

def SketchMethod.declared (owner : String) (m : SketchMethod) : Method where
  owner := owner
  name := m.name.text
  modifiers := m.modifiers.map SketchModifier.modifier

def SketchHeader.declared (h : SketchHeader) : TypeHeader where
  name := h.name.text
  kind := h.kind
  baseTypes := declaredBases h.bases

mutual

/-- The member of the type called `owner` that a sketch stands for. -/
def SketchMember.declared (owner : String) : SketchMember → Member
  | .constructor c => .constructor (c.declared owner)
  | .method m => .method (m.declared owner)
  | .type h ms => .type h.declared (declaredAll h.name.text ms)

def SketchMember.declaredAll (owner : String) : List SketchMember → List Member
  | [] => []
  | m :: ms => m.declared owner :: declaredAll owner ms

end

/-- The type declaration that a sketch stands for. -/
def Sketch.declared (s : Sketch) : TypeDeclaration where
  header := s.header.declared
  members := SketchMember.declaredAll s.header.name.text s.members

end Source

/-! ## Declarations without their locations -/

mutual

/-- A member, itself and all in it without locations. -/
def Member.unlocated : Member → Member
  | .constructor c => .constructor { c with location := {} }
  | .method m => .method { m with location := {} }
  | .type h ms => .type { h with location := {} } (unlocatedAll ms)

def Member.unlocatedAll : List Member → List Member
  | [] => []
  | m :: ms => m.unlocated :: unlocatedAll ms

end

/-- A type, itself and all in it without locations. -/
def TypeDeclaration.unlocated (t : TypeDeclaration) : TypeDeclaration where
  header := { t.header with location := {} }
  members := Member.unlocatedAll t.members

namespace Source

/-! ## Their pieces -/

/-- The space between two lexemes. -/
def gap : List Lexeme := [⟨.blank, " "⟩]

def wordPiece (lead : List Lexeme) (w : String) : Piece := .lexeme lead ⟨.word, w⟩

def markPiece (lead : List Lexeme) (m : String) : Piece := .lexeme lead ⟨.mark, m⟩

/-- Parentheses directly behind what stands in front of them. -/
def parens (inside : List Piece) : Piece :=
  .group [] .paren ⟨.mark, "("⟩ inside [] (some ⟨.mark, ")"⟩)

/-- Braces, with a space in front of each of them. -/
def braces (inside : List Piece) : Piece :=
  .group gap .brace ⟨.mark, "\x7b"⟩ inside gap (some ⟨.mark, "\x7d"⟩)

/-- Entries with commas between them.  There is a space in front of every entry but the
first, which stands behind `lead`. -/
def entryPieces {α : Type} (entry : List Lexeme → α → List Piece) (lead : List Lexeme) :
    List α → List Piece
  | [] => []
  | a :: as => entry lead a ++ as.flatMap fun b => markPiece [] "," :: entry gap b

/-- The names behind a first one, each behind a point. -/
def dottedPieces (names : List Identifier) : List Piece :=
  names.flatMap fun n => [markPiece [] ".", wordPiece [] n.text]

def argumentPieces : List Identifier → List Piece
  | [] => []
  | names =>
    markPiece [] "<" :: entryPieces (fun lead n => [wordPiece lead n.text]) [] names
      ++ [markPiece [] ">"]

def SketchBase.pieces (lead : List Lexeme) (b : SketchBase) : List Piece :=
  wordPiece lead b.first.text :: (dottedPieces b.further ++ argumentPieces b.arguments)

def basesPieces : List SketchBase → List Piece
  | [] => []
  | bases => markPiece gap ":" :: entryPieces SketchBase.pieces gap bases

def SketchHeader.pieces (lead : List Lexeme) (h : SketchHeader) : List Piece :=
  wordPiece lead h.kind.word :: wordPiece gap h.name.text :: basesPieces h.bases

def modifierPieces (ms : List SketchModifier) : List Piece := ms.map fun m => wordPiece gap m.text

def callPieces (n : Identifier) : List Piece :=
  [wordPiece gap n.text, parens [], markPiece [] ";"]

def SketchBody.pieces : SketchBody → List Piece
  | block calls => [braces (calls.flatMap callPieces)]
  | arrow call => markPiece gap "=>" :: callPieces call
  | absent => [markPiece [] ";"]

def parameterPieces (names : List Identifier) : List Piece :=
  entryPieces (fun lead n => [wordPiece lead "int", wordPiece gap n.text]) [] names

/-- The names of the parameters of a constructor. -/
def SketchConstructor.parameterNames (c : SketchConstructor) : List Identifier :=
  (List.range c.parameters).map Identifier.numbered

def SketchConstructor.pieces (c : SketchConstructor) : List Piece :=
  modifierPieces c.modifiers ++ wordPiece gap c.name.text
    :: parens (parameterPieces c.parameterNames) :: c.body.pieces

def SketchMethod.pieces (m : SketchMethod) : List Piece :=
  modifierPieces m.modifiers
    ++ [wordPiece gap "void", wordPiece gap m.name.text, parens [], braces []]

mutual

def SketchMember.pieces : SketchMember → List Piece
  | .constructor c => c.pieces
  | .method m => m.pieces
  | .type h ms => h.pieces gap ++ [braces (piecesAll ms)]

def SketchMember.piecesAll : List SketchMember → List Piece
  | [] => []
  | m :: ms => m.pieces ++ piecesAll ms

end

/-- The pieces of a type behind `lead`. -/
def Sketch.pieces (lead : List Lexeme) (s : Sketch) : List Piece :=
  s.header.pieces lead ++ [braces (SketchMember.piecesAll s.members)]

/-- The pieces of a row of types. -/
def forestPieces : List Sketch → List Piece
  | [] => []
  | s :: ss => s.pieces [] ++ ss.flatMap (Sketch.pieces gap)

/-! ## The pieces have the text -/

section Characters

open Piece (charsAll)

@[simp] theorem charsOf_wordPiece (lead : List Lexeme) (w : String) :
    charsOf (wordPiece lead w).lexemes = charsOf lead ++ w.toList := by
  simp [wordPiece]

@[simp] theorem charsOf_markPiece (lead : List Lexeme) (m : String) :
    charsOf (markPiece lead m).lexemes = charsOf lead ++ m.toList := by
  simp [markPiece]

@[simp] theorem charsOf_parens (inside : List Piece) :
    charsOf (parens inside).lexemes = '(' :: charsAll inside ++ [')'] := by
  simp [parens]

@[simp] theorem charsOf_braces (inside : List Piece) :
    charsOf (braces inside).lexemes = ' ' :: '\x7b' :: charsAll inside ++ [' ', '\x7d'] := by
  simp [braces, gap]

@[simp] theorem charsOf_gap : charsOf gap = [' '] := rfl

/-- A row that is put together from pieces of its entries has the characters that are put
together from those of its entries. -/
theorem charsAll_flatMap {α : Type} (f : α → List Piece) (as : List α) :
    charsAll (as.flatMap f) = as.flatMap fun a => charsAll (f a) := by
  induction as with
  | nil => rfl
  | cons a as ih => simp [ih]

/-- Entries with commas between them have the characters of the entries with a comma and a
space between them. -/
theorem charsAll_entryPieces {α : Type} (entry : List Lexeme → α → List Piece) (text : α → String)
    (h : ∀ lead a, charsAll (entry lead a) = charsOf lead ++ (text a).toList) (lead : List Lexeme)
    {as : List α} (has : as ≠ []) :
    charsAll (entryPieces entry lead as)
      = charsOf lead ++ (", ".intercalate (as.map text)).toList := by
  obtain ⟨a, as, rfl⟩ := List.exists_cons_of_ne_nil has
  induction as generalizing a lead with
  | nil => simp [entryPieces, h]
  | cons b as ih =>
    have hrest := ih gap b (by simp)
    simp only [entryPieces, Piece.charsAll_append, h, List.append_assoc,
      List.append_cancel_left_eq] at hrest
    simp [entryPieces, h, hrest]

theorem charsAll_dottedPieces (names : List Identifier) :
    charsAll (dottedPieces names) = (renderDotted names).toList := by
  simp [dottedPieces, renderDotted, charsAll_flatMap, List.flatMap_map]

theorem charsAll_argumentPieces (names : List Identifier) :
    charsAll (argumentPieces names) = (renderArguments names).toList := by
  cases names with
  | nil => rfl
  | cons n names =>
    have hnames := charsAll_entryPieces (fun lead n => [wordPiece lead n.text]) Identifier.text
      (by simp) [] (List.cons_ne_nil n names)
    simp [argumentPieces, renderArguments, hnames]

theorem SketchBase.charsAll_pieces (lead : List Lexeme) (b : SketchBase) :
    charsAll (b.pieces lead) = charsOf lead ++ b.render.toList := by
  simp [pieces, render, charsAll_dottedPieces, charsAll_argumentPieces]

theorem charsAll_basesPieces (bases : List SketchBase) :
    charsAll (basesPieces bases) = (renderBases bases).toList := by
  cases bases with
  | nil => rfl
  | cons b bases =>
    have hbases := charsAll_entryPieces SketchBase.pieces SketchBase.render
      SketchBase.charsAll_pieces gap (List.cons_ne_nil b bases)
    simp [basesPieces, renderBases, hbases]

theorem SketchHeader.charsAll_pieces (lead : List Lexeme) (h : SketchHeader) :
    charsAll (h.pieces lead) = charsOf lead ++ h.render.toList := by
  simp [pieces, render, charsAll_basesPieces]

theorem charsAll_modifierPieces (ms : List SketchModifier) :
    charsAll (modifierPieces ms) = (renderModifiers ms).toList := by
  induction ms with
  | nil => rfl
  | cons m ms ih =>
    rw [modifierPieces, renderModifiers] at ih ⊢
    simp only [List.map_cons, Piece.charsAll_cons, ih]
    simp

theorem charsAll_callPieces (n : Identifier) :
    charsAll (callPieces n) = (renderCall n).toList := by
  simp [callPieces, renderCall]

theorem SketchBody.charsAll_pieces (b : SketchBody) : charsAll b.pieces = b.render.toList := by
  cases b with
  | block calls =>
    simp [pieces, render, charsAll_flatMap, charsAll_callPieces, List.flatMap_map]
  | arrow call => simp [pieces, render, charsAll_callPieces]
  | absent => simp [pieces, render]

theorem charsAll_parameterPieces (c : SketchConstructor) :
    charsAll (parameterPieces c.parameterNames) = (renderParameters c.parameters).toList := by
  by_cases hnone : c.parameterNames = []
  · have hzero : c.parameters = 0 := by simpa [SketchConstructor.parameterNames] using hnone
    simp [hnone, hzero, parameterPieces, entryPieces, renderParameters]
  · rw [parameterPieces, charsAll_entryPieces _ (fun n => "int " ++ n.text) (by simp) [] hnone]
    simp [renderParameters, SketchConstructor.parameterNames, Function.comp_def]

theorem SketchConstructor.charsAll_pieces (c : SketchConstructor) :
    charsAll c.pieces = c.render.toList := by
  simp [pieces, render, charsAll_modifierPieces, charsAll_parameterPieces,
    SketchBody.charsAll_pieces]

theorem SketchMethod.charsAll_pieces (m : SketchMethod) : charsAll m.pieces = m.render.toList := by
  simp [pieces, render, charsAll_modifierPieces]

mutual

theorem SketchMember.charsAll_pieces : ∀ m : SketchMember, charsAll m.pieces = m.render.toList
  | .constructor c => by
    rw [pieces, render, c.charsAll_pieces]
  | .method m => by
    rw [pieces, render, m.charsAll_pieces]
  | .type h ms => by
    simp [pieces, render, h.charsAll_pieces, charsAll_piecesAll ms]

theorem SketchMember.charsAll_piecesAll :
    ∀ ms : List SketchMember, charsAll (piecesAll ms) = (renderAll ms).toList
  | [] => rfl
  | m :: ms => by
    simp [piecesAll, renderAll, charsAll_pieces m, charsAll_piecesAll ms]

end

theorem Sketch.charsAll_pieces (lead : List Lexeme) (s : Sketch) :
    charsAll (s.pieces lead) = charsOf lead ++ s.render.toList := by
  simp [pieces, render, SketchHeader.charsAll_pieces, SketchMember.charsAll_piecesAll]

/-- The pieces of a row of types have the characters of its text. -/
theorem charsAll_forestPieces (ss : List Sketch) :
    charsAll (forestPieces ss) = (Sketch.renderAll ss).toList := by
  cases ss with
  | nil => rfl
  | cons s ss =>
    induction ss generalizing s with
    | nil => simp [forestPieces, Sketch.renderAll, Sketch.charsAll_pieces]
    | cons t ss ih =>
      have hrest := ih t
      simp only [forestPieces, Piece.charsAll_append, Sketch.charsAll_pieces, charsOf_nil,
        List.nil_append] at hrest
      simp [forestPieces, Sketch.renderAll, Sketch.charsAll_pieces, hrest]

end Characters
end Source
end AggregateAudit
