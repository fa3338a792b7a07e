import AggregateAudit.Proofs.Sketch

/-!
# Outlines of sketches

What the next declaration or statement of a row is, where the row begins with the pieces of a
type, a constructor, a method or a call of a sketch.  The outline does not depend on what
follows in the row, apart from a semicolon behind the braces of a type.
-/

namespace AggregateAudit
namespace Source

/-! ## Looking at the pieces of sketches -/

section Pieces

variable (lead : List Lexeme) (w m : String) (b : Bracket) (inside : List Piece)

@[simp] theorem word?_wordPiece : (wordPiece lead w).word? = some w := rfl

@[simp] theorem word?_markPiece : (markPiece lead m).word? = none := rfl

@[simp] theorem word?_parens : (parens inside).word? = none := rfl

@[simp] theorem word?_braces : (braces inside).word? = none := rfl

@[simp] theorem mark?_wordPiece : (wordPiece lead w).mark? = none := rfl

@[simp] theorem mark?_markPiece : (markPiece lead m).mark? = some m := rfl

@[simp] theorem mark?_parens : (parens inside).mark? = none := rfl

@[simp] theorem mark?_braces : (braces inside).mark? = none := rfl

@[simp] theorem isGroup_wordPiece : (wordPiece lead w).isGroup b = false := rfl

@[simp] theorem isGroup_markPiece : (markPiece lead m).isGroup b = false := rfl

@[simp] theorem isGroup_parens : (parens inside).isGroup b = decide (.paren = b) := rfl

@[simp] theorem isGroup_braces : (braces inside).isGroup b = decide (.brace = b) := rfl

end Pieces

theorem length_le_length_flatMap {α β : Type} {f : α → List β} (hf : ∀ a, f a ≠ []) (as : List α) :
    as.length ≤ (as.flatMap f).length := by
  induction as with
  | nil => exact Nat.le_refl 0
  | cons a as ih =>
    have hpos := List.length_pos_iff.mpr (hf a)
    rw [List.flatMap_cons, List.length_append, List.length_cons]
    omega

theorem length_le_length_entryPieces {α : Type} {entry : List Lexeme → α → List Piece}
    (h : ∀ lead a, entry lead a ≠ []) (lead : List Lexeme) (as : List α) :
    as.length ≤ (entryPieces entry lead as).length := by
  cases as with
  | nil => exact Nat.le_refl 0
  | cons a as =>
    have hfirst := List.length_pos_iff.mpr (h lead a)
    have hfurther := length_le_length_flatMap
      (f := fun b => markPiece [] "," :: entry gap b) (by simp) as
    rw [entryPieces, List.length_append, List.length_cons]
    omega

/-! ## Names are none of the words -/

/-- The words that begin a using directive, an external alias or a namespace. -/
def directiveStarts : List String := ["using", "global", "extern", "namespace"]

/-- The words that types with keywords begin with. -/
def typeStarts : List String := "ref" :: "delegate" :: "scoped" :: builtinTypes

/-- The words that declarations of types begin with. -/
def typeWords : List String :=
  ["class", "struct", "interface", "record", "ref", "enum", "delegate"]

/-- The words that members other than constructors and methods begin with. -/
def memberStarts : List String := ["event", "implicit", "explicit", "var"]

/-- The words that statements with parts of their own begin with. -/
def statementStarts : List String := ["if", "do", "try", "switch", "await", "yield"]

/-- The lists of words by which declarations and statements are told apart. -/
def outlineWords : List (List String) :=
  [typeStarts, typeWords, memberStarts, constructorBarred, ["operator", "this"],
    "file" :: modifierWords, directiveStarts, statementWords, statementStarts, headedWords,
    blockWords]

theorem Identifier.not_mem_outlineWords (n : Identifier) {ws : List String}
    (h : ws ∈ outlineWords) : n.text ∉ ws := by
  have hwords : outlineWords.flatten.all (fun w => !Source.isIdentifier w) = true := by
    decide +kernel
  exact fun hmem => n.not_mem hwords (List.mem_flatten.mpr ⟨ws, h, hmem⟩)

/-! ## Base types -/

/-- Whether a written type ends in front of a row. -/
def EndsType (ps : List Piece) : Prop :=
  typeExtent .named ps = some 0 ∧ typeExtent .applied ps = some 0

theorem endsType_braces (inside ps : List Piece) : EndsType (braces inside :: ps) := by
  simp [EndsType, typeExtent, Piece.isMark, Piece.isTypeSuffix]

theorem endsType_comma (lead : List Lexeme) (ps : List Piece) :
    EndsType (markPiece lead "," :: ps) := by
  simp [EndsType, typeExtent, Piece.isMark, Piece.isTypeSuffix]

theorem typeExtent_dottedPieces (names : List Identifier) (ps : List Piece) :
    typeExtent .named (dottedPieces names ++ ps)
      = (typeExtent .named ps).map (· + (dottedPieces names).length) := by
  induction names with
  | nil => simp [dottedPieces]
  | cons n names ih =>
    have hcons : dottedPieces (n :: names)
        = markPiece [] "." :: wordPiece [] n.text :: dottedPieces names := rfl
    simp [hcons, typeExtent, Piece.isMark, Piece.isAnyWord, ih, Function.comp_def, Nat.add_assoc]

/-- Behind the first type argument. -/
theorem typeExtent_angles (names : List Identifier) (ps : List Piece) :
    typeExtent (.angles 0)
        ((names.flatMap fun n => [markPiece [] ",", wordPiece gap n.text])
          ++ markPiece [] ">" :: ps)
      = (typeExtent .applied ps).map
          (· + ((names.flatMap fun n => [markPiece [] ",", wordPiece gap n.text]).length + 1)) := by
  induction names with
  | nil => simp [typeExtent, Piece.isMark]
  | cons n names ih =>
    simp only [List.flatMap_cons, List.cons_append, List.nil_append, List.length_cons, typeExtent,
      ih]
    simp [Piece.isMark, Piece.isAnyWord, angleMarks, Function.comp_def, Nat.add_assoc]

theorem typeExtent_argumentPieces (names : List Identifier) {ps : List Piece} (h : EndsType ps) :
    typeExtent .named (argumentPieces names ++ ps) = some (argumentPieces names).length := by
  cases names with
  | nil => exact h.1
  | cons n names =>
    simp only [argumentPieces, entryPieces, List.cons_append, List.nil_append, List.append_assoc,
      List.length_cons, List.length_append, typeExtent, typeExtent_angles, h.2]
    simp [Piece.isMark, Piece.isAnyWord]

/-- A row that begins with a name is read as a type in one way at most. -/
theorem typeExtents_name (lead : List Lexeme) (n : Identifier) (ps : List Piece) :
    typeExtents (wordPiece lead n.text :: ps) = ((typeExtent .named ps).map (· + 1)).toList := by
  have hnot : n.text ∉ typeStarts := n.not_mem_outlineWords (by simp [outlineWords])
  simp only [typeStarts, List.mem_cons, not_or] at hnot
  obtain ⟨href, hdelegate, hscoped, hbuiltin⟩ := hnot
  have hstart := typeExtent_start_name (p := wordPiece lead n.text) (by simp [Piece.isAnyWord])
    (by simp) (by simp [Piece.isWord, hdelegate]) (by simp [Piece.isWordOf, hbuiltin]) ps
  unfold typeExtents
  simp [Piece.isWord, href, hscoped, hstart]

theorem typeExtents_base (lead : List Lexeme) (b : SketchBase) {ps : List Piece}
    (h : EndsType ps) : typeExtents (b.pieces lead ++ ps) = [(b.pieces lead).length] := by
  have hextent : typeExtent .named (dottedPieces b.further ++ (argumentPieces b.arguments ++ ps))
      = some ((argumentPieces b.arguments).length + (dottedPieces b.further).length) := by
    rw [typeExtent_dottedPieces, typeExtent_argumentPieces _ h]
    rfl
  rw [SketchBase.pieces, List.cons_append, List.append_assoc, typeExtents_name, hextent]
  simp [Nat.add_comm]

/-- The parts of a base list, if there is one. -/
def basesParts (inRecord : Bool) : List SketchBase → List Part
  | [] => []
  | bases => [.bases inRecord (basesPieces bases).length]

theorem basesExtent_entryPieces (inside more : List Piece) :
    ∀ (bases : List SketchBase) (lead : List Lexeme) (n : Nat), bases ≠ [] → bases.length ≤ n →
      basesExtent n (entryPieces SketchBase.pieces lead bases ++ braces inside :: more)
        = some (entryPieces SketchBase.pieces lead bases).length
  | [b], lead, n + 1, _, _ => by
    have hb := typeExtents_base lead b (endsType_braces inside more)
    simp [entryPieces, basesExtent, hb, Piece.isMark]
  | b :: c :: bases, lead, n + 1, _, hn => by
    have hrest := basesExtent_entryPieces inside more (c :: bases) gap n (by simp)
      (by simpa using hn)
    have hb := typeExtents_base lead b
      (endsType_comma [] (entryPieces SketchBase.pieces gap (c :: bases) ++ braces inside :: more))
    have hsplit : entryPieces SketchBase.pieces lead (b :: c :: bases)
        = b.pieces lead ++ markPiece [] "," :: entryPieces SketchBase.pieces gap (c :: bases) := rfl
    rw [hsplit, List.append_assoc, List.cons_append, basesExtent, hb]
    simp only [List.head?_cons, Option.bind_eq_bind, Option.bind_some, List.drop_left]
    simp [Piece.isMark, hrest]
    omega

/-! ## Types -/

/-- What stands behind the name of a type.  A semicolon would belong to it if it followed the
braces at once. -/
theorem typeTail?_basesPieces (inRecord : Bool) (bases : List SketchBase) (inside : List Piece)
    {more : List Piece} (hmore : closingSemicolon more = []) (n : Nat) :
    typeTail? inRecord (n + 2) (basesPieces bases ++ braces inside :: more)
      = some (basesParts inRecord bases ++ [.tokens 0, .braces .members]) := by
  have hbraces : ∀ n, typeTail? inRecord (n + 1) (braces inside :: more)
      = some [.tokens 0, .braces .members] := fun n => by
    simp [typeTail?, Piece.isMark, constraintsExtent, Piece.isWord, hmore]
  cases bases with
  | nil => exact hbraces (n + 1)
  | cons b bases =>
    have hlength : (b :: bases).length
        ≤ (entryPieces SketchBase.pieces gap (b :: bases) ++ braces inside :: more).length := by
      rw [List.length_append]
      exact Nat.le_add_right_of_le
        (length_le_length_entryPieces (fun _ _ => List.cons_ne_nil _ _) gap _)
    have hextent := basesExtent_entryPieces inside more (b :: bases) gap _ (by simp) hlength
    have hpieces : basesPieces (b :: bases)
        = markPiece gap ":" :: entryPieces SketchBase.pieces gap (b :: bases) := rfl
    rw [hpieces, List.cons_append, typeTail?, if_neg (by decide), if_neg (by decide),
      if_pos (by decide), hextent]
    simp only [Option.bind_eq_bind, Option.bind_some, List.drop_left, hbraces]
    rfl

/-- The parts of a type. -/
def SketchHeader.parts (h : SketchHeader) : List Part :=
  .tokens 1 :: .name :: (basesParts (h.kind = .recordType) h.bases ++ [.tokens 0, .braces .members])

theorem typeLike?_header (h : SketchHeader) (lead : List Lexeme) (inside : List Piece)
    {more : List Piece} (hmore : closingSemicolon more = []) :
    typeLike? (h.pieces lead ++ braces inside :: more)
      = some ⟨.typeDeclaration h.kind, h.parts⟩ := by
  have hname : h.name.text ∉ typeWords := h.name.not_mem_outlineWords (by simp [outlineWords])
  have htail := typeTail?_basesPieces (h.kind = .recordType) h.bases inside hmore
  have hafter : typeAfter? h.kind 1 (h.pieces lead ++ braces inside :: more)
      = some ⟨.typeDeclaration h.kind, h.parts⟩ := by
    obtain ⟨n, hn⟩ : ∃ n, (basesPieces h.bases ++ braces inside :: more).length = n + 1 :=
      Nat.exists_eq_succ_of_ne_zero (by simp)
    simp [SketchHeader.pieces, typeAfter?, Piece.isAnyWord, hn, htail, SketchHeader.parts]
  have hkeyword : typeLike? (h.pieces lead ++ braces inside :: more)
      = typeAfter? h.kind 1 (h.pieces lead ++ braces inside :: more) := by
    cases hkind : h.kind with
    | recordType =>
      simp_all [typeLike?, SketchHeader.pieces, TypeKind.word, Piece.isWordOf, typeWords]
    | _ => simp [typeLike?, SketchHeader.pieces, hkind, TypeKind.word]
  rw [hkeyword, hafter]

/-! ## Constructors and methods -/

theorem typeLike?_name (lead : List Lexeme) (n : Identifier) (ps : List Piece) :
    typeLike? (wordPiece lead n.text :: ps) = none := by
  have hnot : n.text ∉ typeWords := n.not_mem_outlineWords (by simp [outlineWords])
  rw [typeLike?, word?_wordPiece]
  split <;> simp_all [typeWords]

/-- The parts of the body of a constructor. -/
def SketchBody.parts : SketchBody → List Part
  | block _ => [.braces .statements]
  | arrow _ => [.arrow 3, .tokens 1]
  | absent => [.tokens 1]

theorem functionBody?_body (b : SketchBody) (ps : List Piece) :
    functionBody? (b.pieces ++ ps) = some b.parts := by
  cases b with
  | block calls => simp [SketchBody.pieces, SketchBody.parts, functionBody?]
  | arrow n =>
    simp [SketchBody.pieces, SketchBody.parts, callPieces, functionBody?, arrowBody?, before?,
      Piece.isMark, List.findIdx?_cons]
  | absent => simp [SketchBody.pieces, SketchBody.parts, functionBody?, Piece.isMark]

theorem initializerExtent_body (b : SketchBody) (ps : List Piece) :
    initializerExtent (b.pieces ++ ps) = 0 := by
  unfold initializerExtent
  split
  · next c w a rest hps =>
    have hmark : c.isMark ":" = false := by
      cases b <;> simp_all [SketchBody.pieces] <;> simp [← hps.1, Piece.isMark]
    simp [hmark]
  · rfl

theorem member?_constructor (lead : List Lexeme) (n : Identifier) (inside : List Piece)
    (b : SketchBody) (ps : List Piece) :
    member? (wordPiece lead n.text :: parens inside :: (b.pieces ++ ps))
      = some ⟨.constructorDeclaration, .name :: .parameters :: b.parts⟩ := by
  have hbarred : n.text ∉ constructorBarred := n.not_mem_outlineWords (by simp [outlineWords])
  have hnot : n.text ∉ memberStarts := n.not_mem_outlineWords (by simp [outlineWords])
  simp only [memberStarts, List.mem_cons, List.not_mem_nil, or_false, not_or] at hnot
  obtain ⟨hevent, himplicit, hexplicit, hvar⟩ := hnot
  have hvariables : beginsVariables (wordPiece lead n.text :: parens inside :: (b.pieces ++ ps))
      = false := by
    unfold beginsVariables
    split
    · next p q r rest heq =>
      obtain ⟨rfl, -⟩ := List.cons.inj heq
      simp [Piece.isWord, hvar]
    · rfl
  have hconstructor : constructor? (wordPiece lead n.text :: parens inside :: (b.pieces ++ ps))
      = some ⟨.constructorDeclaration, .name :: .parameters :: b.parts⟩ := by
    simp [constructor?, Piece.isWordBut, hbarred, hvariables, initializerExtent_body,
      functionBody?_body, Part.runOf]
  simp [member?, Piece.isWord, Piece.isWordOf, Piece.isMark, hevent, himplicit, hexplicit,
    typeLike?_name, hconstructor]

/-- The pieces of a method behind its modifiers. -/
def methodPieces (lead : List Lexeme) (n : Identifier) : List Piece :=
  [wordPiece lead "void", wordPiece gap n.text, parens [], braces []]

/-- The parts of a method behind its modifiers. -/
def methodParts : List Part := [.tokens 1, .name, .parameters, .tokens 0, .braces .statements]

theorem typedMember?_method (lead : List Lexeme) (n : Identifier) (ps : List Piece) :
    typedMember? (methodPieces lead n ++ ps) = some ⟨.methodDeclaration, methodParts⟩ := by
  have hnot : n.text ∉ ["operator", "this"] := n.not_mem_outlineWords (by simp [outlineWords])
  simp only [List.mem_cons, List.not_mem_nil, or_false, not_or] at hnot
  obtain ⟨hoperator, hthis⟩ := hnot
  have htype : typeExtentsBut (memberWords ++ modifierWords) (methodPieces lead n ++ ps) = [1] := by
    have hextent : typeExtents (methodPieces lead n ++ ps) = [1] := by
      simp only [methodPieces, List.cons_append]
      unfold typeExtents
      simp [typeExtent, Piece.isWord, Piece.isWordOf, builtinTypes, Piece.isTypeSuffix,
        Piece.isMark]
    simp [typeExtentsBut, methodPieces, Piece.isWordOf, memberWords, modifierWords] at hextent ⊢
    exact hextent
  have hexplicit :
      explicitExtent 0 0 (wordPiece gap n.text :: parens [] :: braces [] :: ps) = 0 := by
    simp [explicitExtent, Piece.isMark, Piece.isAnyWord]
  have hmember : memberOfType? (methodPieces lead n ++ ps) 1
      = some ⟨.methodDeclaration, methodParts⟩ := by
    simp [memberOfType?, methodPieces, hexplicit, Piece.isWord, hoperator, hthis, Piece.isAnyWord,
      Piece.isMark, functionTail?, typeParametersExtent, constraintsExtent, functionBody?,
      Part.runOf, methodParts]
  rw [typedMember?, htype]
  simp [hmember]

theorem member?_method (lead : List Lexeme) (n : Identifier) (ps : List Piece) :
    member? (methodPieces lead n ++ ps) = some ⟨.methodDeclaration, methodParts⟩ := by
  have hlike : typeLike? (methodPieces lead n ++ ps) = none := rfl
  have hconstructor : constructor? (methodPieces lead n ++ ps) = none := by
    simp [methodPieces, constructor?]
  have htyped := typedMember?_method lead n ps
  simp only [methodPieces, List.cons_append, List.nil_append] at hlike hconstructor htyped ⊢
  simp [member?, Piece.isWord, Piece.isWordOf, Piece.isMark, hlike, hconstructor, htyped]

/-! ## Members -/

theorem directive?_wordPiece {w : String} (hw : w ∉ directiveStarts) (lead : List Lexeme)
    (ps : List Piece) : directive? (wordPiece lead w :: ps) = none := by
  simp only [directiveStarts, List.mem_cons, List.not_mem_nil, or_false, not_or] at hw
  cases ps with
  | nil => rfl
  | cons q ps => simp [directive?, Piece.isWord, hw]

theorem attributeCount_wordPiece (lead : List Lexeme) (w : String) (ps : List Piece) :
    attributeCount (wordPiece lead w :: ps) = 0 := by
  simp [attributeCount, isAttribute, isConditionalAttribute, fitsAttributes]

/-- What stands behind modifiers is read as it would be without them. -/
theorem behindModifiers_modifierPieces {α : Type} {read : List Piece → Option α} {a : α}
    (ms : List SketchModifier) {lead : List Lexeme} {w : String} {ps : List Piece}
    (hw : w ∉ modifierWords) (hread : read (wordPiece lead w :: ps) = some a) :
    behindModifiers read (modifierPieces ms ++ wordPiece lead w :: ps) = some (ms.length, a) := by
  have hmodifier : ∀ m ∈ sketchModifiers, m.keyword ∈ modifierWords := by
    simp [sketchModifiers, Modifier.keyword, modifierWords]
  induction ms with
  | nil => simp [modifierPieces, behindModifiers, Piece.isModifier, Piece.isWordOf, hw, hread]
  | cons m ms ih =>
    have hm : m.text ∈ modifierWords := hmodifier m.modifier m.mem
    have hcons : modifierPieces (m :: ms) = wordPiece gap m.text :: modifierPieces ms := rfl
    simp [hcons, behindModifiers, Piece.isModifier, Piece.isWordOf, hm, ih]

theorem decorated?_modifierPieces {read : List Piece → Option Outline} {o : Outline}
    (ms : List SketchModifier) {lead : List Lexeme} {w : String} {ps : List Piece}
    (hw : w ∉ modifierWords) (hread : read (wordPiece lead w :: ps) = some o) :
    decorated? read (modifierPieces ms ++ wordPiece lead w :: ps)
      = some { o with parts := List.replicate ms.length .modifier ++ o.parts } := by
  have hnone : attributeCount (modifierPieces ms ++ wordPiece lead w :: ps) = 0 := by
    cases ms <;> exact attributeCount_wordPiece _ _ _
  simp [decorated?, hnone, behindModifiers_modifierPieces ms hw hread]

/-- A member behind its modifiers, where no using directive and the like begins. -/
theorem outline_members {o : Outline} (ms : List SketchModifier) {lead : List Lexeme} {w : String}
    {ps : List Piece} (hw : w ∉ modifierWords ++ directiveStarts)
    (hread : member? (wordPiece lead w :: ps) = some o) :
    Region.outline .members (modifierPieces ms ++ wordPiece lead w :: ps)
      = { o with parts := List.replicate ms.length .modifier ++ o.parts } := by
  rw [List.mem_append, not_or] at hw
  have hmodifier : ∀ m ∈ sketchModifiers, m.keyword ∉ directiveStarts := by
    simp [sketchModifiers, Modifier.keyword, directiveStarts]
  have hdirective : directive? (modifierPieces ms ++ wordPiece lead w :: ps) = none := by
    cases ms with
    | nil => exact directive?_wordPiece hw.2 _ _
    | cons m ms => exact directive?_wordPiece (hmodifier m.modifier m.mem) _ _
  have hdeclaration : declaration? (modifierPieces ms ++ wordPiece lead w :: ps)
      = some { o with parts := List.replicate ms.length .modifier ++ o.parts } := by
    rw [declaration?, hdirective, decorated?_modifierPieces ms hw.1 hread]
    rfl
  have houtline : ∀ lead w ps, Region.outline .members (wordPiece lead w :: ps)
      = (declaration? (wordPiece lead w :: ps)).getD misplaced := fun lead w ps => by
    simp [Region.outline, isConditionalRow]
  have hrow : Region.outline .members (modifierPieces ms ++ wordPiece lead w :: ps)
      = (declaration? (modifierPieces ms ++ wordPiece lead w :: ps)).getD misplaced := by
    cases ms <;> exact houtline _ _ _
  rw [hrow, hdeclaration]
  rfl

/-- The parts of a constructor. -/
def SketchConstructor.parts (c : SketchConstructor) : List Part :=
  List.replicate c.modifiers.length .modifier ++ .name :: .parameters :: c.body.parts

/-- The parts of a method. -/
def SketchMethod.parts (m : SketchMethod) : List Part :=
  List.replicate m.modifiers.length .modifier ++ methodParts

theorem SketchConstructor.outline (c : SketchConstructor) (ps : List Piece) :
    Region.outline .members (c.pieces ++ ps) = ⟨.constructorDeclaration, c.parts⟩ := by
  have hmodifier : c.name.text ∉ "file" :: modifierWords :=
    c.name.not_mem_outlineWords (by simp [outlineWords])
  have hdirective : c.name.text ∉ directiveStarts :=
    c.name.not_mem_outlineWords (by simp [outlineWords])
  have hname : c.name.text ∉ modifierWords ++ directiveStarts := by
    simp only [List.mem_cons, not_or] at hmodifier
    simp only [List.mem_append, hmodifier.2, hdirective, or_self, not_false_eq_true]
  rw [pieces, List.append_assoc]
  exact outline_members c.modifiers hname (member?_constructor gap c.name _ c.body ps)

theorem SketchMethod.outline (m : SketchMethod) (ps : List Piece) :
    Region.outline .members (m.pieces ++ ps) = ⟨.methodDeclaration, m.parts⟩ := by
  have hvoid : "void" ∉ modifierWords ++ directiveStarts := by simp [modifierWords, directiveStarts]
  rw [pieces, List.append_assoc]
  exact outline_members m.modifiers hvoid (member?_method gap m.name ps)

theorem word_not_mem (k : TypeKind) : k.word ∉ modifierWords ++ directiveStarts := by
  cases k <;> simp [TypeKind.word, modifierWords, directiveStarts]

theorem SketchHeader.outline_members (h : SketchHeader) (inside : List Piece) {ps : List Piece}
    (hps : closingSemicolon ps = []) :
    Region.outline .members (h.pieces gap ++ braces inside :: ps)
      = ⟨.typeDeclaration h.kind, h.parts⟩ := by
  have hlike := typeLike?_header h gap inside hps
  have hmember : member? (h.pieces gap ++ braces inside :: ps)
      = some ⟨.typeDeclaration h.kind, h.parts⟩ := by
    have hword : h.kind.word ∉ ["event", "implicit", "explicit"] := by
      cases h.kind <;> decide
    simp only [List.mem_cons, List.not_mem_nil, or_false, not_or] at hword
    simp only [SketchHeader.pieces, List.cons_append] at hlike ⊢
    simp [member?, Piece.isWord, Piece.isWordOf, Piece.isMark, hword, hlike]
  exact Source.outline_members [] (word_not_mem h.kind) hmember

theorem SketchHeader.outline_topLevel (h : SketchHeader) (lead : List Lexeme) (inside : List Piece)
    {ps : List Piece} (hps : closingSemicolon ps = []) :
    Region.outline .topLevel (h.pieces lead ++ braces inside :: ps)
      = ⟨.typeDeclaration h.kind, h.parts⟩ := by
  obtain ⟨hmodifier, hstart⟩ := not_or.mp (mt List.mem_append.mpr (word_not_mem h.kind))
  have hdecorated : decorated? typeLike? (h.pieces lead ++ braces inside :: ps)
      = some ⟨.typeDeclaration h.kind, h.parts⟩ :=
    decorated?_modifierPieces [] hmodifier (typeLike?_header h lead inside hps)
  have hdirective : directive? (h.pieces lead ++ braces inside :: ps) = none :=
    directive?_wordPiece hstart _ _
  have houtline : ∀ w qs, directive? (wordPiece lead w :: qs) = none →
      ∀ o, decorated? typeLike? (wordPiece lead w :: qs) = some o →
        Region.outline .topLevel (wordPiece lead w :: qs) = o := by
    intro w qs hnone o hsome
    simp [Region.outline, isConditionalRow, isGlobalAttribute, hnone, hsome]
  exact houtline _ _ hdirective _ hdecorated

/-- What a member is and what its parts are. -/
def SketchMember.outline : SketchMember → Outline
  | constructor c => ⟨.constructorDeclaration, c.parts⟩
  | method m => ⟨.methodDeclaration, m.parts⟩
  | type h _ => ⟨.typeDeclaration h.kind, h.parts⟩

theorem SketchMember.outline_pieces (m : SketchMember) {ps : List Piece}
    (hps : closingSemicolon ps = []) : Region.outline .members (m.pieces ++ ps) = m.outline := by
  cases m with
  | constructor c => rw [pieces, c.outline, outline]
  | method m => rw [pieces, m.outline, outline]
  | type h ms =>
    rw [pieces, List.append_assoc, List.singleton_append, h.outline_members _ hps, outline]

theorem partsSize_modifiers (ms : List SketchModifier) :
    partsSize (List.replicate ms.length .modifier) = (modifierPieces ms).length := by
  induction ms with
  | nil => rfl
  | cons m ms ih =>
    have hcons : modifierPieces (m :: ms) = wordPiece gap m.text :: modifierPieces ms := rfl
    rw [List.length_cons, List.replicate_succ, partsSize_cons, ih, hcons, List.length_cons,
      Part.size, Nat.add_comm]

/-- The parts of a type take all of its pieces. -/
theorem SketchHeader.partsSize_parts (h : SketchHeader) (lead : List Lexeme) (inside : List Piece) :
    partsSize h.parts = (h.pieces lead ++ [braces inside]).length := by
  have hbases : ∀ inRecord,
      partsSize (basesParts inRecord h.bases) = (basesPieces h.bases).length := by
    cases h.bases <;> exact fun _ => rfl
  simp only [parts, pieces, partsSize_cons, partsSize_append, partsSize_nil, hbases, Part.size,
    List.length_append, List.length_cons, List.length_nil]
  omega

/-- The parts of a member take all of its pieces. -/
theorem SketchMember.partsSize_outline (m : SketchMember) :
    partsSize m.outline.parts = m.pieces.length := by
  cases m with
  | constructor c =>
    have hbody : partsSize c.body.parts = c.body.pieces.length := by
      cases c.body <;> rfl
    simp only [outline, SketchConstructor.parts, pieces, SketchConstructor.pieces, partsSize_append,
      partsSize_cons, partsSize_modifiers, hbody, Part.size, List.length_append, List.length_cons]
    omega
  | method m =>
    simp [outline, SketchMethod.parts, methodParts, pieces, SketchMethod.pieces,
      partsSize_modifiers, Part.size]
  | type h ms =>
    rw [outline, pieces]
    exact h.partsSize_parts gap _

/-- No member begins with a semicolon. -/
theorem SketchMember.closingSemicolon_piecesAll (ms : List SketchMember) :
    closingSemicolon (piecesAll ms) = [] := by
  have hword : ∀ w ps, closingSemicolon (wordPiece gap w :: ps) = [] := fun _ _ => rfl
  cases ms with
  | nil => rfl
  | cons m ms =>
    rw [piecesAll]
    cases m with
    | constructor c =>
      rw [pieces, SketchConstructor.pieces]
      cases c.modifiers <;> exact hword _ _
    | method m =>
      rw [pieces, SketchMethod.pieces]
      cases m.modifiers <;> exact hword _ _
    | type h ms => exact hword _ _

theorem closingSemicolon_sketches (ss : List Sketch) :
    closingSemicolon (ss.flatMap (Sketch.pieces gap)) = [] := by
  cases ss <;> rfl

/-! ## Calls -/

/-- A call is no function inside a function: no name stands behind its first word. -/
theorem localFunction?_callPieces (n : Identifier) (ps : List Piece) :
    localFunction? (callPieces n ++ ps) = none := by
  have hmodifier : n.text ∉ "file" :: modifierWords :=
    n.not_mem_outlineWords (by simp [outlineWords])
  have hstatement : n.text ∉ statementWords := n.not_mem_outlineWords (by simp [outlineWords])
  simp only [List.mem_cons, not_or] at hmodifier
  have hextents : typeExtents (callPieces n ++ ps) = [1] := by
    rw [callPieces, List.cons_append, typeExtents_name]
    simp [typeExtent, Piece.isMark, Piece.isTypeSuffix]
  simp only [callPieces, List.cons_append, List.nil_append] at hextents ⊢
  simp [localFunction?, attributeCount_wordPiece, behindModifiers, Piece.isModifier, Piece.isWordOf,
    Piece.isWord, hmodifier, typeExtentsBut, hstatement, hextents, functionOfType?,
    Piece.isWordBut]

theorem statement?_callPieces (n : Identifier) (ps : List Piece) (k : Nat) :
    statement? (k + 1) (callPieces n ++ ps) = some [.tokens 3] := by
  have hwords : n.text ∉ statementStarts := n.not_mem_outlineWords (by simp [outlineWords])
  have hheaded : n.text ∉ headedWords := n.not_mem_outlineWords (by simp [outlineWords])
  have hblock : n.text ∉ blockWords := n.not_mem_outlineWords (by simp [outlineWords])
  have hsemicolon : upToSemicolon? (callPieces n ++ ps) = some [.tokens 3] := by
    simp [upToSemicolon?, callPieces, before?, Piece.isMark, List.findIdx?_cons]
  have hlocal := localFunction?_callPieces n ps
  simp only [callPieces, List.cons_append, List.nil_append] at hsemicolon hlocal ⊢
  unfold statement?
  simp only [isGroup_wordPiece, isConditionalRow, word?_wordPiece, Bool.false_and,
    Bool.false_eq_true, if_false]
  split
  case h_7 w q more _ _ _ _ _ _ hw hrest =>
    obtain ⟨rfl, rfl⟩ := List.cons.inj hrest
    obtain rfl := Option.some.inj hw
    simp [hheaded, hblock, Piece.isMark, hlocal, hsemicolon]
  all_goals simp_all [statementStarts]

theorem outline_callPieces (n : Identifier) (ps : List Piece) :
    Region.outline .statements (callPieces n ++ ps) = ⟨.statement, [.tokens 3]⟩ := by
  have hstatement := statement?_callPieces n ps (callPieces n ++ ps).length
  have houtline : ∀ w qs, Region.outline .statements (wordPiece gap w :: qs)
      = statementOutline (wordPiece gap w :: qs) := fun w qs => by
    simp [Region.outline, isConditionalRow]
  rw [callPieces, List.cons_append, houtline, statementOutline]
  rw [callPieces, List.cons_append] at hstatement
  rw [hstatement]

end Source
end AggregateAudit
