import AggregateAudit.Proofs.Acceptance
import AggregateAudit.Proofs.SketchOutline
import AggregateAudit.Proofs.Spacing

/-!
# Syntax trees of sketches

The tree that the text of a row of types is parsed to, as a function of the types
(`forestNodes`); `parse_renderAll` is the statement that it is this tree.

A tree is found from the outside in.  For every part of a declaration there is a lemma about
the trees of that part, given any reader `inner` of the regions one level further in
(`partNodes_parameters`, `partsNodes_basesParts`, `partsNodes_body`), and the trees of a whole
constructor, method or type are put together from them (`outlineNodes_constructor`,
`outlineNodes_method`, `outlineNodes_header`).  A row is cut where its items end, because the
outline of an item does not depend on the items behind it (`rowNodes_flatMap`).

The recursion of the parser is counted, so it remains to be seen that it does not stop too
early: every level of nesting has lexemes of its own (`SketchMember.outlineNodes_pieces`).
-/

namespace AggregateAudit
namespace Source

/-! ## Rows -/

section Rows

variable {inner : Region → List Piece → List Node} {r : Region}

/-- A row falls apart behind its first declaration or statement. -/
theorem rowNodes_append {item rest : List Piece} {o : Outline} (hitem : item ≠ [])
    (houtline : r.outline (item ++ rest) = o) (hsize : partsSize o.parts = item.length) (n : Nat) :
    rowNodes inner r (n + 1) (item ++ rest)
      = outlineNodes inner r o item ++ rowNodes inner r n rest := by
  obtain ⟨p, ps, rfl⟩ := List.exists_cons_of_ne_nil hitem
  rw [List.cons_append, rowNodes, ← List.cons_append, houtline, hsize]
  simp

/-- The trees of a row of items are the trees of the items, if the outline of an item does not
depend on the items behind it. -/
theorem rowNodes_flatMap {α : Type} {f : α → List Piece} {o : α → Outline} {nodes : α → List Node}
    (hf : ∀ a, f a ≠ [])
    (houtline : ∀ (a : α) (as : List α), r.outline (f a ++ as.flatMap f) = o a)
    (hsize : ∀ a, partsSize (o a).parts = (f a).length) {as : List α}
    (hnodes : ∀ a ∈ as, outlineNodes inner r (o a) (f a) = nodes a) {n : Nat} (hn : as.length ≤ n) :
    rowNodes inner r n (as.flatMap f) = as.flatMap nodes := by
  induction as generalizing n with
  | nil => cases n <;> rfl
  | cons a as ih =>
    obtain ⟨hfirst, hrest⟩ := List.forall_mem_cons.mp hnodes
    obtain ⟨n, rfl⟩ := Nat.exists_eq_succ_of_ne_zero (Nat.ne_of_gt (Nat.zero_lt_of_lt hn))
    rw [List.flatMap_cons, rowNodes_append (hf a) (houtline a as) (hsize a), hfirst,
      ih hrest (Nat.le_of_succ_le_succ hn), List.flatMap_cons]

end Rows

/-! ## Lists with commas -/

/-- Whether an entry of a list ends in front of a row. -/
def EndsEntry (ps : List Piece) : Prop := ps = [] ∨ ∃ qs, ps = markPiece [] "," :: qs

/-- The trees of entries with commas between them. -/
def entryNodes {α : Type} (node : List Lexeme → α → List Node) (lead : List Lexeme) :
    List α → List Node
  | [] => []
  | a :: as => node lead a ++ as.flatMap fun b => .leaf .token "," :: node gap b

theorem entries_entryPieces {α : Type} {entry : List Lexeme → α → List Piece}
    {node : List Lexeme → α → List Node} {build : List Piece → List Node}
    (hentry : ∀ lead a, entry lead a ≠ [])
    (hextent : ∀ lead a rest, EndsEntry rest →
      entryExtent 0 false 0 (entry lead a ++ rest) = (entry lead a).length)
    (hbuild : ∀ lead a, build (entry lead a) = node lead a) :
    ∀ (as : List α) (lead : List Lexeme) (n : Nat), as.length ≤ n →
      entries build n (entryPieces entry lead as) = entryNodes node lead as
  | [], _, n, _ => by cases n <;> rfl
  | [a], lead, n + 1, _ => by
    obtain ⟨p, ps, hp⟩ := List.exists_cons_of_ne_nil (hentry lead a)
    have hlength := hextent lead a [] (.inl rfl)
    have hnode := hbuild lead a
    rw [hp] at hlength hnode
    rw [List.append_nil, List.length_cons] at hlength
    have hrow : entryPieces entry lead [a] = p :: ps := by simp [entryPieces, hp]
    rw [hrow, entries, hlength]
    cases n <;> simp [entryNodes, hnode, entries, Piece.leavesAll]
  | a :: b :: as, lead, n + 1, hn => by
    obtain ⟨p, ps, hp⟩ := List.exists_cons_of_ne_nil (hentry lead a)
    have hrest := entries_entryPieces hentry hextent hbuild (b :: as) gap n (by simpa using hn)
    have hlength := hextent lead a (markPiece [] "," :: entryPieces entry gap (b :: as))
      (.inr ⟨_, rfl⟩)
    have hnode := hbuild lead a
    have hrow : entryPieces entry lead (a :: b :: as)
        = entry lead a ++ markPiece [] "," :: entryPieces entry gap (b :: as) := rfl
    rw [hrow]
    rw [hp] at hlength hnode ⊢
    rw [List.cons_append, List.length_cons] at hlength
    rw [List.cons_append, entries, hlength]
    have hcomma : Piece.leavesAll [markPiece [] ","] = [.leaf .token ","] := rfl
    simp [hnode, hrest, hcomma, entryNodes]

/-! ## Calls -/

/-- The tree of a call, with the space in front of it. -/
def callNodes (n : Identifier) : List Node :=
  [.leaf .blank " ", .branch .statement
    [.leaf .token n.text, .leaf .token "(", .leaf .token ")", .leaf .token ";"]]

section Inner

variable {inner : Region → List Piece → List Node}

/-- A piece that an expression, a type or a list takes as it is. -/
inductive Piece.IsFlat : Piece → Prop
  | word (lead : List Lexeme) (w : String) : IsFlat (wordPiece lead w)
  | mark (lead : List Lexeme) (m : String) : IsFlat (markPiece lead m)
  | parens : IsFlat (parens [])

theorem expressionNodes_eq_leavesAll (hinner : inner .expression [] = []) {ps : List Piece}
    (hps : ∀ p ∈ ps, p.IsFlat) (cue : BlockCue) :
    expressionNodes inner cue ps = Piece.leavesAll ps := by
  induction ps generalizing cue with
  | nil => rfl
  | cons p ps ih =>
    obtain ⟨hp, hrest⟩ := List.forall_mem_cons.mp hps
    have hleaves : Piece.leavesAll (p :: ps) = p.leaves ++ Piece.leavesAll ps := by
      simp [Piece.leavesAll, Piece.leaves, Piece.lexemesAll]
    rw [hleaves]
    cases hp with
    | word lead w => rw [wordPiece, expressionNodes, ih hrest]
    | mark lead m => rw [markPiece, expressionNodes, ih hrest]
    | parens =>
      simp [parens, expressionNodes, hinner, ih hrest, Piece.leaves, Piece.lexemes,
        Piece.lexemesAll]

theorem outlineNodes_callPieces (hinner : inner .expression [] = []) (n : Identifier) :
    outlineNodes inner .statements ⟨.statement, [.tokens 3]⟩ (callPieces n) = callNodes n := by
  have hflat : expressionNodes inner .none [wordPiece [] n.text, parens [], markPiece [] ";"]
      = Piece.leavesAll [wordPiece [] n.text, parens [], markPiece [] ";"] :=
    expressionNodes_eq_leavesAll hinner (by simpa using ⟨.word _ _, .parens, .mark _ _⟩) .none
  have hnodes : outlineNodes inner .statements ⟨.statement, [.tokens 3]⟩ (callPieces n)
      = [.leaf .blank " ", .branch .statement (expressionNodes inner .none
          [wordPiece [] n.text, parens [], markPiece [] ";"] ++ [])] := rfl
  rw [hnodes, hflat]
  rfl

/-! ## Parameters -/

/-- The tree of a parameter. -/
def parameterNode (lead : List Lexeme) (n : Identifier) : List Node :=
  lead.map leafOf
    ++ [.branch .parameter [.leaf .token "int", .leaf .blank " ", .leaf .token n.text]]

/-- The tree of the parameters of a constructor or a method. -/
def parameterListNode (names : List Identifier) : Node :=
  .branch .parameterList
    (.leaf .token "(" :: (entryNodes parameterNode [] names ++ [.leaf .token ")"]))

theorem entryExtent_of_endsEntry {ps : List Piece} (h : EndsEntry ps) :
    entryExtent 0 false 0 ps = 0 := by
  rcases h with rfl | ⟨qs, rfl⟩
  · rfl
  · simp [entryExtent, Piece.isMark]

theorem partNodes_parameters (hinner : inner .expression [] = []) (r : Region)
    (names : List Identifier) :
    partNodes inner r .parameters [parens (parameterPieces names)] = [parameterListNode names] := by
  have hentries : entries (parameterNodes (expressionNodes inner .none))
        (parameterPieces names).length (parameterPieces names)
      = entryNodes parameterNode [] names := by
    refine entries_entryPieces (by simp) (fun lead n rest hrest => ?_) (fun lead n => ?_) names [] _
      ?_
    · simp [entryExtent, Piece.isMark, entryExtent_of_endsEntry hrest]
    · have hflat : expressionNodes inner .none [wordPiece [] "int", wordPiece gap n.text]
          = Piece.leavesAll [wordPiece [] "int", wordPiece gap n.text] :=
        expressionNodes_eq_leavesAll hinner (by simpa using ⟨.word _ _, .word _ _⟩) .none
      have hnodes : parameterNodes (expressionNodes inner .none)
            [wordPiece lead "int", wordPiece gap n.text]
          = lead.map leafOf ++ [.branch .parameter (expressionNodes inner .none
              [wordPiece [] "int", wordPiece gap n.text])] := by
        simp [parameterNodes, isAttribute, fitsAttributes, Piece.isWord]
        rfl
      rw [hnodes, hflat]
      rfl
    · exact length_le_length_entryPieces (by simp) [] names
  have hnodes : partNodes inner r .parameters [parens (parameterPieces names)]
      = [.branch .parameterList (.leaf .token "(" ::
          (entries (parameterNodes (expressionNodes inner .none)) (parameterPieces names).length
            (parameterPieces names) ++ [] ++ [.leaf .token ")"]))] := rfl
  rw [hnodes, hentries, List.append_nil]
  rfl

/-! ## Base types -/

/-- The tree of an entry of a base list. -/
def SketchBase.node (lead : List Lexeme) (b : SketchBase) : List Node :=
  lead.map leafOf ++ [.branch .baseType (Piece.leavesAll (b.pieces []))]

/-- The tree of a base list, if there is one. -/
def basesNodes : List SketchBase → List Node
  | [] => []
  | bases =>
    [.leaf .blank " ",
      .branch .baseList (.leaf .token ":" :: entryNodes SketchBase.node gap bases)]

theorem entryExtent_dottedPieces (names : List Identifier) (ps : List Piece) :
    entryExtent 0 false 0 (dottedPieces names ++ ps)
      = (dottedPieces names).length + entryExtent 0 false 0 ps := by
  induction names with
  | nil => simp [dottedPieces]
  | cons n names ih =>
    have hcons : dottedPieces (n :: names)
        = markPiece [] "." :: wordPiece [] n.text :: dottedPieces names := rfl
    simp [hcons, entryExtent, Piece.isMark, ih]
    omega

/-- Between angle brackets a comma separates no entries. -/
theorem entryExtent_angles (names : List Identifier) (ps : List Piece) :
    entryExtent 1 false 0
        ((names.flatMap fun n => [markPiece [] ",", wordPiece gap n.text])
          ++ markPiece [] ">" :: ps)
      = (names.flatMap fun n => [markPiece [] ",", wordPiece gap n.text]).length + 1
          + entryExtent 0 false 0 ps := by
  induction names with
  | nil => simp [entryExtent, Piece.isMark]
  | cons n names ih =>
    simp only [List.flatMap_cons, List.cons_append, List.nil_append, List.length_cons, entryExtent,
      ih]
    simp [Piece.isMark]
    omega

theorem entryExtent_argumentPieces (names : List Identifier) (ps : List Piece) :
    entryExtent 0 false 0 (argumentPieces names ++ ps)
      = (argumentPieces names).length + entryExtent 0 false 0 ps := by
  cases names with
  | nil => simp [argumentPieces]
  | cons n names =>
    simp only [argumentPieces, entryPieces, List.cons_append, List.nil_append, List.append_assoc,
      List.length_cons, List.length_append, entryExtent, Nat.zero_add, entryExtent_angles]
    simp [Piece.isMark]
    omega

theorem entryExtent_base (lead : List Lexeme) (b : SketchBase) {ps : List Piece}
    (h : EndsEntry ps) :
    entryExtent 0 false 0 (b.pieces lead ++ ps) = (b.pieces lead).length := by
  simp only [SketchBase.pieces, List.cons_append, List.append_assoc, entryExtent,
    entryExtent_dottedPieces, entryExtent_argumentPieces, entryExtent_of_endsEntry h]
  simp [Piece.isMark]
  omega

theorem isFlat_base (lead : List Lexeme) (b : SketchBase) : ∀ p ∈ b.pieces lead, p.IsFlat := by
  have hpair : ∀ m lead (n : Identifier), ∀ p ∈ [markPiece [] m, wordPiece lead n.text], p.IsFlat :=
    fun m lead n => by simpa using ⟨.mark _ _, .word _ _⟩
  have hdotted : ∀ p ∈ dottedPieces b.further, p.IsFlat :=
    List.forall_mem_flatMap.mpr fun n _ => hpair _ _ n
  have harguments : ∀ p ∈ argumentPieces b.arguments, p.IsFlat := by
    cases b.arguments with
    | nil => exact List.forall_mem_nil _
    | cons n names =>
      have hfurther : ∀ p ∈ names.flatMap fun n => [markPiece [] ",", wordPiece gap n.text],
          p.IsFlat := List.forall_mem_flatMap.mpr fun n _ => hpair _ _ n
      simp only [argumentPieces, entryPieces, List.forall_mem_append, List.forall_mem_cons]
      exact ⟨⟨.mark _ _, ⟨.word _ _, List.forall_mem_nil _⟩, hfurther⟩, .mark _ _,
        List.forall_mem_nil _⟩
  rw [SketchBase.pieces, List.forall_mem_cons, List.forall_mem_append]
  exact ⟨.word _ _, hdotted, harguments⟩

theorem baseNodes_base (hinner : inner .expression [] = []) (inRecord : Bool) (lead : List Lexeme)
    (b : SketchBase) :
    baseNodes (expressionNodes inner .none) inRecord (b.pieces lead) = b.node lead := by
  have hends : EndsType [] := ⟨rfl, rfl⟩
  have hextents : typeExtents (b.pieces lead) = [(b.pieces lead).length] := by
    simpa using typeExtents_base lead b hends
  have hsplit : (if inRecord then (b.pieces lead).length
      else (typeExtents (b.pieces lead)).headD (b.pieces lead).length)
        = (b.pieces lead).length := by
    rw [hextents]
    cases inRecord <;> rfl
  have hflat := expressionNodes_eq_leavesAll hinner (isFlat_base [] b) .none
  have hwrap : wrap .baseType (expressionNodes inner .none) (b.pieces lead)
      = lead.map leafOf ++ [.branch .baseType (expressionNodes inner .none (b.pieces []))] := rfl
  rw [baseNodes, hsplit, List.take_length, List.drop_length, hwrap, hflat]
  exact List.append_nil _

theorem partsNodes_basesParts (hinner : inner .expression [] = []) (r : Region) (inRecord : Bool)
    (bases : List SketchBase) (parts : List Part) (ps : List Piece) :
    partsNodes inner r (basesParts inRecord bases ++ parts) (basesPieces bases ++ ps)
      = basesNodes bases ++ partsNodes inner r parts ps := by
  cases bases with
  | nil => rfl
  | cons b bases =>
    have hlength : (b :: bases).length ≤ (basesPieces (b :: bases)).length :=
      Nat.le_succ_of_le (length_le_length_entryPieces (fun _ _ => List.cons_ne_nil _ _) gap _)
    have hentries : entries (baseNodes (expressionNodes inner .none) inRecord)
        (basesPieces (b :: bases)).length (entryPieces SketchBase.pieces gap (b :: bases))
          = entryNodes SketchBase.node gap (b :: bases) :=
      entries_entryPieces (fun _ _ => List.cons_ne_nil _ _)
        (fun lead b _ h => entryExtent_base lead b h) (baseNodes_base hinner inRecord) _ gap _
        hlength
    have hnodes : partNodes inner r (.bases inRecord (basesPieces (b :: bases)).length)
          (basesPieces (b :: bases))
        = [.leaf .blank " ", .branch .baseList (.leaf .token ":" ::
            entries (baseNodes (expressionNodes inner .none) inRecord)
              (basesPieces (b :: bases)).length
              (entryPieces SketchBase.pieces gap (b :: bases)))] := rfl
    have hparts : basesParts inRecord (b :: bases)
        = [.bases inRecord (basesPieces (b :: bases)).length] := rfl
    rw [hparts, List.singleton_append, partsNodes, Part.size, List.take_left, List.drop_left,
      hnodes, hentries]
    rfl

/-! ## Bodies -/

/-- How regions inside a member have to be read for its tree to be the one of its sketch. -/
structure ReadsCalls (inner : Region → List Piece → List Node) : Prop where
  expression : inner .expression [] = []
  statements : ∀ ns : List Identifier,
    inner .statements (ns.flatMap callPieces) = ns.flatMap callNodes

/-- A block, with the space in front of it. -/
def blockNodes (inside : List Node) : List Node :=
  [.leaf .blank " ", .branch .block
    (.leaf .token "\x7b" :: (inside ++ [.leaf .blank " ", .leaf .token "\x7d"]))]

/-- The trees of the body of a constructor. -/
def SketchBody.nodes : SketchBody → List Node
  | block calls => blockNodes (calls.flatMap callNodes)
  | arrow n =>
    [.leaf .blank " ", .branch .arrow [.leaf .token "=>", .leaf .blank " ", .leaf .token n.text,
      .leaf .token "(", .leaf .token ")"], .leaf .token ";"]
  | absent => [.leaf .token ";"]

theorem partNodes_block (r : Region) (inside : List Piece) :
    partNodes inner r (.braces .statements) [braces inside]
      = blockNodes (inner .statements inside) := by
  have hnodes : partNodes inner r (.braces .statements) [braces inside]
      = [.leaf .blank " ", .branch .block (.leaf .token "\x7b" :: (inner .statements inside
          ++ [.leaf .blank " "] ++ [.leaf .token "\x7d"]))] := rfl
  rw [hnodes, List.append_assoc]
  rfl

theorem partsNodes_body (hinner : ReadsCalls inner) (r : Region) (b : SketchBody) :
    partsNodes inner r b.parts b.pieces = b.nodes := by
  cases b with
  | block calls =>
    have hnodes : partsNodes inner r [.braces .statements] [braces (calls.flatMap callPieces)]
        = partNodes inner r (.braces .statements) [braces (calls.flatMap callPieces)] ++ [] := rfl
    rw [SketchBody.parts, SketchBody.pieces, hnodes, partNodes_block, hinner.statements,
      List.append_nil]
    rfl
  | arrow n =>
    have hflat : expressionNodes inner .none [markPiece [] "=>", wordPiece gap n.text, parens []]
        = Piece.leavesAll [markPiece [] "=>", wordPiece gap n.text, parens []] :=
      expressionNodes_eq_leavesAll hinner.expression
        (by simpa using ⟨.mark _ _, .word _ _, .parens⟩) .none
    have hnodes : partsNodes inner r [.arrow 3, .tokens 1] (markPiece gap "=>" :: callPieces n)
        = [.leaf .blank " ", .branch .arrow (expressionNodes inner .none
            [markPiece [] "=>", wordPiece gap n.text, parens []]), .leaf .token ";"] := rfl
    rw [SketchBody.parts, SketchBody.pieces, hnodes, hflat]
    rfl
  | absent => rfl

/-! ## Members -/

/-- Modifiers, each behind a space. -/
def modifierNodes (ms : List SketchModifier) : List Node :=
  ms.flatMap fun m => [.leaf .blank " ", .leaf .modifier m.text]

theorem partsNodes_modifierPieces (r : Region) (ms : List SketchModifier) (parts : List Part)
    (ps : List Piece) :
    partsNodes inner r (List.replicate ms.length .modifier ++ parts) (modifierPieces ms ++ ps)
      = modifierNodes ms ++ partsNodes inner r parts ps := by
  induction ms with
  | nil => rfl
  | cons m ms ih =>
    have hstep : partsNodes inner r (List.replicate (m :: ms).length .modifier ++ parts)
          (modifierPieces (m :: ms) ++ ps)
        = [.leaf .blank " ", .leaf .modifier m.text] ++ partsNodes inner r
            (List.replicate ms.length .modifier ++ parts) (modifierPieces ms ++ ps) := rfl
    rw [hstep, ih]
    rfl

/-- A branch around a member.  The space in front of the member stays outside, be it in front
of a modifier or of what stands behind the modifiers. -/
theorem wrap_modifierPieces (k : BranchKind) (r : Region) (ms : List SketchModifier)
    {parts : List Part} {w : String} {ps : List Piece} {nodes : List Node}
    (hnodes : ∀ lead,
      partsNodes inner r parts (wordPiece lead w :: ps) = lead.map leafOf ++ nodes) :
    wrap k (partsNodes inner r (List.replicate ms.length .modifier ++ parts))
        (modifierPieces ms ++ wordPiece gap w :: ps)
      = [.leaf .blank " ",
          .branch k (modifierNodes ms ++ .leaf .blank " " :: nodes).tail] := by
  cases ms with
  | nil =>
    have hwrap : wrap k (partsNodes inner r parts) (wordPiece gap w :: ps)
        = [.leaf .blank " ", .branch k (partsNodes inner r parts (wordPiece [] w :: ps))] := rfl
    exact hwrap.trans (by rw [hnodes]; rfl)
  | cons m ms =>
    have hwrap : wrap k (partsNodes inner r (List.replicate (m :: ms).length .modifier ++ parts))
          (modifierPieces (m :: ms) ++ wordPiece gap w :: ps)
        = [.leaf .blank " ", .branch k (.leaf .modifier m.text :: partsNodes inner r
            (List.replicate ms.length .modifier ++ parts)
            (modifierPieces ms ++ wordPiece gap w :: ps))] := rfl
    rw [hwrap, partsNodes_modifierPieces, hnodes]
    rfl

/-- What stands in the tree of a constructor, with the space in front of it. -/
def SketchConstructor.content (c : SketchConstructor) : List Node :=
  modifierNodes c.modifiers ++ .leaf .blank " " :: .leaf .name c.name.text
    :: parameterListNode c.parameterNames :: c.body.nodes

/-- What stands in the tree of a method, with the space in front of it. -/
def SketchMethod.content (m : SketchMethod) : List Node :=
  modifierNodes m.modifiers ++ .leaf .blank " " :: .leaf .token "void" :: .leaf .blank " "
    :: .leaf .name m.name.text :: parameterListNode [] :: blockNodes []

theorem outlineNodes_constructor (hinner : ReadsCalls inner) (c : SketchConstructor) :
    outlineNodes inner .members ⟨.constructorDeclaration, c.parts⟩ c.pieces
      = [.leaf .blank " ", .branch .constructorDeclaration c.content.tail] := by
  refine wrap_modifierPieces .constructorDeclaration .members c.modifiers fun lead => ?_
  have hnodes : partsNodes inner .members (.name :: .parameters :: c.body.parts)
        (wordPiece lead c.name.text :: parens (parameterPieces c.parameterNames) :: c.body.pieces)
      = lead.map leafOf ++ [.leaf .name c.name.text] ++ [] ++
          (partNodes inner .members .parameters [parens (parameterPieces c.parameterNames)]
            ++ partsNodes inner .members c.body.parts c.body.pieces) := rfl
  rw [hnodes, partNodes_parameters hinner.expression, partsNodes_body hinner]
  simp

theorem outlineNodes_method (hinner : ReadsCalls inner) (m : SketchMethod) :
    outlineNodes inner .members ⟨.methodDeclaration, m.parts⟩ m.pieces
      = [.leaf .blank " ", .branch .methodDeclaration m.content.tail] := by
  refine wrap_modifierPieces .methodDeclaration .members m.modifiers fun lead => ?_
  have hparameters : partNodes inner .members .parameters [parens []] = [parameterListNode []] :=
    partNodes_parameters hinner.expression .members []
  have hblock : partNodes inner .members (.braces .statements) [braces []] = blockNodes [] := by
    rw [partNodes_block]
    exact congrArg blockNodes (hinner.statements [])
  have hvoid : (wordPiece lead "void").leaves = lead.map leafOf ++ [.leaf .token "void"] := by
    simp [wordPiece, Piece.leaves, Piece.lexemes, leafOf]
  have hnodes : partsNodes inner .members methodParts
        [wordPiece lead "void", wordPiece gap m.name.text, parens [], braces []]
      = ((wordPiece lead "void").leaves ++ []) ++ ([.leaf .blank " ", .leaf .name m.name.text] ++
          (partNodes inner .members .parameters [parens []] ++ ([] ++
            (partNodes inner .members (.braces .statements) [braces []] ++ [])))) := rfl
  rw [hnodes, hparameters, hblock, hvoid]
  simp

/-- What stands in the tree of a type, given the trees of its members. -/
def SketchHeader.content (h : SketchHeader) (inside : List Node) : List Node :=
  .leaf .token h.kind.word :: .leaf .blank " " :: .leaf .name h.name.text :: (basesNodes h.bases
    ++ [.leaf .blank " ", .branch .declarationList
          (.leaf .token "\x7b" :: (inside ++ [.leaf .blank " ", .leaf .token "\x7d"]))])

/-- The tree of a type behind `lead`, given the trees of its members. -/
def SketchHeader.nodes (h : SketchHeader) (lead : List Lexeme) (inside : List Node) : List Node :=
  lead.map leafOf ++ [.branch (.typeDeclaration h.kind) (h.content inside)]

theorem outlineNodes_header (hinner : inner .expression [] = []) (r : Region) (h : SketchHeader)
    (lead : List Lexeme) (inside : List Piece) :
    outlineNodes inner r ⟨.typeDeclaration h.kind, h.parts⟩ (h.pieces lead ++ [braces inside])
      = h.nodes lead (inner .members inside) := by
  have hmembers : partsNodes inner r [.tokens 0, .braces .members] [braces inside]
      = [.leaf .blank " ", .branch .declarationList (.leaf .token "\x7b" ::
          (inner .members inside ++ [.leaf .blank " "] ++ [.leaf .token "\x7d"]))] := rfl
  have hnodes : outlineNodes inner r ⟨.typeDeclaration h.kind, h.parts⟩
        (h.pieces lead ++ [braces inside])
      = lead.map leafOf ++ [.branch (.typeDeclaration h.kind) (.leaf .token h.kind.word
          :: .leaf .blank " " :: .leaf .name h.name.text :: partsNodes inner r
            (basesParts (h.kind = .recordType) h.bases ++ [.tokens 0, .braces .members])
            (basesPieces h.bases ++ [braces inside]))] := rfl
  rw [hnodes, partsNodes_basesParts hinner, hmembers, List.append_assoc]
  rfl

end Inner

/-! ## Trees of members and types -/

mutual

/-- The trees of a member, the space in front of it included. -/
def SketchMember.nodes : SketchMember → List Node
  | constructor c => [.leaf .blank " ", .branch .constructorDeclaration c.content.tail]
  | method m => [.leaf .blank " ", .branch .methodDeclaration m.content.tail]
  | type h ms => h.nodes gap (nodesAll ms)

def SketchMember.nodesAll : List SketchMember → List Node
  | [] => []
  | m :: ms => m.nodes ++ nodesAll ms

end

/-- The trees of a type behind `lead`. -/
def Sketch.nodes (lead : List Lexeme) (s : Sketch) : List Node :=
  s.header.nodes lead (SketchMember.nodesAll s.members)

/-- The trees of a row of types. -/
def forestNodes : List Sketch → List Node
  | [] => []
  | s :: ss => s.nodes [] ++ ss.flatMap (Sketch.nodes gap)

theorem SketchMember.piecesAll_eq_flatMap (ms : List SketchMember) :
    piecesAll ms = ms.flatMap pieces := by
  induction ms with
  | nil => rfl
  | cons m ms ih => rw [piecesAll, ih, List.flatMap_cons]

theorem SketchMember.nodesAll_eq_flatMap (ms : List SketchMember) :
    nodesAll ms = ms.flatMap nodes := by
  induction ms with
  | nil => rfl
  | cons m ms ih => rw [nodesAll, ih, List.flatMap_cons]

theorem regionNodes_nil (d : Nat) (r : Region) : regionNodes d r [] = [] := by
  cases d with
  | zero => rfl
  | succ d => cases r <;> rfl

theorem readsCalls_regionNodes (d : Nat) : ReadsCalls (regionNodes (d + 1)) where
  expression := regionNodes_nil _ _
  statements ns := by
    have hcall : ∀ n, callPieces n ≠ [] := fun n => List.cons_ne_nil _ _
    exact rowNodes_flatMap hcall (fun n ns => outline_callPieces n _) (fun _ => rfl)
      (fun n _ => outlineNodes_callPieces (regionNodes_nil _ _) n)
      (length_le_length_flatMap hcall ns)

theorem SketchMember.pieces_ne_nil (m : SketchMember) : m.pieces ≠ [] := by
  cases m with
  | constructor c => exact List.append_ne_nil_of_right_ne_nil _ (List.cons_ne_nil _ _)
  | method m => exact List.append_ne_nil_of_right_ne_nil _ (List.cons_ne_nil _ _)
  | type h ms => exact List.cons_ne_nil _ _

/-- The trees of a row of members, if those of the members are as they should be. -/
theorem SketchMember.rowNodes_piecesAll {inner : Region → List Piece → List Node}
    {ms : List SketchMember}
    (h : ∀ m ∈ ms, outlineNodes inner .members m.outline m.pieces = m.nodes) :
    rowNodes inner .members (piecesAll ms).length (piecesAll ms) = nodesAll ms := by
  have houtline : ∀ (m : SketchMember) (ms : List SketchMember),
      Region.outline .members (m.pieces ++ ms.flatMap pieces) = m.outline := fun m ms =>
    m.outline_pieces (piecesAll_eq_flatMap ms ▸ closingSemicolon_piecesAll ms)
  rw [piecesAll_eq_flatMap, nodesAll_eq_flatMap]
  exact rowNodes_flatMap pieces_ne_nil houtline partsSize_outline h
    (length_le_length_flatMap pieces_ne_nil ms)

/-! ## Enough levels

A level of the tree is built from the one below it, and there are as many levels as lexemes.  A
member has at least two of them, and the members inside a type have fewer than the type. -/

theorem SketchMember.two_le_length (m : SketchMember) :
    2 ≤ (Piece.lexemesAll m.pieces).length := by
  cases m with
  | constructor c =>
    simp only [pieces, SketchConstructor.pieces, Piece.lexemesAll_append,
      Piece.lexemesAll_wordPiece, gap, List.length_append, List.length_cons]
    omega
  | method m =>
    simp only [pieces, SketchMethod.pieces, Piece.lexemesAll_append, Piece.lexemesAll_wordPiece,
      gap, List.length_append, List.length_cons]
    omega
  | type h ms =>
    simp only [pieces, SketchHeader.pieces, List.cons_append, Piece.lexemesAll_wordPiece, gap,
      List.length_append, List.length_cons]
    omega

theorem length_lexemesAll_of_mem {α : Type} (f : α → List Piece) {a : α} {as : List α}
    (ha : a ∈ as) :
    (Piece.lexemesAll (f a)).length ≤ (Piece.lexemesAll (as.flatMap f)).length := by
  obtain ⟨front, back, rfl⟩ := List.append_of_mem ha
  simp only [List.flatMap_append, List.flatMap_cons, Piece.lexemesAll_append, List.length_append]
  omega

theorem length_lexemesAll_inside (h : SketchHeader) (lead : List Lexeme) (inside : List Piece) :
    (Piece.lexemesAll inside).length
      < (Piece.lexemesAll (h.pieces lead ++ [braces inside])).length := by
  simp only [Piece.lexemesAll_append, Piece.lexemesAll_braces, List.length_append, List.length_cons]
  omega

theorem SketchMember.outlineNodes_pieces (d : Nat) (m : SketchMember)
    (hd : (Piece.lexemesAll m.pieces).length ≤ d + 1) :
    outlineNodes (regionNodes d) .members m.outline m.pieces = m.nodes := by
  induction d generalizing m with
  | zero =>
    have hm := m.two_le_length
    omega
  | succ d ih =>
    cases m with
    | constructor c => exact outlineNodes_constructor (readsCalls_regionNodes d) c
    | method m => exact outlineNodes_method (readsCalls_regionNodes d) m
    | type h ms =>
      have hmembers : regionNodes (d + 1) .members (piecesAll ms) = nodesAll ms := by
        refine rowNodes_piecesAll fun m hm => ih m ?_
        have hinside := length_lexemesAll_inside h gap (piecesAll ms)
        have hmember := length_lexemesAll_of_mem pieces hm
        rw [pieces] at hd
        rw [← piecesAll_eq_flatMap] at hmember
        omega
      rw [outline, pieces, outlineNodes_header (regionNodes_nil _ _), hmembers, nodes]

theorem Sketch.outlineNodes_pieces {d : Nat} {lead : List Lexeme} {s : Sketch}
    (hd : (Piece.lexemesAll (s.pieces lead)).length ≤ d) :
    outlineNodes (regionNodes d) .topLevel ⟨.typeDeclaration s.header.kind, s.header.parts⟩
      (s.pieces lead) = s.nodes lead := by
  have hinside := length_lexemesAll_inside s.header lead (SketchMember.piecesAll s.members)
  rw [pieces] at hd
  obtain ⟨d, rfl⟩ : ∃ k, d = k + 1 := ⟨d - 1, by omega⟩
  have hmembers : regionNodes (d + 1) .members (SketchMember.piecesAll s.members)
      = SketchMember.nodesAll s.members := by
    refine SketchMember.rowNodes_piecesAll fun m hm => m.outlineNodes_pieces d ?_
    have hmember := length_lexemesAll_of_mem SketchMember.pieces hm
    rw [← SketchMember.piecesAll_eq_flatMap] at hmember
    omega
  rw [pieces, outlineNodes_header (regionNodes_nil _ _), hmembers, nodes]

theorem Sketch.pieces_ne_nil (lead : List Lexeme) (s : Sketch) : s.pieces lead ≠ [] :=
  List.cons_ne_nil _ _

theorem Sketch.outline_pieces (lead : List Lexeme) (s : Sketch) {ps : List Piece}
    (hps : closingSemicolon ps = []) :
    Region.outline .topLevel (s.pieces lead ++ ps)
      = ⟨.typeDeclaration s.header.kind, s.header.parts⟩ := by
  rw [pieces, List.append_assoc, List.singleton_append, s.header.outline_topLevel _ _ hps]

/-- The trees of a row of types, where at least so many levels are left as it has lexemes. -/
theorem rowNodes_forestPieces {d : Nat} {ss : List Sketch}
    (hd : (Piece.lexemesAll (forestPieces ss)).length ≤ d) :
    rowNodes (regionNodes d) .topLevel (forestPieces ss).length (forestPieces ss)
      = forestNodes ss := by
  cases ss with
  | nil => rfl
  | cons s ss =>
    obtain ⟨n, hlength⟩ : ∃ n, (forestPieces (s :: ss)).length = n + 1 := ⟨_, rfl⟩
    have hn : ss.length ≤ n := by
      have hfurther := length_le_length_flatMap (Sketch.pieces_ne_nil gap) ss
      have hfirst : 0 < (s.pieces []).length := Nat.succ_pos _
      rw [forestPieces, List.length_append] at hlength
      omega
    rw [forestPieces, Piece.lexemesAll_append, List.length_append] at hd
    have hfurther : rowNodes (regionNodes d) .topLevel n (ss.flatMap (Sketch.pieces gap))
        = ss.flatMap (Sketch.nodes gap) := by
      refine rowNodes_flatMap (Sketch.pieces_ne_nil gap)
        (fun t ts => t.outline_pieces gap (closingSemicolon_sketches ts))
        (fun t => t.header.partsSize_parts gap _) (fun t ht => Sketch.outlineNodes_pieces ?_) hn
      have ht := length_lexemesAll_of_mem (Sketch.pieces gap) ht
      omega
    rw [hlength, forestPieces, rowNodes_append (s.pieces_ne_nil [])
      (s.outline_pieces [] (closingSemicolon_sketches ss)) (s.header.partsSize_parts [] _),
      Sketch.outlineNodes_pieces (by omega), hfurther, forestNodes]

/-! ## The tree of a text -/

theorem directivesFit_of_forall {ls : List Lexeme} (h : ∀ l ∈ ls, l.kind ≠ .directive)
    (atStart : Bool) : directivesFit atStart ls = true := by
  induction ls generalizing atStart with
  | nil => rfl
  | cons l ls ih =>
    obtain ⟨hl, hrest⟩ := List.forall_mem_cons.mp h
    rw [directivesFit, if_neg hl, ih hrest]

/-- The grammar knows the text of a row of types. -/
theorem isSound_forestPieces (ss : List Sketch) :
    isSound (Piece.lexemesAll (forestPieces ss)) (forestPieces ss) = true := by
  have hplain : ∀ l ∈ Piece.lexemesAll (forestPieces ss), l.kind ≠ .directive := fun l hl => by
    cases (isSpaced_forestPieces ss).plain l hl <;> simp
  rw [isSound, directivesFit_of_forall hplain, (fits_items ss).recognizes (by decide +kernel)]
  rfl

/-- The tree of the text of a row of types. -/
theorem parse_renderAll (ss : List Sketch) :
    parse (Sketch.renderAll ss) = .branch .unit (forestNodes ss) := by
  have hregion : regionNodes ((Piece.lexemesAll (forestPieces ss)).length + 1) .topLevel
      (forestPieces ss) = forestNodes ss := rowNodes_forestPieces (Nat.le_refl _)
  have hpieces := pieces_renderAll ss
  rw [lexemes_renderAll] at hpieces
  rw [parse, lexemes_renderAll, hpieces]
  simp only [isSound_forestPieces, if_true, hregion, List.map_nil, List.append_nil]

end Source
end AggregateAudit
