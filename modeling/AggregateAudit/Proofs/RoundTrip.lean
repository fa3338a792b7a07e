import AggregateAudit.Proofs.SketchTree
import AggregateAudit.Source.Extraction

/-!
# Extraction undoes rendering

Types that are rendered as text and read back are the types they were, apart from their
locations (`extract_renderAll`).

The tree of the text is known (`parse_renderAll`), so what is left is the walk through it.  The
facts that the walk reads off a single declaration are those of the sketch, wherever the
declaration stands (`constructorOf_content`, `methodOf_content`, `headerOf_content`); from there
the walk follows the nesting of the sketch (`SketchMember.unlocatedAll_nodes`).  That no tree has
an error is a second induction of the same shape (`SketchMember.anyError_nodes`).
-/

namespace AggregateAudit

theorem Member.unlocatedAll_append (ms ns : List Member) :
    unlocatedAll (ms ++ ns) = unlocatedAll ms ++ unlocatedAll ns := by
  induction ms with
  | nil => rfl
  | cons m ms ih => rw [List.cons_append, unlocatedAll, ih, unlocatedAll, List.cons_append]

namespace Source

/-! ## Facts about one node -/

/-- The entries that are kept of entries with commas between them. -/
theorem filter_entryNodes {α : Type} {node : List Lexeme → α → List Node} {tree : α → Node}
    {keep : Node → Bool} {lead : List Lexeme} (hcomma : keep (.leaf .token ",") = false)
    (hfirst : ∀ a, (node lead a).filter keep = [tree a])
    (hfurther : ∀ a, (node gap a).filter keep = [tree a]) (as : List α) :
    (entryNodes node lead as).filter keep = as.map tree := by
  cases as with
  | nil => rfl
  | cons a as =>
    have hrest : (as.flatMap fun b => .leaf .token "," :: node gap b).filter keep
        = as.map tree := by
      induction as with
      | nil => rfl
      | cons b as ih => simp [hcomma, hfurther, ih]
    rw [entryNodes, List.filter_append, hfirst, hrest]
    rfl

namespace Node

theorem declaredName_modifierNodes (ms : List SketchModifier) (cs : List Node) :
    declaredName (modifierNodes ms ++ cs) = declaredName cs := by
  induction ms with
  | nil => rfl
  | cons m ms ih => exact ih

theorem modifiers_modifierNodes (ms : List SketchModifier) (cs : List Node) :
    modifiers (modifierNodes ms ++ cs) = ms.map SketchModifier.modifier ++ modifiers cs := by
  have hkeyword : ∀ m ∈ sketchModifiers,
      Modifier.ofKeyword (String.ofList (Text.trim m.keyword.toList)) = m := by decide +kernel
  induction ms with
  | nil => rfl
  | cons m ms ih =>
    have hcons : modifiers (modifierNodes (m :: ms) ++ cs)
        = .ofKeyword (String.ofList (Text.trim m.modifier.keyword.toList))
          :: modifiers (modifierNodes ms ++ cs) := rfl
    rw [hcons, hkeyword m.modifier m.mem, ih]
    rfl

theorem parameterCount_modifierNodes (ms : List SketchModifier) (cs : List Node) :
    parameterCount (modifierNodes ms ++ cs) = parameterCount cs := by
  induction ms with
  | nil => rfl
  | cons m ms ih => exact ih

theorem bodyOf_modifierNodes (ms : List SketchModifier) (cs : List Node) :
    bodyOf (modifierNodes ms ++ cs) = bodyOf cs := by
  induction ms with
  | nil => rfl
  | cons m ms ih => exact ih

theorem parameterCount_parameterListNode (names : List Identifier) (cs : List Node) :
    parameterCount (parameterListNode names :: cs) = names.length := by
  have hfilter : (entryNodes parameterNode [] names).filter (·.isBranch .parameter)
      = names.map fun n =>
          .branch .parameter [.leaf .token "int", .leaf .blank " ", .leaf .token n.text] :=
    filter_entryNodes rfl (fun _ => rfl) (fun _ => rfl) names
  have hcount : parameterCount (parameterListNode names :: cs)
      = (.leaf .token "(" :: (entryNodes parameterNode [] names ++ [.leaf .token ")"])).countP
          (·.isBranch .parameter) := rfl
  rw [hcount, List.countP_cons_of_neg (by decide), List.countP_append, List.countP_eq_length_filter,
    hfilter, List.length_map]
  rfl

theorem statementCount_calls (calls : List Identifier) :
    (calls.flatMap callNodes).countP (fun n => n.isNamed && !n.isTrivia) = calls.length := by
  induction calls with
  | nil => rfl
  | cons n calls ih =>
    rw [List.flatMap_cons, List.countP_append, ih, List.length_cons, Nat.add_comm]
    rfl

theorem bodyOf_nodes (b : SketchBody) : bodyOf b.nodes = b.declared := by
  cases b with
  | block calls =>
    have hbody : bodyOf (SketchBody.block calls).nodes = .block
        ((.leaf .token "\x7b" :: (calls.flatMap callNodes
          ++ [.leaf .blank " ", .leaf .token "\x7d"])).countP
            fun n => n.isNamed && !n.isTrivia) := rfl
    rw [hbody, List.countP_cons_of_neg (by decide), List.countP_append, statementCount_calls]
    rfl
  | arrow n => rfl
  | absent => rfl

theorem text_baseType (b : SketchBase) :
    (Node.branch .baseType (Piece.leavesAll (b.pieces []))).text = b.render := by
  have hchars :
      (Node.branch .baseType (Piece.leavesAll (b.pieces []))).chars = b.render.toList := by
    rw [chars_branch, keeps_leavesAll, b.charsAll_pieces]
    rfl
  exact String.toList_inj.mp hchars

theorem baseTypes_content (h : SketchHeader) (inside : List Node) :
    baseTypes (h.content inside) = declaredBases h.bases := by
  cases hbases : h.bases with
  | nil => simp [SketchHeader.content, hbases, basesNodes, baseTypes, isBranch, declaredBases]
  | cons b bases =>
    have hentries : baseTypes (h.content inside) = some
        (((.leaf .token ":" :: entryNodes SketchBase.node gap (b :: bases)).filter fun n =>
          n.isNamed && !n.isTrivia && !n.isBranch .argumentList).map Node.text) := by
      rw [SketchHeader.content, hbases]
      rfl
    have hfilter : (entryNodes SketchBase.node gap (b :: bases)).filter
          (fun n => n.isNamed && !n.isTrivia && !n.isBranch .argumentList)
        = (b :: bases).map fun b => .branch .baseType (Piece.leavesAll (b.pieces [])) :=
      filter_entryNodes rfl (fun _ => rfl) (fun _ => rfl) _
    rw [hentries, List.filter_cons_of_neg (by decide), hfilter, List.map_map]
    simp [declaredBases, text_baseType]

end Node

theorem SketchConstructor.content_eq (c : SketchConstructor) :
    .leaf .blank " " :: c.content.tail = c.content := by
  rw [content]
  cases c.modifiers <;> rfl

theorem SketchMethod.content_eq (m : SketchMethod) :
    .leaf .blank " " :: m.content.tail = m.content := by
  rw [content]
  cases m.modifiers <;> rfl

/-- The constructor that the tree of a constructor stands for. -/
theorem constructorOf_content (file : Path) (owner : String) (p : Position)
    (c : SketchConstructor) :
    { constructorOf file owner p (.branch .constructorDeclaration c.content.tail)
        with location := {} } = c.declared owner := by
  have hspace : ∀ cs : List Node,
      { constructorOf file owner p (.branch .constructorDeclaration cs) with location := {} }
        = { constructorOf file owner p (.branch .constructorDeclaration (.leaf .blank " " :: cs))
            with location := {} } := fun _ => rfl
  have hname : Node.declaredName c.content = c.name.text := by
    rw [SketchConstructor.content, Node.declaredName_modifierNodes]
    rfl
  have hmodifiers : Node.modifiers c.content = c.modifiers.map SketchModifier.modifier := by
    rw [SketchConstructor.content, Node.modifiers_modifierNodes]
    cases c.body <;> exact List.append_nil _
  have hcount : Node.parameterCount c.content = c.parameters := by
    rw [SketchConstructor.content, Node.parameterCount_modifierNodes]
    have hnames : c.parameterNames.length = c.parameters := by
      simp [SketchConstructor.parameterNames]
    exact (Node.parameterCount_parameterListNode _ c.body.nodes).trans hnames
  have hbody : Node.bodyOf c.content = c.body.declared := by
    rw [SketchConstructor.content, Node.bodyOf_modifierNodes]
    exact Node.bodyOf_nodes c.body
  rw [hspace, c.content_eq]
  simp only [constructorOf, Node.children_branch, hname, hmodifiers, hcount, hbody]
  rfl

/-- The method that the tree of a method stands for. -/
theorem methodOf_content (file : Path) (owner : String) (p : Position) (m : SketchMethod) :
    { methodOf file owner p (.branch .methodDeclaration m.content.tail) with location := {} }
      = m.declared owner := by
  have hspace : ∀ cs : List Node,
      { methodOf file owner p (.branch .methodDeclaration cs) with location := {} }
        = { methodOf file owner p (.branch .methodDeclaration (.leaf .blank " " :: cs))
            with location := {} } := fun _ => rfl
  have hname : Node.declaredName m.content = m.name.text := by
    rw [SketchMethod.content, Node.declaredName_modifierNodes]
    rfl
  have hmodifiers : Node.modifiers m.content = m.modifiers.map SketchModifier.modifier := by
    rw [SketchMethod.content, Node.modifiers_modifierNodes]
    exact List.append_nil _
  rw [hspace, m.content_eq]
  simp only [methodOf, Node.children_branch, hname, hmodifiers]
  rfl

/-- The header that the tree of a type stands for. -/
theorem headerOf_content (file : Path) (p : Position) (h : SketchHeader) (inside : List Node) :
    { headerOf file h.kind p (.branch (.typeDeclaration h.kind) (h.content inside))
        with location := {} } = h.declared := by
  simp only [headerOf, Node.children_branch, Node.baseTypes_content]
  rfl

/-! ## The walk -/

theorem membersOfAll_append (file : Path) (owner : String) (p : Position) (cs ds : List Node) :
    membersOfAll file owner p (cs ++ ds)
      = membersOfAll file owner p cs ++ membersOfAll file owner (p.pastAll cs) ds := by
  induction cs generalizing p with
  | nil => rfl
  | cons c cs ih =>
    rw [List.cons_append, membersOfAll, ih, membersOfAll, List.append_assoc]
    rfl

/-- The members of a type are those between its braces, wherever it stands. -/
theorem bodyMembers_content (file : Path) (owner : String) (p : Position) (h : SketchHeader)
    (inside : List Node) :
    ∃ q, bodyMembers file owner p (h.content inside) = membersOfAll file owner q inside := by
  have hbraces : ∀ q, bodyMembers file owner q [.leaf .blank " ", .branch .declarationList
        (.leaf .token "\x7b" :: (inside ++ [.leaf .blank " ", .leaf .token "\x7d"]))]
      = membersOfAll file owner ((q.advance " ").advance "\x7b") inside := fun q => by
    have hends : ∀ q, membersOfAll file owner q [.leaf .blank " ", .leaf .token "\x7d"] = [] :=
      fun _ => rfl
    have hinside : bodyMembers file owner q [.leaf .blank " ", .branch .declarationList
          (.leaf .token "\x7b" :: (inside ++ [.leaf .blank " ", .leaf .token "\x7d"]))]
        = membersOfAll file owner ((q.advance " ").advance "\x7b")
            (inside ++ [.leaf .blank " ", .leaf .token "\x7d"]) := rfl
    rw [hinside, membersOfAll_append, hends, List.append_nil]
  cases hbases : h.bases with
  | nil =>
    rw [SketchHeader.content, hbases]
    exact ⟨_, hbraces _⟩
  | cons b bases =>
    rw [SketchHeader.content, hbases]
    exact ⟨_, hbraces _⟩

mutual

/-- The members that the trees of a member stand for, wherever they stand. -/
theorem SketchMember.unlocatedAll_nodes (file : Path) : ∀ (m : SketchMember) (owner : String)
    (p : Position), Member.unlocatedAll (membersOfAll file owner p m.nodes) = [m.declared owner]
  | constructor c, owner, p => by
    have hmember : membersOfAll file owner p (SketchMember.constructor c).nodes
        = [.constructor (constructorOf file owner (p.advance " ")
            (.branch .constructorDeclaration c.content.tail))] := rfl
    rw [hmember, Member.unlocatedAll, Member.unlocated, constructorOf_content]
    rfl
  | method m, owner, p => by
    have hmember : membersOfAll file owner p (SketchMember.method m).nodes
        = [.method (methodOf file owner (p.advance " ")
            (.branch .methodDeclaration m.content.tail))] := rfl
    rw [hmember, Member.unlocatedAll, Member.unlocated, methodOf_content]
    rfl
  | type h ms, owner, p => by
    obtain ⟨q, hbody⟩ := bodyMembers_content file h.name.text (p.advance " ") h (nodesAll ms)
    have hmember : membersOfAll file owner p (SketchMember.type h ms).nodes
        = [.type (headerOf file h.kind (p.advance " ")
              (.branch (.typeDeclaration h.kind) (h.content (nodesAll ms))))
            (bodyMembers file h.name.text (p.advance " ") (h.content (nodesAll ms)))] := rfl
    rw [hmember, hbody, Member.unlocatedAll, Member.unlocated, headerOf_content,
      unlocatedAll_nodesAll file ms]
    rfl

theorem SketchMember.unlocatedAll_nodesAll (file : Path) : ∀ (ms : List SketchMember)
    (owner : String) (p : Position),
    Member.unlocatedAll (membersOfAll file owner p (nodesAll ms)) = declaredAll owner ms
  | [], _, _ => rfl
  | m :: ms, owner, p => by
    rw [nodesAll, membersOfAll_append, Member.unlocatedAll_append, unlocatedAll_nodes file m,
      unlocatedAll_nodesAll file ms]
    rfl

end

theorem typesOfAll_append (file : Path) (p : Position) (cs ds : List Node) :
    typesOfAll file p (cs ++ ds) = typesOfAll file p cs ++ typesOfAll file (p.pastAll cs) ds := by
  induction cs generalizing p with
  | nil => rfl
  | cons c cs ih =>
    rw [List.cons_append, typesOfAll, ih, typesOfAll, List.append_assoc]
    rfl

/-- The type that the trees of a type stand for, wherever they stand. -/
theorem Sketch.unlocated_nodes (file : Path) (p : Position) {lead : List Lexeme}
    (hlead : lead = [] ∨ lead = gap) (s : Sketch) :
    (typesOfAll file p (s.nodes lead)).map TypeDeclaration.unlocated = [s.declared] := by
  have htype : ∀ q, (typesOfAll file q [.branch (.typeDeclaration s.header.kind)
      (s.header.content (SketchMember.nodesAll s.members))]).map TypeDeclaration.unlocated
        = [s.declared] := fun q => by
    obtain ⟨r, hbody⟩ :=
      bodyMembers_content file s.header.name.text q s.header (SketchMember.nodesAll s.members)
    have htypes : typesOfAll file q [.branch (.typeDeclaration s.header.kind)
          (s.header.content (SketchMember.nodesAll s.members))]
        = [⟨headerOf file s.header.kind q (.branch (.typeDeclaration s.header.kind)
              (s.header.content (SketchMember.nodesAll s.members))),
            bodyMembers file s.header.name.text q
              (s.header.content (SketchMember.nodesAll s.members))⟩] := rfl
    rw [htypes, hbody, List.map_singleton, TypeDeclaration.unlocated, headerOf_content,
      SketchMember.unlocatedAll_nodesAll]
    rfl
  rcases hlead with rfl | rfl
  · exact htype p
  · exact htype (p.advance " ")

/-- The types that the trees of a row of types stand for. -/
theorem unlocated_forestNodes (file : Path) (p : Position) (ss : List Sketch) :
    (typesOfAll file p (forestNodes ss)).map TypeDeclaration.unlocated
      = ss.map Sketch.declared := by
  have hfurther : ∀ (ss : List Sketch) (q : Position),
      (typesOfAll file q (ss.flatMap (Sketch.nodes gap))).map TypeDeclaration.unlocated
        = ss.map Sketch.declared := by
    intro ss
    induction ss with
    | nil => exact fun _ => rfl
    | cons s ss ih =>
      intro q
      rw [List.flatMap_cons, typesOfAll_append, List.map_append,
        Sketch.unlocated_nodes file q (.inr rfl), ih]
      rfl
  cases ss with
  | nil => rfl
  | cons s ss =>
    rw [forestNodes, typesOfAll_append, List.map_append, Sketch.unlocated_nodes file p (.inl rfl),
      hfurther]
    rfl

/-! ## No errors -/

namespace Node

theorem anyError_flatMap {α : Type} {f : α → List Node} (h : ∀ a, anyError (f a) = false)
    (as : List α) : anyError (as.flatMap f) = false := by
  induction as with
  | nil => rfl
  | cons a as ih => rw [List.flatMap_cons, anyError_append, h, ih, Bool.or_false]

theorem anyError_entryNodes {α : Type} {node : List Lexeme → α → List Node} {lead : List Lexeme}
    (hfirst : ∀ a, anyError (node lead a) = false) (hfurther : ∀ a, anyError (node gap a) = false)
    (as : List α) : anyError (entryNodes node lead as) = false := by
  cases as with
  | nil => rfl
  | cons a as =>
    have hentry : ∀ b, anyError (.leaf .token "," :: node gap b) = false := hfurther
    rw [entryNodes, anyError_append, hfirst, anyError_flatMap hentry, Bool.or_false]

theorem anyError_leavesAll {ps : List Piece} (h : ArePlain ps) :
    anyError (Piece.leavesAll ps) = false := by
  have hlexemes : ∀ l ∈ Piece.lexemesAll ps, l.IsPlain := fun l hl => by
    obtain ⟨p, hp, hmem⟩ := Piece.mem_lexemesAll.mp hl
    exact (h p hp).lexemes l hmem
  rw [Piece.leavesAll]
  generalize Piece.lexemesAll ps = ls at hlexemes
  induction ls with
  | nil => rfl
  | cons l ls ih =>
    obtain ⟨hl, hrest⟩ := List.forall_mem_cons.mp hlexemes
    have hleaf : (leafOf l).hasError = false := by cases hl <;> rfl
    rw [List.map_cons, anyError_cons, hleaf, ih hrest, Bool.or_false]

theorem hasError_parameterListNode (names : List Identifier) :
    (parameterListNode names).hasError = false := by
  have hnames : anyError (entryNodes parameterNode [] names) = false :=
    anyError_entryNodes (fun _ => rfl) (fun _ => rfl) names
  simp [parameterListNode, hnames]

theorem anyError_blockNodes {inside : List Node} (h : anyError inside = false) :
    anyError (blockNodes inside) = false := by
  simp [blockNodes, h]

theorem anyError_body (b : SketchBody) : anyError b.nodes = false := by
  cases b with
  | block calls => exact anyError_blockNodes (anyError_flatMap (fun _ => rfl) calls)
  | arrow n => rfl
  | absent => rfl

theorem anyError_basesNodes (bases : List SketchBase) : anyError (basesNodes bases) = false := by
  cases bases with
  | nil => rfl
  | cons b bases =>
    have hentry : ∀ b : SketchBase, anyError (b.node gap) = false := fun b => by
      have hleaves := anyError_leavesAll (ArePlain.base (.inl rfl) b)
      simp [SketchBase.node, gap, leafOf, hleaves]
    have hentries := anyError_entryNodes hentry hentry (b :: bases)
    simp [basesNodes, hentries]

theorem anyError_nodes (h : SketchHeader) {lead : List Lexeme} (hlead : lead = [] ∨ lead = gap)
    {inside : List Node} (hinside : anyError inside = false) :
    anyError (h.nodes lead inside) = false := by
  have hcontent : anyError (h.content inside) = false := by
    simp [SketchHeader.content, anyError_basesNodes, hinside]
  rcases hlead with rfl | rfl <;>
    simp [SketchHeader.nodes, gap, leafOf, hcontent]

end Node

mutual

theorem SketchMember.anyError_nodes : ∀ m : SketchMember, Node.anyError m.nodes = false
  | constructor c => by
    have hcontent : Node.anyError c.content = false := by
      simp [SketchConstructor.content, modifierNodes, Node.anyError_flatMap,
        Node.hasError_parameterListNode, Node.anyError_body]
    rw [← c.content_eq] at hcontent
    simpa [nodes] using hcontent
  | method m => by
    have hcontent : Node.anyError m.content = false := by
      have hblock : Node.anyError (blockNodes []) = false := Node.anyError_blockNodes rfl
      simp [SketchMethod.content, modifierNodes, Node.anyError_flatMap,
        Node.hasError_parameterListNode, hblock]
    rw [← m.content_eq] at hcontent
    simpa [nodes] using hcontent
  | type h ms => Node.anyError_nodes h (.inr rfl) (anyError_nodesAll ms)

theorem SketchMember.anyError_nodesAll :
    ∀ ms : List SketchMember, Node.anyError (nodesAll ms) = false
  | [] => rfl
  | m :: ms => by
    rw [nodesAll, Node.anyError_append, anyError_nodes m, anyError_nodesAll ms, Bool.or_false]

end

/-- No tree of a row of types has an error. -/
theorem anyError_forestNodes (ss : List Sketch) : Node.anyError (forestNodes ss) = false := by
  have hsketch : ∀ lead, lead = [] ∨ lead = gap →
      ∀ s : Sketch, Node.anyError (s.nodes lead) = false := fun lead hlead s =>
    Node.anyError_nodes s.header hlead (SketchMember.anyError_nodesAll s.members)
  cases ss with
  | nil => rfl
  | cons s ss =>
    rw [forestNodes, Node.anyError_append, hsketch [] (.inl rfl),
      Node.anyError_flatMap (hsketch gap (.inr rfl)), Bool.or_false]

/-! ## The round trip -/

/-- Extraction undoes rendering.  The text of a row of types, however deep they are, has no
syntax errors, and the declarations read from it are those it was rendered from, in
everything but their locations. -/
theorem extract_renderAll (file : Path) (ss : List Sketch) :
    (extract file (Sketch.renderAll ss)).hasSyntaxErrors = false ∧
      (extract file (Sketch.renderAll ss)).types.map TypeDeclaration.unlocated
        = ss.map Sketch.declared := by
  rw [extract, parse_renderAll]
  refine ⟨?_, unlocated_forestNodes file {} ss⟩
  have herror : (SourceUnit.ofTree file (.branch .unit (forestNodes ss))).hasSyntaxErrors
      = (false || Node.anyError (forestNodes ss)) := rfl
  rw [herror, anyError_forestNodes, Bool.or_false]

end Source
end AggregateAudit
