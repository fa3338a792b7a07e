import AggregateAudit.Proofs.Derivation

/-!
# The grammar knows the text of sketches

For each row of pieces that a sketch is made of, the reading of the row is followed from the
stacks in front of it to a stack behind it.  The loops of the text (modifiers, parameters,
points, type arguments, base types, calls, members, types) are loops of the stacks: behind one
round there lies a stack from which the next one can be read.  Between two members, and
between two types, it is not always the same stack, because behind braces a semicolon may
follow; so there the loop is over a short list of stacks.

Every single round is a closed question about the grammar.  The questions stand together in
`KnowsSketches`; they are answered by evaluating the grammar, and the rest of the module only
puts the answers together.
-/

namespace AggregateAudit
namespace Source

open Form

/-! ## The pieces of sketches as symbols -/

/-- Whether no mark follows at once. -/
def IsClear (next : List Piece) : Prop := markRun next = []

@[simp] theorem isClear_nil : IsClear [] := rfl

@[simp] theorem isClear_wordPiece (lead : List Lexeme) (w : String) (ps : List Piece) :
    IsClear (wordPiece lead w :: ps) := by
  cases lead <;> simp [IsClear, wordPiece, markRun]

@[simp] theorem isClear_group (lead : List Lexeme) (b : Bracket) (o : Lexeme) (inside : List Piece)
    (trail : List Lexeme) (c : Option Lexeme) (ps : List Piece) :
    IsClear (.group lead b o inside trail c :: ps) := by
  simp [IsClear, markRun]

@[simp] theorem isClear_gap (m : String) (ps : List Piece) : IsClear (markPiece gap m :: ps) := by
  simp [IsClear, markPiece, gap, markRun]

/-- A mark that no other follows at once. -/
theorem readsAs_mark_of_isClear (lead : List Lexeme) {m : String} (hm : m.toList ≠ [])
    {next : List Piece} (h : IsClear next) :
    (markPiece lead m).ReadsAs (markRun next) (.mark m.toList) := by
  rw [h]
  exact readsAs_mark lead hm

theorem readsAs_parens {inside : List Piece} {c : Category} (h : Fits c inside)
    (after : List Char) : (parens inside).ReadsAs after (.group .paren c) :=
  readsAs_group _ _ _ _ (by decide) (by decide) h

theorem readsAs_braces {inside : List Piece} {c : Category} (h : Fits c inside)
    (after : List Char) : (braces inside).ReadsAs after (.group .brace c) :=
  readsAs_group _ _ _ _ (by decide) (by decide) h

/-! ## Loops -/

/-- Whether a row that `next` follows is read from each of some stacks to one of them. -/
def LeadsAmong (sts : List (List Form)) (ps next : List Piece) : Prop :=
  ∀ st ∈ sts, ∃ st' ∈ sts, Leads st ps next st'

namespace LeadsAmong

variable {sts : List (List Form)}

theorem nil (next : List Piece) : LeadsAmong sts [] next :=
  fun st hst => ⟨st, hst, .nil st next⟩

theorem append {ps qs next : List Piece} (h : LeadsAmong sts ps (qs ++ next))
    (h' : LeadsAmong sts qs next) : LeadsAmong sts (ps ++ qs) next := by
  intro st hst
  obtain ⟨mid, hmid, hleads⟩ := h st hst
  obtain ⟨st', hst', hleads'⟩ := h' mid hmid
  exact ⟨st', hst', hleads.append hleads'⟩

theorem flatMap {α : Type} {f : α → List Piece} {next : List Piece}
    (hstep : ∀ (a : α) (as : List α), LeadsAmong sts (f a) (as.flatMap f ++ next)) (as : List α) :
    LeadsAmong sts (as.flatMap f) next := by
  induction as with
  | nil => exact nil next
  | cons a as ih =>
    rw [List.flatMap_cons]
    exact append (hstep a as) ih

/-- A round of a loop, by evaluating the grammar. -/
theorem of_symbols {ps next : List Piece} (ss : List Symbol) (hps : AreReadAs next ps ss)
    (hsts : ∀ st ∈ sts, ∃ st' ∈ sts, st' ∈ stacksBehind st ss) : LeadsAmong sts ps next := by
  intro st hst
  obtain ⟨st', hst', hmem⟩ := hsts st hst
  exact ⟨st', hst', .of_symbols ss hps hmem⟩

/-- A loop that begins with the form of a category and may end anywhere. -/
theorem fits {c : Category} {ps : List Piece} (h : LeadsAmong sts ps [])
    (hstart : [call c] ∈ sts) (hend : ∀ st ∈ sts, [] ∈ opened st) : Fits c ps := by
  obtain ⟨st', hst', hleads⟩ := h [call c] hstart
  exact hleads.fits (hend st' hst')

/-- A loop over a single stack. -/
theorem leads {st : List Form} {ps next : List Piece} (h : LeadsAmong [st] ps next) :
    Leads st ps next st := by
  obtain ⟨st', hst', hleads⟩ := h st List.mem_cons_self
  exact List.mem_singleton.mp hst' ▸ hleads

end LeadsAmong

/-! ## The stacks that sketches pass through -/

/-- The stacks in front of a statement of a block. -/
def statementStacks : List (List Form) := [[call .statements], [many (call .statement)]]

/-- What lies behind a parameter. -/
def parameterStack : List Form :=
  [optional Grammar.initialValue, many (sign "," ++ Grammar.parameter)]

/-- What lies behind the parameters of a constructor. -/
def constructorTail : List Form :=
  [optional (sign ":" ++ words ["base", "this"] ++ paren .arguments), call .functionBody]

/-- The stacks in front of a member of a type. -/
def memberStacks : List (List Form) :=
  [[call .declarations], [many (call .declaration)],
    [optional attachedSemicolon, many (call .declaration)]]

/-- The stacks in front of a member of a type and behind some of its modifiers. -/
def modifiedStacks : List (List Form) :=
  [Grammar.modifiers, Grammar.member, many (call .declaration)] :: memberStacks

/-- What lies behind the name of a type, and behind an entry of its base list. -/
def tailStack : List Form :=
  [many (oneOf [call .typeParameters, paren .parameters, Grammar.bases]), many (call .constraint),
    either (brace .declarations ++ optional attachedSemicolon) (sign ";")]

/-- What lies behind the name that an entry of a base list begins with. -/
def pointStack : List Form :=
  [optional (call .typeArguments), many (sign "." ++ call .simpleName)]

/-- What lies behind the type of an entry of a base list. -/
def entryStack : List Form :=
  [call (.suffix .plain Grammar.anyShape), optional (paren .arguments),
    many (sign "," ++ (call .type ++ optional (paren .arguments)))] ++ tailStack

/-- What lies behind type arguments. -/
def appliedStack : List Form := [many (sign "." ++ call .simpleName)]

/-- What lies behind a type argument. -/
def argumentStack : List Form :=
  pointStack ++ [call (.suffix .plain Grammar.anyShape), many (sign "," ++ call .type), closeAngle]
    ++ appliedStack

/-- The stacks behind an entry of a base list. -/
def baseStacks : List (List Form) := [pointStack, appliedStack].map (· ++ entryStack)

/-- The stacks in front of the braces of a type. -/
def headerStacks : List (List Form) := [Grammar.typeTail] :: baseStacks

/-- The stacks in front of a type outside of all braces. -/
def itemStacks : List (List Form) :=
  [[call .items], [many (call .item)], [optional attachedSemicolon, many (call .item)]]

/-- What the grammar says about these stacks: which of them lie behind the symbols that a
piece of a sketch is read as, and which need not read anything.  Every field is a closed
question, and nothing else about the grammar is used. -/
structure KnowsSketches : Prop where
  noArguments : [] ∈ opened [call .arguments]
  statement : ∀ st ∈ statementStacks, ∃ st' ∈ statementStacks,
    st' ∈ stacksBehind st [.name, .group .paren .arguments, .mark [';']]
  statementsEnd : ∀ st ∈ statementStacks, [] ∈ opened st
  noParameters : [] ∈ opened [call .parameters]
  firstParameter : parameterStack ∈ stacksBehind [call .parameters] [.keyword "int", .name]
  parameter : ∀ st ∈ [parameterStack], ∃ st' ∈ [parameterStack],
    st' ∈ stacksBehind st [.mark [','], .keyword "int", .name]
  parametersEnd : [] ∈ opened parameterStack
  blockBody : [] ∈ stacksBehind constructorTail [.group .brace .statements]
  arrowBody : [] ∈ stacksBehind constructorTail
    [.mark ['=', '>'], .name, .group .paren .arguments, .mark [';']]
  noBody : [] ∈ stacksBehind constructorTail [.mark [';']]
  modifier : ∀ m ∈ sketchModifiers, ∀ st ∈ modifiedStacks, ∃ st' ∈ modifiedStacks,
    st' ∈ stacksBehind st [.keyword m.keyword]
  constructorHead : ∀ st ∈ modifiedStacks, constructorTail ++ [many (call .declaration)] ∈
    stacksBehind st [.name, .group .paren .parameters]
  method : ∀ st ∈ modifiedStacks, [many (call .declaration)] ∈ stacksBehind st
    [.keyword "void", .name, .group .paren .parameters, .group .brace .statements]
  point : ∀ st ∈ [pointStack], ∃ st' ∈ [pointStack], st' ∈ stacksBehind st [.mark ['.'], .name]
  firstArgument : argumentStack ∈ stacksBehind pointStack [.mark ['<'], .name]
  argument : ∀ st ∈ [argumentStack], ∃ st' ∈ [argumentStack],
    st' ∈ stacksBehind st [.mark [','], .name]
  argumentsEnd : appliedStack ∈ stacksBehind argumentStack [.closeAngle]
  firstBase : pointStack ++ entryStack ∈ stacksBehind [Grammar.typeTail] [.mark ":".toList, .name]
  base : ∀ st ∈ baseStacks, pointStack ++ entryStack ∈ stacksBehind st [.mark ",".toList, .name]
  members : ∀ st ∈ headerStacks,
    [optional attachedSemicolon] ∈ stacksBehind st [.group .brace .declarations]
  memberType : ∀ (k : TypeKind), ∀ st ∈ memberStacks,
    [Grammar.typeTail, many (call .declaration)] ∈ stacksBehind st [.keyword k.word, .name]
  declarationsEnd : ∀ st ∈ memberStacks, [] ∈ opened st
  itemType : ∀ (k : TypeKind), ∀ st ∈ itemStacks,
    [Grammar.typeTail, many (call .item)] ∈ stacksBehind st [.keyword k.word, .name]
  itemsEnd : ∀ st ∈ itemStacks, [] ∈ opened st

-- The parentheses in `(knowsSketches).base` matter while a file is elaborated: without them the
-- whole is looked up as a name first, which waits until these proofs are done.
theorem knowsSketches : KnowsSketches where
  noArguments := by decide +kernel
  statement := by decide +kernel
  statementsEnd := by decide +kernel
  noParameters := by decide +kernel
  firstParameter := by decide +kernel
  parameter := by decide +kernel
  parametersEnd := by decide +kernel
  blockBody := by decide +kernel
  arrowBody := by decide +kernel
  noBody := by decide +kernel
  modifier := by decide +kernel
  constructorHead := by decide +kernel
  method := by decide +kernel
  point := by decide +kernel
  firstArgument := by decide +kernel
  argument := by decide +kernel
  argumentsEnd := by decide +kernel
  firstBase := by decide +kernel
  base := by decide +kernel
  members := by decide +kernel
  memberType k := by cases k <;> decide +kernel
  declarationsEnd := by decide +kernel
  itemType k := by cases k <;> decide +kernel
  itemsEnd := by decide +kernel

/-! ## Calls -/

theorem fits_arguments_nil : Fits .arguments [] := (Leads.nil _ []).fits (knowsSketches).noArguments

theorem areReadAs_callPieces (n : Identifier) {next : List Piece} (h : IsClear next) :
    AreReadAs next (callPieces n) [.name, .group .paren .arguments, .mark [';']] :=
  ⟨readsAs_name _ n _, readsAs_parens fits_arguments_nil _,
    readsAs_mark_of_isClear [] (m := ";") (by decide) h, trivial⟩

theorem isClear_calls (ns : List Identifier) {next : List Piece} (h : IsClear next) :
    IsClear (ns.flatMap callPieces ++ next) := by
  cases ns with
  | nil => exact h
  | cons n ns => simp [callPieces]

/-- Calls are statements. -/
theorem fits_statements (ns : List Identifier) : Fits .statements (ns.flatMap callPieces) := by
  have hcalls : LeadsAmong statementStacks (ns.flatMap callPieces) [] := by
    refine .flatMap (fun n ns => ?_) ns
    exact .of_symbols _ (areReadAs_callPieces n (isClear_calls ns isClear_nil))
      (knowsSketches).statement
  exact hcalls.fits (by decide) (knowsSketches).statementsEnd

/-! ## Constructors and methods -/

theorem fits_parameters (names : List Identifier) : Fits .parameters (parameterPieces names) := by
  cases names with
  | nil => exact (Leads.nil _ []).fits (knowsSketches).noParameters
  | cons n names =>
    have hfirst : ∀ next, Leads [call .parameters] [wordPiece [] "int", wordPiece gap n.text] next
        parameterStack := fun next =>
      .of_symbols [.keyword "int", .name]
        ⟨readsAs_keyword _ _ _, readsAs_name _ n _, trivial⟩ (knowsSketches).firstParameter
    have hfurther : LeadsAmong [parameterStack] (names.flatMap fun n =>
        [markPiece [] ",", wordPiece gap "int", wordPiece gap n.text]) [] := by
      refine .flatMap (fun n ns => .of_symbols _ ?_ (knowsSketches).parameter) names
      exact ⟨readsAs_mark_of_isClear [] (m := ",") (by decide) (by simp), readsAs_keyword _ _ _,
        readsAs_name _ n _, trivial⟩
    exact ((hfirst _).append hfurther.leads).fits (knowsSketches).parametersEnd

theorem leads_body (b : SketchBody) {next : List Piece} (h : IsClear next) :
    Leads constructorTail b.pieces next [] := by
  cases b with
  | block calls =>
    exact .of_symbols [.group .brace .statements]
      ⟨readsAs_braces (fits_statements calls) _, trivial⟩ (knowsSketches).blockBody
  | arrow n =>
    exact .of_symbols (.mark ['=', '>'] :: [.name, .group .paren .arguments, .mark [';']])
      ⟨readsAs_mark_of_isClear gap (m := "=>") (by decide) (by simp [callPieces]),
        areReadAs_callPieces n h⟩ (knowsSketches).arrowBody
  | absent =>
    exact .of_symbols [.mark [';']]
      ⟨readsAs_mark_of_isClear [] (m := ";") (by decide) h, trivial⟩ (knowsSketches).noBody

theorem leadsAmong_modifierPieces (ms : List SketchModifier) (next : List Piece) :
    LeadsAmong modifiedStacks (modifierPieces ms) next := by
  rw [modifierPieces, List.map_eq_flatMap]
  refine .flatMap (fun m _ => ?_) ms
  exact .of_symbols [.keyword m.text] ⟨readsAs_keyword _ _ _, trivial⟩
    ((knowsSketches).modifier m.modifier m.mem)

theorem SketchConstructor.leads (c : SketchConstructor) {next : List Piece} (h : IsClear next)
    {st : List Form} (hst : st ∈ memberStacks) :
    Leads st c.pieces next [many (call .declaration)] := by
  obtain ⟨mid, hmid, hmodifiers⟩ := leadsAmong_modifierPieces c.modifiers _ st
    (List.mem_cons_of_mem _ hst)
  have hhead : Leads mid [wordPiece gap c.name.text, parens (parameterPieces c.parameterNames)]
      (c.body.pieces ++ next) (constructorTail ++ [many (call .declaration)]) :=
    .of_symbols [.name, .group .paren .parameters]
      ⟨readsAs_name _ _ _, readsAs_parens (fits_parameters _) _, trivial⟩
      ((knowsSketches).constructorHead mid hmid)
  exact hmodifiers.append (hhead.append ((leads_body c.body h).frame _))

theorem SketchMethod.leads (m : SketchMethod) {next : List Piece}
    {st : List Form} (hst : st ∈ memberStacks) :
    Leads st m.pieces next [many (call .declaration)] := by
  obtain ⟨mid, hmid, hmodifiers⟩ := leadsAmong_modifierPieces m.modifiers _ st
    (List.mem_cons_of_mem _ hst)
  refine hmodifiers.append (.of_symbols _ ?_ ((knowsSketches).method mid hmid))
  exact ⟨readsAs_keyword _ _ _, readsAs_name _ _ _, readsAs_parens (fits_parameters []) _,
    readsAs_braces (fits_statements []) _, trivial⟩

/-! ## Types -/

theorem leads_dottedPieces (names : List Identifier) (next : List Piece) :
    Leads pointStack (dottedPieces names) next pointStack := by
  refine LeadsAmong.leads (.flatMap (fun n ns => .of_symbols _ ?_ (knowsSketches).point) names)
  exact ⟨readsAs_mark_of_isClear [] (m := ".") (by decide) (by simp), readsAs_name _ n _, trivial⟩

/-- Type arguments may stand behind a name, or not. -/
theorem leads_argumentPieces (names : List Identifier) (next : List Piece) :
    ∃ st ∈ [pointStack, appliedStack], Leads pointStack (argumentPieces names) next st := by
  cases names with
  | nil => exact ⟨pointStack, List.mem_cons_self, .nil _ _⟩
  | cons n names =>
    have hfirst : ∀ next, Leads pointStack [markPiece [] "<", wordPiece [] n.text] next
        argumentStack := fun next =>
      .of_symbols [.mark ['<'], .name]
        ⟨readsAs_mark_of_isClear [] (m := "<") (by decide) (by simp), readsAs_name _ n _, trivial⟩
        (knowsSketches).firstArgument
    have hfurther : LeadsAmong [argumentStack]
        (names.flatMap fun n => [markPiece [] ",", wordPiece gap n.text])
        ([markPiece [] ">"] ++ next) := by
      refine .flatMap (fun n ns => .of_symbols _ ?_ (knowsSketches).argument) names
      exact ⟨readsAs_mark_of_isClear [] (m := ",") (by decide) (by simp), readsAs_name _ n _,
        trivial⟩
    have hclose : Leads argumentStack [markPiece [] ">"] next appliedStack :=
      .of_symbols [.closeAngle] ⟨readsAs_closeAngle _ _, trivial⟩ (knowsSketches).argumentsEnd
    refine ⟨appliedStack, List.mem_cons_of_mem _ List.mem_cons_self, ?_⟩
    exact (hfirst _).append (hfurther.leads.append hclose)

/-- An entry of a base list, behind the colon or the comma in front of it. -/
theorem leads_base (b : SketchBase) (lead front : List Lexeme) {m : String} (hm : m.toList ≠ [])
    (next : List Piece) {st : List Form}
    (hst : pointStack ++ entryStack ∈ stacksBehind st [.mark m.toList, .name]) :
    ∃ st' ∈ baseStacks, Leads st (markPiece front m :: b.pieces lead) next st' := by
  obtain ⟨st', hst', harguments⟩ := leads_argumentPieces b.arguments next
  have hfirst : Leads st [markPiece front m, wordPiece lead b.first.text]
      ((dottedPieces b.further ++ argumentPieces b.arguments) ++ next) (pointStack ++ entryStack) :=
    .of_symbols [.mark m.toList, .name]
      ⟨readsAs_mark_of_isClear front hm (by simp), readsAs_name _ _ _, trivial⟩ hst
  have hrest := ((leads_dottedPieces b.further _).append harguments).frame entryStack
  exact ⟨st' ++ entryStack, List.mem_map_of_mem hst', hfirst.append hrest⟩

theorem leads_basesPieces (bases : List SketchBase) (next : List Piece) :
    ∃ st ∈ headerStacks, Leads [Grammar.typeTail] (basesPieces bases) next st := by
  cases bases with
  | nil => exact ⟨_, List.mem_cons_self, .nil _ _⟩
  | cons b bases =>
    have hfurther : LeadsAmong baseStacks
        (bases.flatMap fun b => markPiece [] "," :: b.pieces gap) next :=
      .flatMap (fun b _ st hst => leads_base b gap [] (by decide) _ ((knowsSketches).base st hst))
        bases
    obtain ⟨mid, hmid, hfirst⟩ := leads_base b gap gap (m := ":") (by decide)
      (bases.flatMap (fun b => markPiece [] "," :: b.pieces gap) ++ next) (knowsSketches).firstBase
    obtain ⟨st, hst, hrest⟩ := hfurther mid hmid
    exact ⟨st, List.mem_cons_of_mem _ hst, hfirst.append hrest⟩

/-- A type is read wherever its keyword and its name lead to the rest of it. -/
theorem leads_type (h : SketchHeader) (lead : List Lexeme) {inside : List Piece}
    (hinside : Fits .declarations inside) (next : List Piece) {st outer : List Form}
    (hst : Grammar.typeTail :: outer ∈ stacksBehind st [.keyword h.kind.word, .name]) :
    Leads st (h.pieces lead ++ [braces inside]) next (optional attachedSemicolon :: outer) := by
  obtain ⟨mid, hmid, hbases⟩ := leads_basesPieces h.bases ([braces inside] ++ next)
  have hhead : Leads st [wordPiece lead h.kind.word, wordPiece gap h.name.text]
      (basesPieces h.bases ++ ([braces inside] ++ next)) (Grammar.typeTail :: outer) :=
    .of_symbols [.keyword h.kind.word, .name]
      ⟨readsAs_keyword _ _ _, readsAs_name _ _ _, trivial⟩ hst
  have hbody : Leads mid [braces inside] next [optional attachedSemicolon] :=
    .of_symbols [.group .brace .declarations] ⟨readsAs_braces hinside _, trivial⟩
      ((knowsSketches).members mid hmid)
  have hheader := hhead.append (hbases.frame outer)
  exact hheader.append (hbody.frame outer)

/-! ## Members and whole texts -/

theorem SketchMember.isClear_pieces (m : SketchMember) (next : List Piece) :
    IsClear (m.pieces ++ next) := by
  cases m with
  | constructor c =>
    rw [pieces, SketchConstructor.pieces]
    cases c.modifiers <;> simp [modifierPieces]
  | method m =>
    rw [pieces, SketchMethod.pieces]
    cases m.modifiers <;> simp [modifierPieces]
  | type h ms => simp [pieces, SketchHeader.pieces]

theorem SketchMember.isClear_piecesAll (ms : List SketchMember) : IsClear (piecesAll ms) := by
  cases ms with
  | nil => rfl
  | cons m ms => exact m.isClear_pieces _

mutual

/-- A member leads from in front of a member to in front of another. -/
theorem SketchMember.leadsAmong_pieces {next : List Piece} (hnext : IsClear next) :
    ∀ m : SketchMember, LeadsAmong memberStacks m.pieces next
  | .constructor c => fun st hst => ⟨_, by decide, c.leads hnext hst⟩
  | .method m => fun st hst => ⟨_, by decide, m.leads hst⟩
  | .type h ms => by
    intro st hst
    have hmembers : Fits .declarations (piecesAll ms) :=
      (leadsAmong_piecesAll ms).fits (by decide) (knowsSketches).declarationsEnd
    exact ⟨_, by decide, leads_type h gap hmembers next ((knowsSketches).memberType h.kind st hst)⟩

theorem SketchMember.leadsAmong_piecesAll :
    ∀ ms : List SketchMember, LeadsAmong memberStacks (piecesAll ms) []
  | [] => .nil []
  | m :: ms => by
    have hclear : IsClear (piecesAll ms ++ []) := by
      rw [List.append_nil]
      exact isClear_piecesAll ms
    exact .append (leadsAmong_pieces hclear m) (leadsAmong_piecesAll ms)

end

theorem SketchMember.fits_declarations (ms : List SketchMember) :
    Fits .declarations (piecesAll ms) :=
  (leadsAmong_piecesAll ms).fits (by decide) (knowsSketches).declarationsEnd

theorem Sketch.leadsAmong_pieces (s : Sketch) (lead : List Lexeme) (next : List Piece) :
    LeadsAmong itemStacks (s.pieces lead) next := by
  intro st hst
  exact ⟨_, by decide, leads_type s.header lead (SketchMember.fits_declarations s.members) next
    ((knowsSketches).itemType s.header.kind st hst)⟩

/-- The grammar knows the text of every row of sketches. -/
theorem fits_items (ss : List Sketch) : Fits .items (forestPieces ss) := by
  have hforest : LeadsAmong itemStacks (forestPieces ss) [] := by
    cases ss with
    | nil => exact .nil []
    | cons s ss =>
      exact .append (s.leadsAmong_pieces [] _)
        (.flatMap (fun t _ => t.leadsAmong_pieces gap _) ss)
  exact hforest.fits (by decide) (knowsSketches).itemsEnd

end Source
end AggregateAudit
