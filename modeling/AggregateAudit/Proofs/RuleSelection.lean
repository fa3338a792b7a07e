import AggregateAudit.Proofs.PathOrder
import AggregateAudit.Command.Check
import Mathlib.Data.List.Forall2
import Mathlib.Logic.Relation

/-!
# Which rules run

A filter is a text and a configuration is a table, and out of the two comes a row of rules.  This
file says which row it is, in the words of both: a rule of the catalogue runs if some piece of the
filter names it and the configuration does not disable it, and the rules stand in the order of the
catalogue (`Command.activeRules_eq_selection`).

Pieces are told by what they are and not by how they are found.  A filter is cut into pieces if it
is these pieces with commas in between and no piece has a comma (`Command.IsCut`), and there is one
way to do that (`Command.isCut_iff`).  A piece is trimmed to what is left without white space at
either end (`Text.IsTrimmed`), which is one text too (`Text.isTrimmed_iff`).

Because only the rules count that the pieces name, a filter can be written in many ways.
`Command.Reworded` is one change to the pieces of a filter that makes no difference.
-/

namespace AggregateAudit

/-! ## Cutting and trimming -/

namespace Text

section DropWhile

variable {α : Type} {p : α → Bool} {s : List α}

theorem dropWhile_append_of_head {front : List α} (hfront : ∀ c ∈ front, p c = true)
    (hs : ∀ c ∈ s.head?, p c = false) : (front ++ s).dropWhile p = s := by
  rw [List.dropWhile_append_of_pos hfront]
  cases s with
  | nil => rfl
  | cons c s => rw [List.dropWhile_cons_of_neg (by simp [hs c rfl])]

theorem dropEndWhile_append_of_getLast {back : List α} (hback : ∀ c ∈ back, p c = true)
    (hs : ∀ c ∈ s.getLast?, p c = false) : dropEndWhile p (s ++ back) = s := by
  rw [dropEndWhile, List.reverse_append, dropWhile_append_of_head, List.reverse_reverse]
  · simpa using hback
  · simpa using hs

/-- A row is the part that is dropped at its end behind the part that is kept. -/
theorem exists_eq_dropEndWhile_append (p : α → Bool) (s : List α) :
    ∃ back, s = dropEndWhile p s ++ back ∧ ∀ c ∈ back, p c = true := by
  refine ⟨(s.reverse.takeWhile p).reverse, ?_, ?_⟩
  · rw [dropEndWhile, ← List.reverse_append, List.takeWhile_append_dropWhile, List.reverse_reverse]
  · intro c hc
    exact List.all_eq_true.mp List.all_takeWhile c (List.mem_reverse.mp hc)

theorem head?_dropWhile_eq_false (p : α → Bool) (s : List α) :
    ∀ c ∈ (s.dropWhile p).head?, p c = false := by
  intro c hc
  have h := List.head?_dropWhile_not p s
  rwa [Option.mem_def.mp hc] at h

theorem getLast?_dropEndWhile_eq_false (p : α → Bool) (s : List α) :
    ∀ c ∈ (dropEndWhile p s).getLast?, p c = false := by
  rw [dropEndWhile, List.getLast?_reverse]
  exact head?_dropWhile_eq_false p s.reverse

end DropWhile

/-- What is left of a text without the white space at both ends. -/
structure IsTrimmed (piece s : String) : Prop where
  around : ∃ front back : String, piece = front ++ s ++ back
    ∧ (∀ c ∈ front.toList, isWhite c = true) ∧ ∀ c ∈ back.toList, isWhite c = true
  head : ∀ c ∈ s.toList.head?, isWhite c = false
  last : ∀ c ∈ s.toList.getLast?, isWhite c = false

theorem trim_append {front s back : List Char} (hfront : ∀ c ∈ front, isWhite c = true)
    (hback : ∀ c ∈ back, isWhite c = true) (hhead : ∀ c ∈ s.head?, isWhite c = false)
    (hlast : ∀ c ∈ s.getLast?, isWhite c = false) : trim (front ++ s ++ back) = s := by
  cases s with
  | nil =>
    have hall : ∀ c ∈ front ++ [] ++ back, isWhite c = true := by
      rw [List.append_nil]
      exact List.forall_mem_append.mpr ⟨hfront, hback⟩
    have hdrop : (front ++ [] ++ back).dropWhile isWhite = [] := by
      simpa using dropWhile_append_of_head (s := []) hall (by simp)
    rw [trim, hdrop]
    rfl
  | cons c s =>
    rw [trim, List.append_assoc, dropWhile_append_of_head hfront (by simpa using hhead),
      dropEndWhile_append_of_getLast hback hlast]

theorem isTrimmed_iff {piece s : String} :
    IsTrimmed piece s ↔ s = String.ofList (trim piece.toList) := by
  constructor
  · rintro ⟨⟨front, back, rfl, hfront, hback⟩, hhead, hlast⟩
    rw [String.toList_append, String.toList_append, trim_append hfront hback hhead hlast,
      String.ofList_toList]
  · rintro rfl
    have hfront : piece.toList.takeWhile isWhite ++ piece.toList.dropWhile isWhite = piece.toList :=
      List.takeWhile_append_dropWhile
    obtain ⟨back, hback, hwhite⟩ :=
      exists_eq_dropEndWhile_append isWhite (piece.toList.dropWhile isWhite)
    refine ⟨⟨String.ofList (piece.toList.takeWhile isWhite), String.ofList back, ?_, ?_, ?_⟩,
      ?_, ?_⟩
    · apply String.toList_injective
      rw [String.toList_append, String.toList_append, String.toList_ofList, String.toList_ofList,
        String.toList_ofList, trim, List.append_assoc, ← hback, hfront]
    · intro c hc
      rw [String.toList_ofList] at hc
      exact List.all_eq_true.mp List.all_takeWhile c hc
    · rwa [String.toList_ofList]
    · -- what is kept begins as the row does before its end is dropped
      intro c hc
      rw [String.toList_ofList] at hc
      refine head?_dropWhile_eq_false isWhite piece.toList c ?_
      rw [hback, ← trim, List.head?_append, Option.mem_def.mp hc]
      rfl
    · rw [String.toList_ofList]
      exact getLast?_dropEndWhile_eq_false isWhite _

theorem IsTrimmed.append {front piece back s : String} (h : IsTrimmed piece s)
    (hfront : ∀ c ∈ front.toList, isWhite c = true) (hback : ∀ c ∈ back.toList, isWhite c = true) :
    IsTrimmed (front ++ piece ++ back) s := by
  obtain ⟨⟨f, b, rfl, hf, hb⟩, hhead, hlast⟩ := h
  refine ⟨⟨front ++ f, b ++ back, ?_, ?_, ?_⟩, hhead, hlast⟩
  · simp only [String.append_assoc]
  · rw [String.toList_append]
    exact List.forall_mem_append.mpr ⟨hfront, hf⟩
  · rw [String.toList_append]
    exact List.forall_mem_append.mpr ⟨hb, hback⟩

/-- White space around a piece makes no difference. -/
theorem isTrimmed_append_iff {front piece back s : String}
    (hfront : ∀ c ∈ front.toList, isWhite c = true) (hback : ∀ c ∈ back.toList, isWhite c = true) :
    IsTrimmed (front ++ piece ++ back) s ↔ IsTrimmed piece s := by
  have hpiece : IsTrimmed piece (String.ofList (trim piece.toList)) := isTrimmed_iff.mpr rfl
  have hwide := hpiece.append hfront hback
  rw [isTrimmed_iff, isTrimmed_iff, isTrimmed_iff.mp hwide]

theorem eqIgnoringCase_iff {s t : String} : eqIgnoringCase s t = true ↔ s.toLower = t.toLower := by
  rw [eqIgnoringCase, beq_iff_eq, ← String.toList_map, ← String.toList_map, String.toList_inj]
  rfl

end Text

/-! ## Names and switches -/

/-- Whether a text names a rule: it is the rule's name, letter by letter, or its code, where the
case of ASCII letters does not count. -/
def Rule.IsCalled (r : Rule) (s : String) : Prop :=
  s = r.info.name ∨ s.toLower = r.info.code.toLower

instance (r : Rule) (s : String) : Decidable (r.IsCalled s) :=
  inferInstanceAs (Decidable (_ ∨ _))

theorem Rule.isNamedBy_iff {r : Rule} {s : String} : r.isNamedBy s = true ↔ r.IsCalled s := by
  rw [isNamedBy, Bool.or_eq_true, beq_iff_eq, Text.eqIgnoringCase_iff, IsCalled]
  exact or_congr eq_comm eq_comm

/-- Whether a configuration holds a switch under a key: the entry with the key, the first one if
there were several, has the switch. -/
def Config.Says (c : Config) (key : String) (enabled : Bool) : Prop :=
  ∃ front settings back, c.rules = front ++ (key, settings) :: back
    ∧ (∀ e ∈ front, e.1 ≠ key) ∧ settings.enabled = some enabled

/-- Whether a configuration disables a rule: of the switches under its name and under its code,
the first one that is there is off. -/
def Config.Disables (c : Config) (r : Rule) : Prop :=
  c.Says r.info.name false ∨ (∀ enabled, ¬ c.Says r.info.name enabled) ∧ c.Says r.info.code false

theorem Config.switch?_eq_some_iff {c : Config} {key : String} {enabled : Bool} :
    c.switch? key = some enabled ↔ c.Says key enabled := by
  rw [switch?, Toml.lookup, Says, Option.bind_eq_some_iff]
  constructor
  · rintro ⟨settings, hlookup, henabled⟩
    obtain ⟨⟨k, _⟩, hfind, rfl⟩ := Option.map_eq_some_iff.mp hlookup
    obtain ⟨hkey, front, back, hrules, hfront⟩ := List.find?_eq_some_iff_append.mp hfind
    obtain rfl : k = key := of_decide_eq_true hkey
    exact ⟨front, _, back, hrules, fun e he => by simpa using hfront e he, henabled⟩
  · rintro ⟨front, settings, back, hrules, hfront, henabled⟩
    refine ⟨settings, Option.map_eq_some_iff.mpr ⟨(key, settings), ?_, rfl⟩, henabled⟩
    exact List.find?_eq_some_iff_append.mpr
      ⟨decide_eq_true rfl, front, back, hrules, fun e he => by simpa using hfront e he⟩

namespace Command

theorem isActive_iff {c : Config} {r : Rule} : isActive c r = true ↔ ¬ c.Disables r := by
  have hname : ∀ b, c.Says r.info.name b ↔ c.switch? r.info.name = some b :=
    fun b => Config.switch?_eq_some_iff.symm
  have hcode : c.Says r.info.code false ↔ c.switch? r.info.code = some false :=
    Config.switch?_eq_some_iff.symm
  rw [isActive, Config.isRuleEnabled, Config.Disables, hcode]
  simp only [hname]
  cases c.switch? r.info.name with
  | some b => cases b <;> simp
  | none =>
    cases c.switch? r.info.code with
    | some b => cases b <;> simp
    | none => simp

/-! ## Filters -/

/-- Whether a filter is cut into pieces: they have no commas, and the filter is made of them with
commas in between. -/
structure IsCut (filter : String) (pieces : List String) : Prop where
  joined : ",".intercalate pieces = filter
  ne_nil : pieces ≠ []
  no_comma : ∀ piece ∈ pieces, ',' ∉ piece.toList

/-- There is one way to cut a filter. -/
theorem isCut_iff {filter : String} {pieces : List String} :
    IsCut filter pieces ↔
      pieces = (filter.toList.splitOn ',').map String.ofList := by
  have hcommas : ",".toList = [','] := by decide
  constructor
  · rintro ⟨rfl, hne, hcomma⟩
    have hsplit : ([','].intercalate (pieces.map String.toList)).splitOn ',' =
        pieces.map String.toList :=
      List.splitOn_intercalate ',' (by simpa using hcomma) (by simpa using hne)
    rw [String.toList_intercalate, hcommas, hsplit, List.map_map]
    simp [Function.comp_def]
  · rintro rfl
    refine ⟨?_, ?_, ?_⟩
    · apply String.toList_injective
      rw [String.toList_intercalate, hcommas, List.map_map]
      simp [Function.comp_def, List.intercalate_splitOn]
    · simp [List.splitOn_ne_nil]
    · intro piece hpiece
      obtain ⟨cs, hcs, rfl⟩ := List.mem_map.mp hpiece
      rw [String.toList_ofList]
      intro hc
      exact Text.notMem_of_mem_splitOn hcs hc

/-- The selectors of a filter are its pieces, trimmed. -/
theorem selectors_eq_map {filter : String} {pieces : List String} (h : IsCut filter pieces) :
    selectors filter = pieces.map fun p => String.ofList (Text.trim p.toList) := by
  rw [isCut_iff.mp h, selectors, List.map_map]
  simp [Function.comp_def]

theorem forall₂_isTrimmed_selectors {filter : String} {pieces : List String}
    (h : IsCut filter pieces) : List.Forall₂ Text.IsTrimmed pieces (selectors filter) := by
  rw [selectors_eq_map h, List.forall₂_map_right_iff, List.forall₂_same]
  exact fun p _ => Text.isTrimmed_iff.mpr rfl

/-- One change to the pieces of a filter that makes no difference: they may come in another order,
be repeated, have white space around them, and there may be one that names no rule. -/
inductive Reworded : List String → List String → Prop where
  | reordered {ps qs : List String} (h : ps.Perm qs) : Reworded ps qs
  | repeated {p : String} {ps : List String} (h : p ∈ ps) : Reworded ps (p :: ps)
  | respaced {p front back : String} {ps : List String}
      (hfront : ∀ c ∈ front.toList, Text.isWhite c = true)
      (hback : ∀ c ∈ back.toList, Text.isWhite c = true) :
      Reworded (p :: ps) ((front ++ p ++ back) :: ps)
  | added {p : String} {ps : List String}
      (h : ∀ s, Text.IsTrimmed p s → ∀ r ∈ Rule.all, ¬ r.IsCalled s) : Reworded ps (p :: ps)

/-- Whether some piece names a rule. -/
def Asks (pieces : List String) (r : Rule) : Prop :=
  ∃ piece ∈ pieces, ∃ s, Text.IsTrimmed piece s ∧ r.IsCalled s

theorem Reworded.asks_iff {ps qs : List String} (h : Reworded ps qs) {r : Rule}
    (hr : r ∈ Rule.all) : Asks ps r ↔ Asks qs r := by
  cases h with
  | reordered h => simp only [Asks, h.mem_iff]
  | repeated h =>
    simp only [Asks, List.exists_mem_cons_iff]
    exact ⟨.inr, fun hor => hor.elim (fun hp => ⟨_, h, hp⟩) id⟩
  | respaced hfront hback =>
    simp only [Asks, List.exists_mem_cons_iff, Text.isTrimmed_append_iff hfront hback]
  | added h =>
    simp only [Asks, List.exists_mem_cons_iff]
    exact ⟨.inr, fun hor => hor.elim (fun ⟨s, hs, hcalled⟩ => absurd hcalled (h s hs r hr)) id⟩

theorem asks_iff_of_reworded {ps qs : List String} (h : Relation.EqvGen Reworded ps qs) {r : Rule}
    (hr : r ∈ Rule.all) : Asks ps r ↔ Asks qs r := by
  induction h with
  | rel ps qs h => exact h.asks_iff hr
  | refl ps => exact Iff.rfl
  | symm ps qs _ ih => exact ih.symm
  | trans ps qs rs _ _ ih ih' => exact ih.trans ih'

theorem exists_isCalled_selectors_iff {filter : String} {pieces : List String}
    (h : IsCut filter pieces) (r : Rule) :
    (∃ s ∈ selectors filter, r.IsCalled s) ↔ Asks pieces r := by
  simp only [selectors_eq_map h, Asks, Text.isTrimmed_iff, List.mem_map, exists_exists_and_eq_and,
    exists_eq_left]

/-! ## The choice of rules -/

theorem mem_activeRules_some_iff {c : Config} {filter : String} {r : Rule} (hr : r ∈ Rule.all) :
    r ∈ activeRules c (some filter) ↔
      (∃ s ∈ selectors filter, r.IsCalled s) ∧ ¬ c.Disables r := by
  rw [activeRules, selectedRules, Rule.select, List.mem_filter, List.mem_filter, isActive_iff,
    List.any_eq_true]
  simp only [Rule.isNamedBy_iff, hr, true_and]

theorem sublist_activeRules (c : Config) (filter : Option String) :
    (activeRules c filter).Sublist Rule.all := by
  cases filter with
  | none => exact List.filter_sublist
  | some f => exact List.filter_sublist.trans List.filter_sublist

/-- Only the rules matter that a filter asks for. -/
theorem activeRules_congr {c : Config} {f g : String} {ps qs : List String} (hf : IsCut f ps)
    (hg : IsCut g qs) (h : ∀ r ∈ Rule.all, Asks ps r ↔ Asks qs r) :
    activeRules c (some f) = activeRules c (some g) := by
  rw [activeRules, activeRules, selectedRules, selectedRules, Rule.select, Rule.select]
  congr 1
  refine List.filter_congr fun r hr => ?_
  rw [Bool.eq_iff_iff, List.any_eq_true, List.any_eq_true]
  simp only [Rule.isNamedBy_iff]
  rw [exists_isCalled_selectors_iff hf, exists_isCalled_selectors_iff hg]
  exact h r hr

/-- The warnings of a choice of rules are about the selectors that name no rule. -/
theorem warnings_ruleLog (c : Config) (filter : Option String) :
    (ruleLog c filter).filter (·.level = .warning) =
      match filter with
      | none => []
      | some f => ((selectors f).filter fun s => ∀ r ∈ Rule.all, ¬ r.IsCalled s).map fun s =>
          .warning ("Unknown rule: " ++ s) := by
  have hunknown : ∀ s, (!Rule.all.any (·.isNamedBy s)) =
      decide (∀ r ∈ Rule.all, ¬ r.IsCalled s) := by
    intro s
    rw [Bool.eq_iff_iff, Bool.not_eq_true', List.any_eq_false, decide_eq_true_eq]
    simp only [Rule.isNamedBy_iff]
  cases filter with
  | none => simp [ruleLog, List.filter_map, LogLine.detail, Function.comp_def]
  | some f =>
    simp [ruleLog, List.filter_map, LogLine.detail, LogLine.warning, Function.comp_def,
      Rule.unknown, hunknown]

theorem ruleLog_prefix_log (w : Workspace) (o : CheckOptions) (c : Config) :
    ruleLog c o.rules <+: (checkWith w o c).log := by
  rw [checkWith]
  cases analysisOf w o c with
  | error f => exact List.prefix_rfl
  | ok a =>
    have hrun : ∀ start : LogLine,
        ruleLog c o.rules <+: ruleLog c o.rules ++ [start] ++ (a.run w.tree).log := fun _ =>
      (List.prefix_append _ _).trans (List.prefix_append _ _)
    dsimp only
    split
    · exact hrun _
    · next r _ =>
      cases r.print o.format fun f => (sourceOf w a.search.root f).toOption with
      | error f => exact hrun _
      | ok printed => exact (hrun _).trans (List.prefix_append _ _)

/-- **The rules that run are those that are selected and not disabled**, in the order of the
catalogue.  Without a filter all rules are selected.  A filter is cut into pieces in one way, and
what its pieces are trimmed to selects each rule that is called so.  Of each piece that names no
rule the log has a warning, in their order, and the log of a check begins with these.  So it makes
no difference in which order pieces stand, how often they are repeated, which white space is around
them, and whether some more of them name no rule. -/
theorem activeRules_eq_selection (c : Config) :
    Rule.all.map (·.info.code) = ["AG0004", "AG0001", "AG0002", "AG0003"]
      ∧ (∀ filter, (activeRules c filter).Sublist Rule.all)
      ∧ (∀ r ∈ Rule.all, r ∈ activeRules c none ↔ ¬ c.Disables r)
      ∧ (ruleLog c none).filter (·.level = .warning) = []
      ∧ (∀ f, ∃ pieces wanted, (∀ other, IsCut f other ↔ other = pieces)
          ∧ List.Forall₂ Text.IsTrimmed pieces wanted
          ∧ (∀ r ∈ Rule.all, r ∈ activeRules c (some f) ↔
              (∃ s ∈ wanted, r.IsCalled s) ∧ ¬ c.Disables r)
          ∧ ((ruleLog c (some f)).filter (·.level = .warning) =
              (wanted.filter fun s => ∀ r ∈ Rule.all, ¬ r.IsCalled s).map fun s =>
                .warning ("Unknown rule: " ++ s))
          ∧ ∀ g others, IsCut g others → Relation.EqvGen Reworded pieces others →
              activeRules c (some g) = activeRules c (some f))
      ∧ ∀ w o, ruleLog c o.rules <+: (checkWith w o c).log := by
  refine ⟨rfl, sublist_activeRules c, ?_, warnings_ruleLog c none, ?_,
    fun w o => ruleLog_prefix_log w o c⟩
  · intro r hr
    rw [activeRules, selectedRules, List.mem_filter, isActive_iff]
    exact ⟨And.right, fun h => ⟨hr, h⟩⟩
  · intro f
    have hcut : IsCut f ((f.toList.splitOn ',').map String.ofList) := isCut_iff.mpr rfl
    refine ⟨_, selectors f, fun other => isCut_iff, forall₂_isTrimmed_selectors hcut,
      fun r hr => mem_activeRules_some_iff hr, warnings_ruleLog c (some f), ?_⟩
    intro g others hg h
    exact activeRules_congr hg hcut fun r hr => (asks_iff_of_reworded h hr).symm

/-- The filter `nothing,ag0003,ag0003 ,AG0001` says what `AG0001,ag0003` says. -/
theorem activeRules_of_reworded_filter :
    let c : Config :=
      { rules := [("empty-constructor", {}), ("AG0001", { enabled := some false })] }
    let plain := ["AG0001", "ag0003"]
    let reworded := ["nothing", "ag0003", "ag0003 ", "AG0001"]
    IsCut "nothing,ag0003,ag0003 ,AG0001" reworded ∧ Relation.EqvGen Reworded plain reworded
      ∧ activeRules c (some "nothing,ag0003,ag0003 ,AG0001") =
        activeRules c (some "AG0001,ag0003") := by
  intro c plain reworded
  have hreworded : IsCut "nothing,ag0003,ag0003 ,AG0001" reworded :=
    ⟨by decide, by decide, by decide⟩
  have hnothing : ∀ s, Text.IsTrimmed "nothing" s → ∀ r ∈ Rule.all, ¬ r.IsCalled s := by
    intro s hs
    rw [Text.isTrimmed_iff.mp hs]
    simp only [← Rule.isNamedBy_iff]
    decide
  have hturned : Reworded plain ["ag0003", "AG0001"] := .reordered (.swap _ _ _)
  have hrepeated : Reworded ["ag0003", "AG0001"] ["ag0003", "ag0003", "AG0001"] :=
    .repeated List.mem_cons_self
  have hspace : "" ++ "ag0003" ++ " " = "ag0003 " := by decide
  have hrespaced : Reworded ["ag0003", "ag0003", "AG0001"] ["ag0003 ", "ag0003", "AG0001"] := by
    have hfront : ∀ c ∈ "".toList, Text.isWhite c = true := by simp
    have hback : ∀ c ∈ " ".toList, Text.isWhite c = true := by simp [Text.isWhite]
    rw [← hspace]
    exact .respaced hfront hback
  have hadded : Reworded ["ag0003 ", "ag0003", "AG0001"]
      ["nothing", "ag0003 ", "ag0003", "AG0001"] := .added hnothing
  have hlast : Reworded ["nothing", "ag0003 ", "ag0003", "AG0001"] reworded :=
    .reordered (.cons _ (.swap _ _ _))
  have hchain : Relation.EqvGen Reworded plain reworded :=
    .trans _ _ _ (.rel _ _ hturned) (.trans _ _ _ (.rel _ _ hrepeated) (.trans _ _ _
      (.rel _ _ hrespaced) (.trans _ _ _ (.rel _ _ hadded) (.rel _ _ hlast))))
  obtain ⟨-, -, -, -, hfilter, -⟩ := activeRules_eq_selection c
  obtain ⟨pieces, wanted, hcut, -, -, -, hsame⟩ := hfilter "AG0001,ag0003"
  obtain rfl : plain = pieces := (hcut plain).mp ⟨by decide, by decide, by decide⟩
  exact ⟨hreworded, hchain, hsame _ reworded hreworded hchain⟩

example : (activeRules {} (some "ag0003 ,, empty-constructor,AG0003")).map (·.info.code) =
    ["AG0001", "AG0003"] := by decide

end Command
end AggregateAudit
