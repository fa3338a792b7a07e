import AggregateAudit.Proofs.Neutrality
import AggregateAudit.Proofs.Printing

/-!
# How far the lines of compact output can be told apart

Compact output is for programs that read it line by line.  A line is the path of a file, two
numbers and what the rule says, and the path is written as it is shown, whatever characters are in
it.  A file may have a line feed in its name, so the lines cannot always be counted, and a file may
even be named as if it were output: then two results are printed alike
(`Analysis.compact_of_forged_name`).  Two names that are no text may also be shown alike.
`Analysis.compact_tells_findings` says that nothing else goes wrong.

A line is read from its end.  No remark of a rule ends with that of another one, and the two
numbers in front of it are cut off at the last colons, so colons, spaces and brackets in a path do
no harm (`Rule.eq_of_line_eq`).  What stands behind the path holds no line feed
(`Rule.lineFeed_notMem_tail`).  Hence each line feed of a path is one too many, and these are all.
Of two rows of lines that are written alike, the first two are the same, or one of them goes on
where the other one ends; since it goes on behind a line feed, its path has begun with a whole line
of output.  Paths that do so (`Path.BeginsWithLine`) are the only danger, and each of them is one:
its finding is printed as two (`Finding.IsOfCatalogue.beginsWithLine_iff`).
-/

namespace AggregateAudit

/-! ## One line -/

namespace Text

/-- Two ways to cut a row at a separator are the same one, or the cut of either of them is inside
a part of the other one. -/
theorem eq_or_of_append_cons_eq {α : Type} {x : α} {s t u v : List α}
    (h : s ++ x :: t = u ++ x :: v) :
    (s = u ∧ t = v) ∨ (∃ c, u = s ++ x :: c ∧ t = c ++ x :: v)
      ∨ ∃ c, s = u ++ x :: c ∧ v = c ++ x :: t := by
  rcases List.append_eq_append_iff.mp h with ⟨c, hu, hc⟩ | ⟨c, hs, hc⟩
  · cases c with
    | nil => exact .inl ⟨by rw [hu, List.append_nil], (List.cons.inj hc).2⟩
    | cons y c =>
      obtain ⟨rfl, ht⟩ := List.cons.inj hc
      exact .inr (.inl ⟨c, hu, ht⟩)
  · cases c with
    | nil => exact .inl ⟨by rw [hs, List.append_nil], (List.cons.inj hc).2.symm⟩
    | cons y c =>
      obtain ⟨rfl, hv⟩ := List.cons.inj hc
      exact .inr (.inr ⟨c, hs, hv⟩)

/-- There is one way to cut a row at its last separator. -/
theorem eq_of_append_cons_eq {α : Type} {x : α} {s t u v : List α} (ht : x ∉ t) (hv : x ∉ v)
    (h : s ++ x :: t = u ++ x :: v) : s = u ∧ t = v := by
  rcases eq_or_of_append_cons_eq h with heq | ⟨c, -, hc⟩ | ⟨c, -, hc⟩
  · exact heq
  · exact absurd (hc ▸ List.mem_append_right c List.mem_cons_self) ht
  · exact absurd (hc ▸ List.mem_append_right c List.mem_cons_self) hv

end Text

namespace Json

theorem notMem_digits {c : Char} (hc : c.isDigit = false) (n : Nat) : c ∉ digits n := by
  intro hmem
  rw [isDigit_of_mem_digits hmem] at hc
  cases hc

theorem digits_inj {m n : Nat} (h : digits m = digits n) : m = n := by
  rw [← valueOfDigits_digits m, h, valueOfDigits_digits]

end Json

namespace RuleInfo

/-- What a rule says in a line, behind the numbers. -/
def remark (r : RuleInfo) : List Char :=
  ':' :: ' ' :: (r.severity.word.toList ++ ' ' :: '[' :: (r.code.toList ++ ']' :: ' ' ::
    r.description.toList))

/-- What stands in a line behind the path. -/
def tail (r : RuleInfo) (at_ : Location) : List Char :=
  ':' :: (Json.digits at_.line ++ ':' :: (Json.digits at_.column ++ r.remark))

theorem toList_line (r : RuleInfo) (at_ : Location) :
    (r.finding at_).line.toList = at_.file.display.toList ++ r.tail at_ := by
  simp [Finding.line, finding, remark, tail, Json.digits]

end RuleInfo

namespace Rule

variable {r s : Rule}

/-- What stands behind the path is one line. -/
theorem lineFeed_notMem_tail (hr : r ∈ all) (at_ : Location) : '\n' ∉ r.info.tail at_ := by
  have hremarks : ∀ r ∈ all, '\n' ∉ r.info.remark := by decide +kernel
  have hdigit : '\n'.isDigit = false := by decide
  simp only [RuleInfo.tail, List.mem_cons, List.mem_append, not_or]
  exact ⟨by decide, Json.notMem_digits hdigit _, by decide, Json.notMem_digits hdigit _,
    hremarks r hr⟩

/-- A rule is known by the end of its lines. -/
theorem eq_of_remark_suffix (hr : r ∈ all) (hs : s ∈ all)
    (h : r.info.remark <:+ s.info.remark) : r = s := by
  have hremarks : ∀ r ∈ all, ∀ s ∈ all,
      r.info.remark <:+ s.info.remark → r.info.code = s.info.code := by
    decide +kernel
  exact eq_of_code_eq hr hs (hremarks r hr s hs h)

/-- **A line tells what it is made of**, whatever is in the path. -/
theorem eq_of_line_eq (hr : r ∈ all) (hs : s ∈ all) {l m : Location}
    (h : (r.info.finding l).line = (s.info.finding m).line) :
    r = s ∧ l.file.display = m.file.display ∧ l.line = m.line ∧ l.column = m.column := by
  have hchars : ∀ (r : Rule) (l : Location), (r.info.finding l).line.toList =
      ((l.file.display.toList ++ ':' :: Json.digits l.line) ++ ':' :: Json.digits l.column)
        ++ r.info.remark := by
    intro r l
    simp [RuleInfo.toList_line, RuleInfo.tail]
  have heq := congrArg String.toList h
  rw [hchars, hchars] at heq
  have hrule : r = s := by
    rcases List.suffix_or_suffix_of_suffix (List.suffix_append _ r.info.remark)
      (heq ▸ List.suffix_append _ s.info.remark) with hrs | hsr
    · exact eq_of_remark_suffix hr hs hrs
    · exact (eq_of_remark_suffix hs hr hsr).symm
  subst hrule
  have hcolon := Json.notMem_digits (c := ':') (by decide)
  obtain ⟨hfront, hcolumn⟩ :=
    Text.eq_of_append_cons_eq (hcolon _) (hcolon _) (List.append_cancel_right heq)
  obtain ⟨hfile, hline⟩ := Text.eq_of_append_cons_eq (hcolon _) (hcolon _) hfront
  exact ⟨rfl, String.toList_inj.mp hfile, Json.digits_inj hline, Json.digits_inj hcolumn⟩

end Rule

/-! ## Paths that imitate output -/

/-- A path is shown with a line of output at its beginning, the line feed included. -/
def Path.BeginsWithLine (path : Path) : Prop :=
  ∃ rule ∈ Rule.all, ∃ at_ : Location,
    (rule.info.finding at_).line.toList ++ ['\n'] <+: path.display.toList

theorem Path.BeginsWithLine.colon_mem {path : Path} (h : BeginsWithLine path) :
    ':' ∈ path.display.toList := by
  obtain ⟨rule, -, at_, hline⟩ := h
  refine hline.subset (List.mem_append_left _ ?_)
  rw [RuleInfo.toList_line]
  exact List.mem_append_right _ List.mem_cons_self

namespace Finding

/-- What is to be told of a finding: file, line, column, severity, code and message. -/
def told (f : Finding) : Path × Nat × Nat × Severity × String × String :=
  (f.location.file, f.location.line, f.location.column, f.severity, f.code, f.message)

/-- What a line tells of it: the same, but of the file what is shown of its path. -/
def shown (f : Finding) : String × Nat × Nat × Severity × String × String :=
  (f.location.file.display, f.told.2)

/-- A finding is what a rule of the catalogue says of a place. -/
def IsOfCatalogue (f : Finding) : Prop := ∃ rule ∈ Rule.all, f = rule.info.finding f.location

variable {f g : Finding}

theorem IsOfCatalogue.shown_eq (hf : f.IsOfCatalogue) (hg : g.IsOfCatalogue)
    (h : f.line = g.line) : f.shown = g.shown := by
  obtain ⟨rule, hrule, hf⟩ := hf
  obtain ⟨other, hother, hg⟩ := hg
  rw [hf, hg] at h ⊢
  obtain ⟨rfl, hfile, hline, hcolumn⟩ := Rule.eq_of_line_eq hrule hother h
  simp only [shown, told, RuleInfo.finding, hfile, hline, hcolumn]

/-- A line depends on what it tells. -/
theorem line_eq_of_shown_eq (h : f.shown = g.shown) : f.line = g.line := by
  simp only [shown, told, Prod.mk.injEq] at h
  obtain ⟨hfile, hline, hcolumn, hseverity, hcode, hmessage⟩ := h
  rw [line, line, hfile, hline, hcolumn, hseverity, hcode, hmessage]

/-- Where the file has a text for a path, the line tells the file. -/
theorem told_eq_of_shown_eq (hf : f.location.IsNamed) (hg : g.location.IsNamed)
    (h : f.shown = g.shown) : f.told = g.told := by
  obtain ⟨name, hname⟩ := hf
  obtain ⟨other, hother⟩ := hg
  have hfile := congrArg Prod.fst h
  have hrest : f.shown.2 = g.shown.2 := congrArg Prod.snd h
  dsimp only [shown] at hfile hrest
  rw [hname, hother, Path.display_ofString, Path.display_ofString] at hfile
  have hsame : f.location.file = g.location.file := by rw [hname, hother, hfile]
  exact Prod.ext hsame hrest

theorem IsOfCatalogue.exists_tail (hf : f.IsOfCatalogue) :
    ∃ tail, '\n' ∉ tail ∧ f.line.toList = f.location.file.display.toList ++ tail := by
  obtain ⟨rule, hrule, hf⟩ := hf
  refine ⟨rule.info.tail f.location, Rule.lineFeed_notMem_tail hrule f.location, ?_⟩
  rw [← RuleInfo.toList_line, ← hf]

/-- The line feeds of a line are those of the path. -/
theorem IsOfCatalogue.count_line (hf : f.IsOfCatalogue) :
    f.line.toList.count '\n' = f.location.file.bytes.count 10 := by
  obtain ⟨tail, htail, hline⟩ := hf.exists_tail
  rw [hline, List.count_append, List.count_eq_zero_of_not_mem htail, Nat.add_zero, Path.display,
    Utf8.count_lossy]

/-- A line goes on behind another one only if its path begins with that one. -/
theorem IsOfCatalogue.beginsWithLine_of_line_eq (hf : f.IsOfCatalogue) (hg : g.IsOfCatalogue)
    {rest : List Char} (h : g.line.toList = f.line.toList ++ '\n' :: rest) :
    Path.BeginsWithLine g.location.file := by
  obtain ⟨rule, hrule, hf⟩ := hf
  obtain ⟨tail, htail, hline⟩ := hg.exists_tail
  have hprefix : f.line.toList ++ ['\n'] <+: g.line.toList := ⟨rest, by rw [h]; simp⟩
  refine ⟨rule, hrule, f.location, ?_⟩
  rw [← hf]
  rcases List.prefix_or_prefix_of_prefix hprefix ⟨_, hline.symm⟩ with hinside | hpath
  · exact hinside
  · rcases List.prefix_concat_iff.mp hpath with heq | ⟨w, hw⟩
    · rw [heq]
    · -- the path ends inside the first line, so the line feed is in what stands behind the path
      rw [h, ← hw, List.append_assoc] at hline
      refine absurd ?_ htail
      rw [← List.append_cancel_left hline]
      exact List.mem_append_right w List.mem_cons_self

/-- **A finding is printed as two exactly if its path begins with a line.**  The first of the two
is the one whose line the path begins with, and the other one has the rest of the path. -/
theorem IsOfCatalogue.beginsWithLine_iff (hf : f.IsOfCatalogue) :
    Path.BeginsWithLine f.location.file ↔
      ∃ g h : Finding, g.IsOfCatalogue ∧ h.IsOfCatalogue ∧ f.line = g.line ++ "\n" ++ h.line := by
  constructor
  · rintro ⟨rule, hrule, at_, rest, hpath⟩
    obtain ⟨own, hown, hf⟩ := hf
    let place : Location := { f.location with file := String.ofList rest }
    refine ⟨rule.info.finding at_, own.info.finding place, ⟨rule, hrule, rfl⟩, ⟨own, hown, rfl⟩, ?_⟩
    rw [hf]
    apply String.toList_injective
    have hshown : place.file.display = String.ofList rest := Path.display_ofString _
    simp only [String.toList_append, RuleInfo.toList_line, hshown, String.toList_ofList, ← hpath]
    simp [RuleInfo.tail, place]
  · rintro ⟨g, h, hg, -, hline⟩
    have hchars : f.line.toList = g.line.toList ++ '\n' :: h.line.toList := by simp [hline]
    exact hg.beginsWithLine_of_line_eq hf hchars

/-! ## Rows of lines -/

/-- What depends on what the lines tell is the same of rows that tell the same. -/
theorem map_eq_of_map_shown_eq {β : Type} {φ : Finding → β} {fs gs : List Finding}
    (hφ : ∀ f ∈ fs, ∀ g ∈ gs, f.shown = g.shown → φ f = φ g) (h : fs.map shown = gs.map shown) :
    fs.map φ = gs.map φ := by
  induction fs generalizing gs with
  | nil =>
    rw [List.map_nil, eq_comm, List.map_eq_nil_iff] at h
    rw [h]
  | cons f fs ih =>
    cases gs with
    | nil => cases h
    | cons g gs =>
      obtain ⟨hshown, hrest⟩ := List.cons.inj h
      have htail :=
        ih (fun f hf g hg => hφ f (List.mem_cons_of_mem _ hf) g (List.mem_cons_of_mem _ hg)) hrest
      rw [List.map_cons, List.map_cons, htail,
        hφ f List.mem_cons_self g List.mem_cons_self hshown]

/-- **Rows of lines can be told apart** if no path begins with a line. -/
theorem map_shown_eq_of_lines_eq {fs gs : List Finding}
    (hfs : ∀ f ∈ fs, f.IsOfCatalogue ∧ ¬Path.BeginsWithLine f.location.file)
    (hgs : ∀ g ∈ gs, g.IsOfCatalogue ∧ ¬Path.BeginsWithLine g.location.file)
    (h : (fs.flatMap fun f => f.line.toList ++ ['\n']) =
      gs.flatMap fun g => g.line.toList ++ ['\n']) :
    fs.map shown = gs.map shown := by
  induction fs generalizing gs with
  | nil =>
    cases gs with
    | nil => rfl
    | cons g gs => simp at h
  | cons f fs ih =>
    cases gs with
    | nil => simp at h
    | cons g gs =>
      obtain ⟨⟨hf, hfpath⟩, hfs⟩ := List.forall_mem_cons.mp hfs
      obtain ⟨⟨hg, hgpath⟩, hgs⟩ := List.forall_mem_cons.mp hgs
      simp only [List.flatMap_cons, List.append_assoc, List.singleton_append] at h
      rcases Text.eq_or_of_append_cons_eq h with ⟨hline, hrest⟩ | ⟨c, hc, -⟩ | ⟨c, hc, -⟩
      · rw [List.map_cons, List.map_cons, ih hfs hgs hrest,
          hf.shown_eq hg (String.toList_inj.mp hline)]
      · exact absurd (hf.beginsWithLine_of_line_eq hg hc) hgpath
      · exact absurd (hg.beginsWithLine_of_line_eq hf hc) hfpath

end Finding

namespace Report

theorem toList_compact (r : Report) :
    r.compact.toList = r.findings.flatMap fun f => f.line.toList ++ ['\n'] := by
  rw [compact, Text.toList_unlines, List.flatMap_map]

/-- A line feed for each finding, and one for each in its path. -/
theorem count_compact {r : Report} (h : ∀ f ∈ r.findings, f.IsOfCatalogue) :
    r.compact.toList.count '\n' = r.findings.length
      + (r.findings.map fun f => f.location.file.bytes.count 10).sum := by
  rw [toList_compact]
  generalize r.findings = fs at h
  induction fs with
  | nil => rfl
  | cons f fs ih =>
    obtain ⟨hf, hfs⟩ := List.forall_mem_cons.mp h
    rw [List.flatMap_cons, List.count_append, List.count_append, hf.count_line,
      List.count_singleton_self, ih hfs, List.length_cons, List.map_cons, List.sum_cons]
    omega

end Report

namespace Analysis

variable {a b : Analysis} {t u : FileTree} {r s : Report}

/-- **Line feeds in paths, and paths that are no text, are all that compact output is led astray
by.**  It has a line feed for each finding and one more for each line feed in the path of a finding,
so the lines count the findings exactly if there is none in the paths.  A finding is printed as two
exactly if its path begins with a whole line of output.  Two results without such paths are printed
alike exactly if they have the same findings, by line, column, severity, code, message and what is
shown of the file; and if all files have texts for paths, then by the file itself. -/
theorem compact_tells_findings (ha : ∀ rule ∈ a.engine.rules, rule ∈ Rule.all)
    (hb : ∀ rule ∈ b.engine.rules, rule ∈ Rule.all) (hr : (a.run t).result = .ok r)
    (hs : (b.run u).result = .ok s) :
    r.compact.toList.count '\n' = r.findings.length
        + (r.findings.map fun f => f.location.file.bytes.count 10).sum
      ∧ (r.compact.toList.count '\n' = r.findings.length ↔
        ∀ f ∈ r.findings, 10 ∉ f.location.file.bytes)
      ∧ (∀ f ∈ r.findings, Path.BeginsWithLine f.location.file ↔ ∃ g h : Finding,
        g.IsOfCatalogue ∧ h.IsOfCatalogue ∧ f.line = g.line ++ "\n" ++ h.line)
      ∧ ((∀ f ∈ r.findings ++ s.findings, ¬Path.BeginsWithLine f.location.file) →
        (r.compact = s.compact ↔ r.findings.map Finding.shown = s.findings.map Finding.shown)
          ∧ ((∀ f ∈ r.findings ++ s.findings, f.location.IsNamed) → r.compact = s.compact →
            r.findings.map Finding.told = s.findings.map Finding.told)) := by
  have hcatalogue : ∀ f ∈ r.findings, f.IsOfCatalogue := fun f => exists_rule_of_mem ha hr
  have hcount := Report.count_compact hcatalogue
  refine ⟨hcount, ?_, fun f hf => (hcatalogue f hf).beginsWithLine_iff, fun hpaths => ?_⟩
  · rw [hcount, Nat.add_eq_left, List.sum_eq_zero_iff_forall_eq_nat]
    simp [List.count_eq_zero]
  · rw [List.forall_mem_append] at hpaths
    have hshown (hcompact : r.compact = s.compact) :
        r.findings.map Finding.shown = s.findings.map Finding.shown := by
      refine Finding.map_shown_eq_of_lines_eq (fun f hf => ⟨hcatalogue f hf, hpaths.1 f hf⟩)
        (fun g hg => ⟨exists_rule_of_mem hb hs hg, hpaths.2 g hg⟩) ?_
      rw [← Report.toList_compact, ← Report.toList_compact, hcompact]
    refine ⟨⟨hshown, fun h => ?_⟩, fun hnamed hcompact => ?_⟩
    · have hlines := Finding.map_eq_of_map_shown_eq
        (fun f _ g _ => Finding.line_eq_of_shown_eq (f := f) (g := g)) h
      rw [Report.compact, Report.compact, hlines]
    · rw [List.forall_mem_append] at hnamed
      exact Finding.map_eq_of_map_shown_eq
        (fun f hf g hg => Finding.told_eq_of_shown_eq (hnamed.1 f hf) (hnamed.2 g hg))
        (hshown hcompact)

/-- A line feed in a path makes a line more, but the path begins with no line of output, so the
result is told from one with another path. -/
theorem compact_tells_findings_of_line_feed :
    let text := "class AggregateA { AggregateA() { } }"
    let a : Analysis :=
      { search := { root := "/" }, engine := { rules := Rule.all }, strict := false }
    let t (name : Path) : FileTree := ⟨[(name, .file text.toUTF8)]⟩
    let r (name : Path) : Report :=
      ⟨[Rule.publicDefaultConstructor.info.finding ⟨name, 1, 20, 19, 16⟩], 1⟩
    (a.engine.rules = Rule.all
        ∧ ∀ name : Path, name = "a\nb.cs" ∨ name = "b.cs" →
          (a.run (t name)).result = .ok (r name) ∧ ¬Path.BeginsWithLine name)
      ∧ (r "a\nb.cs").compact.toList.count '\n' = 2
      ∧ (r "a\nb.cs").compact ≠ (r "b.cs").compact := by
  intro text a t r
  have hrules : ∀ rule ∈ a.engine.rules, rule ∈ Rule.all := fun rule hrule => hrule
  have hknown : ∀ name : Path, name = "a\nb.cs" ∨ name = "b.cs" →
      (a.run (t name)).result = .ok (r name) ∧ ¬Path.BeginsWithLine name := by
    intro name hname
    have hcolon : ':' ∉ name.display.toList := by rcases hname with rfl | rfl <;> decide +kernel
    have hfound : a.search.candidates (t name) = .ok [name] := by
      rcases hname with rfl | rfl <;> decide +kernel
    have hread : (t name).readText "/" (a.search.fullPath name) = .ok text := by
      rcases hname with rfl | rfl <;> decide +kernel
    have hfinding : a.engine.findingsInText name text = (r name).findings := by
      rcases hname with rfl | rfl <;> decide +kernel
    exact ⟨run_result_of_single rfl rfl hfound rfl hread hfinding (List.pairwise_singleton _ _),
      fun h => hcolon h.colon_mem⟩
  obtain ⟨hr, hpath⟩ := hknown "a\nb.cs" (.inl rfl)
  obtain ⟨hs, hother⟩ := hknown "b.cs" (.inr rfl)
  obtain ⟨hcount, -, -, htold⟩ := compact_tells_findings hrules hrules hr hs
  refine ⟨⟨rfl, hknown⟩, hcount.trans (by decide +kernel), fun hcompact => ?_⟩
  have hnone : ∀ f ∈ (r "a\nb.cs").findings ++ (r "b.cs").findings,
      ¬Path.BeginsWithLine f.location.file :=
    List.forall_mem_cons.mpr ⟨hpath, List.forall_mem_singleton.mpr hother⟩
  have hshown := (htold hnone).1.mp hcompact
  exact absurd hshown (by decide +kernel)

/-- **Names that lead astray.**  A file that is named as if it were output: one finding is printed
as two lines, and they are those of two findings in other files.  And two files with names that are
no text: what is shown of them is the same. -/
theorem compact_of_forged_name :
    let text := "class AggregateA { AggregateA() { } }"
    let forged : Path := "a.cs:1:20: error [AG0004] "
      ++ "The parameterless constructor of an aggregate must be public\nb.cs"
    let broken (b : UInt8) : Path := ⟨b :: Utf8.encode ".cs"⟩
    let a : Analysis :=
      { search := { root := "/" }, engine := { rules := Rule.all }, strict := false }
    let t (names : List Path) : FileTree := ⟨names.map fun name => (name, .file text.toUTF8)⟩
    (∃ r s, (a.run (t [forged])).result = .ok r ∧ (a.run (t ["a.cs", "b.cs"])).result = .ok s
        ∧ r.findings.length = 1 ∧ r.compact.toList.count '\n' = 2
        ∧ r.findings.map Finding.told ≠ s.findings.map Finding.told ∧ r.compact = s.compact)
      ∧ ∃ r s, (a.run (t [broken 0xFF])).result = .ok r ∧ (a.run (t [broken 0xFE])).result = .ok s
        ∧ r.findings.map Finding.told ≠ s.findings.map Finding.told ∧ r.compact = s.compact := by
  intro text forged broken a t
  let f (file : Path) : Finding :=
    Rule.publicDefaultConstructor.info.finding ⟨file, 1, 20, 19, 16⟩
  have hsingle : ∀ name : Path, name = forged ∨ name = broken 0xFF ∨ name = broken 0xFE →
      (a.run (t [name])).result = .ok ⟨[f name], 1⟩ := by
    intro name hname
    have hfound : a.search.candidates (t [name]) = .ok [name] := by
      rcases hname with rfl | rfl | rfl <;> decide +kernel
    have hread : (t [name]).readText "/" (a.search.fullPath name) = .ok text := by
      rcases hname with rfl | rfl | rfl <;> decide +kernel
    have hfinding : a.engine.findingsInText name text = [f name] := by
      rcases hname with rfl | rfl | rfl <;> decide +kernel
    exact run_result_of_single rfl rfl hfound rfl hread hfinding (List.pairwise_singleton _ _)
  have hs : (a.run (t ["a.cs", "b.cs"])).result = .ok ⟨[f "a.cs", f "b.cs"], 2⟩ := by
    let names : List Path := ["a.cs", "b.cs"]
    have hfound : a.search.candidates (t names) = .ok names := by decide +kernel
    have hordered : a.search.ordered names = names :=
      List.mergeSort_of_pairwise (by decide +kernel)
    have htexts : a.texts (t names) names =
        [(Path.ofString "a.cs", text), (Path.ofString "b.cs", text)] := by
      decide +kernel
    have hfindings : ([(Path.ofString "a.cs", text), (Path.ofString "b.cs", text)].flatMap fun p =>
        a.engine.findingsInText p.1 p.2) = [f "a.cs", f "b.cs"] := by decide +kernel
    have hsorted : [f "a.cs", f "b.cs"].mergeSort Finding.mayPrecede = [f "a.cs", f "b.cs"] :=
      List.mergeSort_of_pairwise (by decide +kernel)
    rw [run_result_eq_texts rfl rfl hfound, hordered, htexts, hfindings, Report.sort, hsorted]
    rfl
  refine ⟨⟨_, _, hsingle _ (.inl rfl), hs, rfl, ?_, ?_, ?_⟩,
    ⟨_, _, hsingle _ (.inr (.inl rfl)), hsingle _ (.inr (.inr rfl)), ?_, ?_⟩⟩
  · decide +kernel
  · decide +kernel
  · decide +kernel
  · decide +kernel
  · decide +kernel

end Analysis
end AggregateAudit
