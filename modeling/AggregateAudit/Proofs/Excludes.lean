import AggregateAudit.Proofs.Composition

/-!
# Exclude patterns only filter

An exclude pattern is looked at while files are searched, long before there are findings,
and yet all that it does to a report can be said about the report: the findings in the files
that it matches are gone, and these files are not counted.  Nothing else changes, neither
the order of what is left nor anything inside it.

The search drops paths, and the report filters by the files that findings name, so what has
to be seen is that these are the same texts (`Engine.file_of_mem_findingsInText`); the rest
is that filtering goes through sorting, twice (`Search.ordered_of_isExcluded`,
`Report.findings_sort_filter`).  A path is excluded if *some* pattern matches it, so only the
set of patterns counts: their order, how often each is given, and whether it stands in the
options or in the configuration leave no trace (`Exclusion.anyExcludes_congr`).

Patterns are read before anything is searched, those of the options first, and the first
faulty one ends the set-up (`Exclusion.parseAll_eq_error_iff`).
-/

namespace AggregateAudit

/-! ## Rows of patterns -/

namespace Exclusion

/-- Whether a text can be read as a pattern. -/
def IsPattern (p : String) : Prop := ∃ glob, Glob.parse p = .ok glob

/-- Whether some pattern of a row excludes a path. -/
def anyExcludes (patterns : List String) (path : Path) : Bool :=
  patterns.any fun p =>
    match parse p with
    | .ok e => e.excludes path
    | .error _ => false

theorem map_eq_error_iff {ε α β : Type} {f : α → β} {x : Except ε α} {e : ε} :
    x.map f = .error e ↔ x = .error e := by
  cases x <;> simp [Except.map]

theorem isPattern_of_parse {p : String} {e : Exclusion} (h : parse p = .ok e) : IsPattern p := by
  rw [parse] at h
  cases hglob : Glob.parse p with
  | ok glob => exact ⟨glob, hglob⟩
  | error fault =>
    rw [hglob] at h
    cases h

theorem parse_eq_error_iff {p : String} {fault : Glob.Fault} :
    parse p = .error fault ↔ Glob.parse p = .error fault := by
  rw [parse, map_eq_error_iff]

/-- What can be read as a pattern has no fault. -/
theorem IsPattern.parse_ne_error {p : String} (h : IsPattern p) (fault : Glob.Fault) :
    parse p ≠ .error fault := by
  obtain ⟨glob, hglob⟩ := h
  rw [ne_eq, parse_eq_error_iff, hglob]
  simp

/-- One pattern is read after the other. -/
theorem parseAll_cons (p : String) (ps : List String) :
    parseAll (p :: ps) =
      match parse p with
      | .error fault => .error fault
      | .ok e => (parseAll ps).map (e :: ·) := by
  rw [parseAll]
  cases parse p with
  | error fault => rfl
  | ok e => cases parseAll ps <;> rfl

/-- **The first faulty pattern is the fault.** -/
theorem parseAll_eq_error_iff {patterns : List String} {fault : Glob.Fault} :
    parseAll patterns = .error fault ↔
      ∃ before p after, patterns = before ++ p :: after ∧ (∀ q ∈ before, IsPattern q)
        ∧ Glob.parse p = .error fault := by
  induction patterns with
  | nil => simp [parseAll]
  | cons first rest ih =>
    rw [parseAll_cons]
    cases hfirst : parse first with
    | error f =>
      constructor
      · intro h
        cases h
        exact ⟨[], first, rest, rfl, fun q hq => absurd hq List.not_mem_nil,
          parse_eq_error_iff.mp hfirst⟩
      · rintro ⟨before, p, after, hsplit, hbefore, hp⟩
        cases before with
        | nil =>
          obtain ⟨rfl, -⟩ := List.cons.inj hsplit
          have hfault := hfirst.symm.trans (parse_eq_error_iff.mpr hp)
          cases hfault
          rfl
        | cons q before =>
          obtain ⟨rfl, -⟩ := List.cons.inj hsplit
          exact absurd hfirst ((hbefore _ List.mem_cons_self).parse_ne_error f)
    | ok e =>
      have hpattern := isPattern_of_parse hfirst
      dsimp only
      rw [map_eq_error_iff, ih]
      constructor
      · rintro ⟨before, p, after, rfl, hbefore, hp⟩
        exact ⟨first :: before, p, after, rfl, List.forall_mem_cons.mpr ⟨hpattern, hbefore⟩, hp⟩
      · rintro ⟨before, p, after, hsplit, hbefore, hp⟩
        cases before with
        | nil =>
          obtain ⟨rfl, -⟩ := List.cons.inj hsplit
          exact absurd (parse_eq_error_iff.mpr hp) (hpattern.parse_ne_error fault)
        | cons q before =>
          exact ⟨before, p, after, (List.cons.inj hsplit).2,
            (List.forall_mem_cons.mp hbefore).2, hp⟩

/-- Every pattern of a row without a fault can be read. -/
theorem isPattern_of_parseAll {patterns : List String} {es : List Exclusion}
    (h : parseAll patterns = .ok es) : ∀ p ∈ patterns, IsPattern p := by
  induction patterns generalizing es with
  | nil => exact fun p hp => absurd hp List.not_mem_nil
  | cons first rest ih =>
    rw [parseAll_cons] at h
    cases hfirst : parse first with
    | error f =>
      rw [hfirst] at h
      cases h
    | ok e =>
      rw [hfirst] at h
      cases hrest : parseAll rest with
      | error f =>
        rw [hrest] at h
        cases h
      | ok es => exact List.forall_mem_cons.mpr ⟨isPattern_of_parse hfirst, ih hrest⟩

/-- A row has a fault exactly if one of its patterns has one. -/
theorem exists_parseAll_eq_error_iff {patterns : List String} :
    (∃ fault, parseAll patterns = .error fault) ↔ ∃ p ∈ patterns, ¬IsPattern p := by
  constructor
  · rintro ⟨fault, h⟩
    obtain ⟨before, p, after, rfl, -, hp⟩ := parseAll_eq_error_iff.mp h
    refine ⟨p, by simp, ?_⟩
    rintro ⟨glob, hglob⟩
    rw [hp] at hglob
    cases hglob
  · rintro ⟨p, hmem, hp⟩
    cases h : parseAll patterns with
    | error fault => exact ⟨fault, rfl⟩
    | ok es => exact absurd (isPattern_of_parseAll h p hmem) hp

/-- Patterns that can be read are read. -/
theorem exists_parseAll_eq_ok {patterns : List String} (h : ∀ p ∈ patterns, IsPattern p) :
    ∃ es, parseAll patterns = .ok es := by
  cases hparse : parseAll patterns with
  | ok es => exact ⟨es, rfl⟩
  | error fault =>
    obtain ⟨p, hmem, hp⟩ := exists_parseAll_eq_error_iff.mp ⟨fault, hparse⟩
    exact absurd (h p hmem) hp

/-- A row of patterns that can be read excludes what some pattern of it excludes. -/
theorem any_excludes {patterns : List String} {es : List Exclusion}
    (h : parseAll patterns = .ok es) (path : Path) :
    es.any (·.excludes path) = anyExcludes patterns path := by
  induction patterns generalizing es with
  | nil =>
    cases h
    rfl
  | cons p ps ih =>
    rw [parseAll_cons] at h
    rw [anyExcludes, List.any_cons]
    cases hp : parse p with
    | error f =>
      rw [hp] at h
      cases h
    | ok e =>
      rw [hp] at h
      cases hps : parseAll ps with
      | error f =>
        rw [hps] at h
        cases h
      | ok rest =>
        rw [hps] at h
        cases h
        rw [List.any_cons, ih hps]
        rfl

theorem anyExcludes_append (ps qs : List String) (path : Path) :
    anyExcludes (ps ++ qs) path = (anyExcludes ps path || anyExcludes qs path) :=
  List.any_append

/-- Only which patterns there are counts. -/
theorem anyExcludes_congr {ps qs : List String} (h : ∀ p, p ∈ ps ↔ p ∈ qs) (path : Path) :
    anyExcludes ps path = anyExcludes qs path := by
  rw [Bool.eq_iff_iff, anyExcludes, anyExcludes, List.any_eq_true, List.any_eq_true]
  exact exists_congr fun p => and_congr_left fun _ => h p

end Exclusion

/-! ## Runs with more and fewer patterns -/

/-- The options with one row of patterns of their own and another one in their
configuration. -/
def AnalysisOptions.withPatterns (o : AnalysisOptions) (own configured : List String) :
    AnalysisOptions :=
  { o with
    exclude := own
    config := { o.config with analyzer := { o.config.analyzer with exclude := configured } } }

/-- Setting up is seeing the root and reading the patterns, those of the options first. -/
theorem Analysis.build_withPatterns (o : AnalysisOptions) (cwd : Path)
    (own configured : List String) :
    Analysis.build cwd (o.withPatterns own configured) =
      match o.lost?, Exclusion.parseAll (own ++ configured) with
      | some f, _ => .error (.directory f)
      | none, .error f => .error (.badPattern f)
      | none, .ok es => .ok (o.excluding cwd es) :=
  Analysis.build_eq cwd (o.withPatterns own configured)

namespace Search

variable {s fewer : Search} {keep : Path → Bool}

/-- A search that excludes more looks at what is left, in the same order. -/
theorem ordered_of_isExcluded (h : ∀ p, (!s.isExcluded p) = (!fewer.isExcluded p && keep p))
    (found : List Path) : s.ordered found = (fewer.ordered found).filter keep := by
  have hfilter : found.filter (fun p => !s.isExcluded p) =
      (found.filter fun p => !fewer.isExcluded p).filter keep := by
    rw [List.filter_filter]
    refine List.filter_congr fun p _ => ?_
    rw [h, Bool.and_comm]
  rw [ordered, ordered, hfilter,
    filter_mergeSort (fun a b c => Path.bne_gt_trans _ _ _) (fun a b => Path.bne_gt_total _ _)]

end Search

namespace Analysis

variable {a : Analysis} {t : FileTree}

/-- Whether a file that was found can be read. -/
def isReadable (a : Analysis) (t : FileTree) (path : Path) : Bool :=
  (t.readText a.search.cwd (a.search.fullPath path)).toBool

/-- The readable ones of some of the files are some of the readable files. -/
theorem texts_filter (keep : Path → Bool) (files : List Path) :
    a.texts t (files.filter keep) = (a.texts t files).filter fun p => keep p.1 := by
  rw [texts, texts, List.filterMap_filter, List.filter_filterMap]
  refine List.filterMap_congr fun p _ => ?_
  cases t.readText a.search.cwd (a.search.fullPath p) with
  | ok text => rfl
  | error f => simp

/-- As many files are read as can be read. -/
theorem length_texts (files : List Path) :
    (a.texts t files).length = files.countP (a.isReadable t) := by
  induction files with
  | nil => rfl
  | cons p files ih =>
    rw [texts] at ih ⊢
    rw [List.filterMap_cons, List.countP_cons, ← ih, isReadable]
    cases t.readText a.search.cwd (a.search.fullPath p) <;> rfl

/-- The files that are looked at are counted like the ones that were found. -/
theorem length_texts_ordered (found : List Path) :
    (a.texts t (a.search.ordered found)).length =
      found.countP fun p => a.isReadable t p && !a.search.isExcluded p := by
  rw [length_texts, Search.ordered, (List.mergeSort_perm _ _).countP_eq, List.countP_filter]

end Analysis

/-- The findings in some of the files. -/
theorem Engine.flatMap_findingsInText_filter {e : Engine} (he : e.ReportsInPlace)
    (keep : Path → Bool) (files : List (Path × String)) :
    (files.filter fun p => keep p.1).flatMap (fun p => e.findingsInText p.1 p.2) =
      (files.flatMap fun p => e.findingsInText p.1 p.2).filter fun f => keep f.location.file := by
  induction files with
  | nil => rfl
  | cons p files ih =>
    have hfile : ∀ f ∈ e.findingsInText p.1 p.2, keep f.location.file = keep p.1 := by
      intro f hf
      rw [file_of_mem_findingsInText he hf]
    rw [List.flatMap_cons, List.filter_append, ← ih, List.filter_congr hfile, List.filter_cons]
    cases keep p.1 with
    | false => simp
    | true => simp

namespace Analysis

variable {t : FileTree} {found : List Path} {keep : Path → Bool}

/-- **What an analysis comes to that excludes more files and is otherwise the same.** -/
theorem run_result_of_isExcluded (a fewer : Analysis) (hlenient : a.strict = false)
    (hworkers : a.refusal? = none)
    (hsame : fewer = { a with search := { a.search with exclusions := fewer.search.exclusions } })
    (hkeep : ∀ p, (!a.search.isExcluded p) = (!fewer.search.isExcluded p && keep p))
    (hfound : a.search.candidates t = .ok found) :
    ∃ (files : List (Path × String)) (alone together : Report),
      (fewer.run t).result = .ok alone ∧ (a.run t).result = .ok together
      ∧ (∀ p text, (p, text) ∈ files ↔ p ∈ found ∧ fewer.search.isExcluded p = false
        ∧ t.readText a.search.cwd (a.search.fullPath p) = .ok text)
      ∧ alone = Report.sort ⟨files.flatMap fun p => a.engine.findingsInText p.1 p.2, files.length⟩
      ∧ together = Report.sort ⟨(files.filter fun p => keep p.1).flatMap fun p =>
          a.engine.findingsInText p.1 p.2, (files.filter fun p => keep p.1).length⟩
      ∧ files.length = found.countP (fun p => a.isReadable t p && !fewer.search.isExcluded p)
      ∧ (files.filter fun p => keep p.1).length =
        found.countP (fun p => (a.isReadable t p && !fewer.search.isExcluded p) && keep p) := by
  have hengine : fewer.engine = a.engine := by rw [hsame]
  have hstrict : fewer.strict = false := by rw [hsame]; exact hlenient
  have hstart : fewer.refusal? = none := by rw [hsame]; exact hworkers
  have hfewer : fewer.search.candidates t = .ok found := by rw [hsame]; exact hfound
  have htexts : fewer.texts t = a.texts t := by rw [hsame]; rfl
  have hreadable : fewer.isReadable t = a.isReadable t := by rw [hsame]; rfl
  have hordered : a.search.ordered found = (fewer.search.ordered found).filter keep :=
    Search.ordered_of_isExcluded hkeep found
  refine ⟨fewer.texts t (fewer.search.ordered found), _, _,
    run_result_eq_texts hstrict hstart hfewer, run_result_eq_texts hlenient hworkers hfound,
    ?_, ?_, ?_, ?_, ?_⟩
  · intro p text
    rw [htexts, mem_texts, Search.mem_ordered, and_assoc]
  · rw [hengine]
  · rw [hordered, texts_filter, htexts]
  · rw [← hreadable]
    exact length_texts_ordered found
  · rw [htexts, ← texts_filter, ← hordered]
    refine (length_texts_ordered found).trans ?_
    refine List.countP_congr fun p _ => ?_
    rw [hkeep, Bool.and_assoc]

end Analysis

/-! ## Patterns in two places -/

/-- Whether two rows hold the patterns of a third one between them, in whatever order and
however often. -/
def Exclusion.AreGiven (own configured patterns : List String) : Prop :=
  ∀ p, (p ∈ own ∨ p ∈ configured) ↔ p ∈ patterns

/-- Of the files that were found, those that no pattern of a row excludes and that can be
read. -/
def AnalysisOptions.inputs (o : AnalysisOptions) (cwd : Path) (t : FileTree)
    (found : List Path) (patterns : List String) : List Path :=
  found.filter fun p =>
    (t.readText cwd ((o.search cwd).fullPath p)).toBool && !Exclusion.anyExcludes patterns p

/-- What exclude patterns do to an analysis, and all that they do. -/
structure AnalysisOptions.ExcludesOnlyFilter (o : AnalysisOptions) (cwd : Path) (t : FileTree) :
    Prop where
  /-- Setting up fails exactly if the root cannot be told or some pattern is faulty. -/
  fails_iff : ∀ own configured,
    (∃ f, Analysis.build cwd (o.withPatterns own configured) = .error f) ↔
      o.lost? ≠ none ∨ ∃ p ∈ own ++ configured, ¬Exclusion.IsPattern p
  /-- It fails with what is wrong with the root, and else with the fault of the first faulty
  pattern, those of the options first. -/
  first : ∀ own configured f, Analysis.build cwd (o.withPatterns own configured) = .error f →
    (∃ fault, o.lost? = some fault ∧ f = .directory fault)
      ∨ o.lost? = none ∧ ∃ before p after fault, own ++ configured = before ++ p :: after
        ∧ (∀ q ∈ before, Exclusion.IsPattern q) ∧ Glob.parse p = .error fault
        ∧ f = .badPattern fault
  /-- If files can be looked for and the workers that are asked for are started, then the patterns
  `P` lead to one report and the patterns `P` and `Q` to another one, wherever each of them is
  given.  The first report is what the rules find in the readable files that `P` does not match,
  sorted, and the second one is what they find in those of them that `Q` does not match.  If the
  rules report in place then these are the findings of the first report that are located in such
  files, in the same order. -/
  filters : o.isStrict = false → o.lost? = none → o.workers.bind o.workerFault = none →
    ∀ P Q found, (∀ p ∈ P ++ Q, Exclusion.IsPattern p) → (o.search cwd).candidates t = .ok found →
      ∃ (files : List (Path × String)) (alone together : Report),
        (∀ own configured, Exclusion.AreGiven own configured P →
          (o.withPatterns own configured).analyze cwd t = .ok alone)
        ∧ (∀ own configured, Exclusion.AreGiven own configured (P ++ Q) →
          (o.withPatterns own configured).analyze cwd t = .ok together)
        ∧ (∀ p text, (p, text) ∈ files ↔ p ∈ found ∧ Exclusion.anyExcludes P p = false
          ∧ t.readText cwd ((o.search cwd).fullPath p) = .ok text)
        ∧ (let kept := files.filter fun p => !Exclusion.anyExcludes Q p.1
          alone = Report.sort
              ⟨files.flatMap fun p => o.engine.findingsInText p.1 p.2, files.length⟩
            ∧ together = Report.sort
              ⟨kept.flatMap fun p => o.engine.findingsInText p.1 p.2, kept.length⟩)
        ∧ (o.engine.ReportsInPlace → together.findings =
          alone.findings.filter fun f => !Exclusion.anyExcludes Q f.location.file)
        ∧ alone.filesChecked = (o.inputs cwd t found P).length
        ∧ together.filesChecked =
          (o.inputs cwd t found P).countP fun p => !Exclusion.anyExcludes Q p

namespace AnalysisOptions

variable {o : AnalysisOptions} {cwd : Path} {t : FileTree}

/-- Patterns that exclude the same files lead to the same report. -/
theorem result_excluding_congr {es others : List Exclusion}
    (h : ∀ p, es.any (·.excludes p) = others.any (·.excludes p)) (hlenient : o.isStrict = false)
    (hworkers : o.workers.bind o.workerFault = none) {found : List Path}
    (hfound : (o.search cwd).candidates t = .ok found) :
    ((o.excluding cwd es).run t).result = ((o.excluding cwd others).run t).result := by
  have hordered : (o.excluding cwd es).search.ordered found =
      (o.excluding cwd others).search.ordered found := by
    rw [Search.ordered, Search.ordered]
    congr 1
    refine List.filter_congr fun p _ => ?_
    rw [Search.isExcluded, Search.isExcluded]
    exact congrArg (!·) (h p)
  have hresult : ∀ es, ((o.excluding cwd es).run t).result = .ok (Report.sort
      ⟨((o.excluding cwd es).texts t ((o.excluding cwd es).search.ordered found)).flatMap fun p =>
        o.engine.findingsInText p.1 p.2,
      ((o.excluding cwd es).texts t ((o.excluding cwd es).search.ordered found)).length⟩) :=
    fun es => Analysis.run_result_eq_texts (a := o.excluding cwd es) hlenient hworkers hfound
  rw [hresult, hresult, hordered]
  rfl

/-- Wherever patterns are given, they come to what they come to in one row. -/
theorem analyze_of_areGiven {patterns own configured : List String} {es : List Exclusion}
    (hparse : Exclusion.parseAll patterns = .ok es)
    (hgiven : Exclusion.AreGiven own configured patterns) (hlenient : o.isStrict = false)
    (hlost : o.lost? = none) (hworkers : o.workers.bind o.workerFault = none) {found : List Path}
    (hfound : (o.search cwd).candidates t = .ok found) :
    (o.withPatterns own configured).analyze cwd t = ((o.excluding cwd es).run t).result := by
  have hmem : ∀ p, p ∈ own ++ configured ↔ p ∈ patterns := by
    intro p
    rw [List.mem_append]
    exact hgiven p
  obtain ⟨others, hothers⟩ := Exclusion.exists_parseAll_eq_ok fun p hp =>
    Exclusion.isPattern_of_parseAll hparse p ((hmem p).mp hp)
  rw [analyze, Analysis.build_withPatterns, hlost, hothers]
  refine result_excluding_congr ?_ hlenient hworkers hfound
  intro p
  rw [Exclusion.any_excludes hothers, Exclusion.any_excludes hparse,
    Exclusion.anyExcludes_congr hmem]

/-- **Exclude patterns only filter.**  For every tree, working directory and set-up, and in
particular for every one whose rules are rules of the catalogue, which report in place. -/
theorem excludesOnlyFilter (o : AnalysisOptions) (cwd : Path) (t : FileTree) :
    o.ExcludesOnlyFilter cwd t
      ∧ ((∀ r ∈ o.engine.rules, r ∈ Rule.all) → o.engine.ReportsInPlace) := by
  refine ⟨⟨?fails_iff, ?first, ?filters⟩, Engine.reportsInPlace_of_catalogue⟩
  case fails_iff =>
    intro own configured
    rw [← Exclusion.exists_parseAll_eq_error_iff, Analysis.build_withPatterns]
    cases o.lost? with
    | some f => simp
    | none => cases Exclusion.parseAll (own ++ configured) <;> simp
  case first =>
    intro own configured f h
    rw [Analysis.build_withPatterns] at h
    cases hlost : o.lost? with
    | some fault =>
      rw [hlost] at h
      cases h
      exact .inl ⟨fault, rfl, rfl⟩
    | none =>
      rw [hlost] at h
      cases hparse : Exclusion.parseAll (own ++ configured) with
      | ok es =>
        rw [hparse] at h
        cases h
      | error fault =>
        rw [hparse] at h
        cases h
        obtain ⟨before, p, after, hsplit, hbefore, hp⟩ := Exclusion.parseAll_eq_error_iff.mp hparse
        exact .inr ⟨rfl, before, p, after, fault, hsplit, hbefore, hp, rfl⟩
  case filters =>
    intro hlenient hlost hworkers P Q found hpatterns hfound
    obtain ⟨few, hfew⟩ := Exclusion.exists_parseAll_eq_ok fun p hp =>
      hpatterns p (List.mem_append_left Q hp)
    obtain ⟨all, hall⟩ := Exclusion.exists_parseAll_eq_ok hpatterns
    have hexcluded : ∀ p, (o.excluding cwd few).search.isExcluded p = Exclusion.anyExcludes P p :=
      fun p => Exclusion.any_excludes hfew p
    have hkeep : ∀ p, (!(o.excluding cwd all).search.isExcluded p) =
        (!(o.excluding cwd few).search.isExcluded p && !Exclusion.anyExcludes Q p) := by
      intro p
      have hany : (o.excluding cwd all).search.isExcluded p =
          (Exclusion.anyExcludes P p || Exclusion.anyExcludes Q p) := by
        rw [← Exclusion.anyExcludes_append]
        exact Exclusion.any_excludes hall p
      rw [hany, hexcluded, Bool.not_or]
    obtain ⟨files, alone, together, halone, htogether, hmem, rfl, rfl, hcount, hless⟩ :=
      Analysis.run_result_of_isExcluded (o.excluding cwd all) (o.excluding cwd few) hlenient
        hworkers rfl hkeep hfound
    have hinputs : o.inputs cwd t found P = found.filter fun p =>
        (o.excluding cwd all).isReadable t p && !(o.excluding cwd few).search.isExcluded p := by
      refine List.filter_congr fun p _ => ?_
      rw [hexcluded]
      rfl
    refine ⟨files, _, _, ?_, ?_, ?_, ⟨rfl, rfl⟩, ?_, ?_, ?_⟩
    · intro own configured hgiven
      rw [analyze_of_areGiven hfew hgiven hlenient hlost hworkers hfound, halone]
      rfl
    · intro own configured hgiven
      rw [analyze_of_areGiven hall hgiven hlenient hlost hworkers hfound, htogether]
      rfl
    · intro p text
      rw [hmem, hexcluded]
      rfl
    · intro hplace
      rw [Engine.flatMap_findingsInText_filter hplace fun p => !Exclusion.anyExcludes Q p,
        ← Report.findings_sort_filter]
      rfl
    · rw [hinputs, ← List.countP_eq_length_filter]
      exact hcount
    · rw [hinputs, List.countP_filter]
      refine hless.trans (List.countP_congr fun p _ => ?_)
      rw [Bool.and_comm]

/-- Files with violations of which `bin/**` excludes one and `gen/**` another one, and beside the
violations a file that cannot be opened.  The second pattern is given in both places. -/
theorem excludesOnlyFilter_of_directories :
    let text (name : String) : String :=
      "class " ++ name ++ " \x7b " ++ name ++ "() \x7b F(); \x7d \x7d"
    let t : FileTree :=
      ⟨[("a.cs", .file (text "AggregateA").toUTF8),
        ("barred.cs", .barred .permission),
        ("bin", .directory [("d.cs", .file (text "AggregateD").toUTF8)]),
        ("gen", .directory
          [("b.cs", .file (text "AggregateB").toUTF8), ("c.cs", .barred .device)])]⟩
    let o : AnalysisOptions := { engine := { rules := Rule.all }, parallelism := some 2 }
    let found : List Path := ["a.cs", "barred.cs", "bin/d.cs", "gen/b.cs", "gen/c.cs"]
    let inFile (file : Path) : List Finding :=
      [Rule.publicDefaultConstructor.info.finding ⟨file, 1, 20, 19, 21⟩,
        Rule.emptyConstructor.info.finding ⟨file, 1, 20, 19, 21⟩]
    (o.isStrict = false ∧ o.lost? = none ∧ o.workers.bind o.workerFault = none
        ∧ (∀ p ∈ ["bin/**"] ++ ["gen/**"], Exclusion.IsPattern p)
        ∧ (o.search "/").candidates t = .ok found ∧ ∀ r ∈ o.engine.rules, r ∈ Rule.all)
      ∧ (o.withPatterns [] ["bin/**"]).analyze "/" t = .ok ⟨inFile "a.cs" ++ inFile "gen/b.cs", 2⟩
      ∧ (o.withPatterns ["gen/**"] ["bin/**", "gen/**"]).analyze "/" t =
        .ok ⟨inFile "a.cs", 1⟩ := by
  intro text t o found inFile
  have hpatterns : ∀ p ∈ ["bin/**"] ++ ["gen/**"], Exclusion.IsPattern p := by
    intro p hp
    rcases List.mem_pair.mp hp with rfl | rfl
    · exact ⟨_, rfl⟩
    · exact ⟨_, rfl⟩
  have hfound : (o.search "/").candidates t = .ok found := by decide +kernel
  have hrules : ∀ r ∈ o.engine.rules, r ∈ Rule.all := fun _ hr => hr
  obtain ⟨⟨-, -, hfilters⟩, hcatalogue⟩ := excludesOnlyFilter o "/" t
  obtain ⟨-, alone, together, halone, htogether, -, -, hfindings, -, hless⟩ :=
    hfilters rfl rfl rfl ["bin/**"] ["gen/**"] found hpatterns hfound
  have hfirst : (o.withPatterns [] ["bin/**"]).analyze "/" t =
      .ok ⟨inFile "a.cs" ++ inFile "gen/b.cs", 2⟩ := by
    let es : List Exclusion := (Exclusion.parseAll ["bin/**"]).toOption.getD []
    have hbuild : Analysis.build "/" (o.withPatterns [] ["bin/**"]) = .ok (o.excluding "/" es) :=
      rfl
    have hinput : (o.excluding "/" es).IsInput t found
        [("a.cs", text "AggregateA"), ("gen/b.cs", text "AggregateB")] :=
      Analysis.isInput_of_perm (Search.candidates_areFiles (by decide) hfound) (by decide +kernel)
        (by decide +kernel)
    rw [analyze, hbuild]
    refine (hinput.run_result (Search.candidates_areFiles (by decide) hfound)
      (hcatalogue hrules) rfl rfl hfound).trans ?_
    decide +kernel
  have hsecond : together = ⟨inFile "a.cs", 1⟩ := by
    obtain rfl := Except.ok.inj ((halone [] ["bin/**"] fun p => by simp).symm.trans hfirst)
    have hkept : together.findings = inFile "a.cs" := by
      rw [hfindings (hcatalogue hrules)]
      decide +kernel
    have hcount : together.filesChecked = 1 := by
      rw [hless]
      decide +kernel
    rw [← hkept, ← hcount]
  refine ⟨⟨rfl, rfl, rfl, hpatterns, hfound, hrules⟩, hfirst, ?_⟩
  rw [← hsecond]
  exact htogether _ _ fun p => by simp; tauto

end AnalysisOptions

/-- A rule from outside the catalogue, which reports all that it looks at in one place. -/
def Rule.elsewhere : Rule :=
  let info : RuleInfo :=
    { code := "X0002"
      name := "elsewhere"
      title := "All is reported elsewhere"
      description := "This was made from another file" }
  { info, check _ _ := [info.finding ⟨"gen/b.cs", 1, 1, 0, 0⟩] }

/-- Excludes do more than filter if a rule does not report in place: then a finding that is located
in an excluded file can stay.  Setting up can fail though no pattern is faulty, if the path of the
working directory is needed, and a run can fail that finds files, if its workers are not started. -/
theorem AnalysisOptions.excludes_of_foreign_rule_or_refusal :
    let t : FileTree := ⟨[("a.cs", .file "class A { A() { } }".toUTF8)]⟩
    let foreign : AnalysisOptions := { engine := { rules := [Rule.elsewhere] } }
    let lost : AnalysisOptions :=
      { engine := { rules := Rule.all }, directoryFault := some .notFound }
    let refusal := "Resource temporarily unavailable (os error 11)"
    let refused : AnalysisOptions :=
      { engine := { rules := Rule.all }, parallelism := some 1
        workerFault := fun _ => some refusal }
    let f : Finding := Rule.elsewhere.info.finding ⟨"gen/b.cs", 1, 1, 0, 0⟩
    (Exclusion.IsPattern "gen/**" ∧ (foreign.search "/").candidates t = .ok ["a.cs"]
        ∧ (refused.search "/").candidates t = .ok ["a.cs"])
      ∧ ((foreign.withPatterns [] []).analyze "/" t = .ok ⟨[f], 1⟩
        ∧ (foreign.withPatterns ["gen/**"] []).analyze "/" t = .ok ⟨[f], 1⟩
        ∧ [f].filter (fun f => !Exclusion.anyExcludes ["gen/**"] f.location.file) = [])
      ∧ Analysis.build "/" (lost.withPatterns [] []) = .error (.directory .notFound)
      ∧ (refused.withPatterns [] []).analyze "/" t = .error (.workers refusal) := by
  intro t foreign lost refusal refused f
  have hfound : (foreign.search "/").candidates t = .ok ["a.cs"] := by decide +kernel
  have hrefused : (refused.search "/").candidates t = .ok ["a.cs"] := by decide +kernel
  have hread : t.readText "/" ((foreign.search "/").fullPath "a.cs")
      = .ok "class A { A() { } }" := by decide +kernel
  have hfinding : foreign.engine.findingsInText "a.cs" "class A { A() { } }" = [f] := by
    decide +kernel
  have hforeign : ∀ es, (foreign.excluding "/" es).search.isExcluded "a.cs" = false →
      ((foreign.excluding "/" es).run t).result = .ok ⟨[f], 1⟩ := fun es hkept =>
    Analysis.run_result_of_single (a := foreign.excluding "/" es) rfl rfl hfound hkept hread
      hfinding (List.pairwise_singleton _ _)
  refine ⟨⟨⟨_, rfl⟩, hfound, hrefused⟩, ⟨?_, ?_, by decide +kernel⟩, rfl, ?_⟩
  · exact hforeign [] rfl
  · have hbuild : Analysis.build "/" (foreign.withPatterns ["gen/**"] []) =
        .ok (foreign.excluding "/" ((Exclusion.parseAll ["gen/**"]).toOption.getD [])) := rfl
    rw [AnalysisOptions.analyze, hbuild]
    exact hforeign _ (by decide +kernel)
  · have hbuild :
        Analysis.build "/" (refused.withPatterns [] []) = .ok (refused.excluding "/" []) := rfl
    have hcandidates : (refused.excluding "/" []).search.candidates t = .ok ["a.cs"] := hrefused
    rw [AnalysisOptions.analyze, hbuild]
    exact (Analysis.run_result _ t).trans (by rw [Search.run_eq, hcandidates]; rfl)

end AggregateAudit
