import AggregateAudit.Proofs.Course
import AggregateAudit.Proofs.DecisionTree
import AggregateAudit.Proofs.Reading
import AggregateAudit.Proofs.StableSort
import Mathlib.Data.List.Sort

/-!
# Analyses are composed of files

The report of an analysis is put together from what the rules find in each file alone.
The last step of a run is a sort, and a sort could mix the findings of files or put those
of one file in another order; this file says that it does neither, because they come in
order already.

Three orders meet here.  Inside a file the findings come in pre-order, which is the order
of the text (`pairwise_listingAll_ofTree`, from `places_forestOf`), and a nested type is
no exception, for its members lie between its own beginning and what comes after it.  Two
findings about one declaration stand at the same place, and they keep the order of the
rules because the sort is stable.  And files come in the order of their paths, whether
full ones are compared or those below the root.

A rule that reports at a place of its own choice could break the second order, and only
that.  `Engine.ReportsInPlace` says that an engine does not, as none does whose rules are those
of the catalogue, and `Rule.backwards` is a rule that does.
-/

namespace AggregateAudit

/-! ## Findings in place -/

/-- Whether every rule of an engine locates its findings at the declaration that they are
about, which is what the location of a finding is for. -/
def Engine.ReportsInPlace (e : Engine) : Prop :=
  ∀ r ∈ e.rules, ∀ m d, ∀ f ∈ r.check m d, f.location = d.location

/-- The rules of the catalogue report in place, whichever of them are asked. -/
theorem Engine.reportsInPlace_of_catalogue {e : Engine} (h : ∀ r ∈ e.rules, r ∈ Rule.all) :
    e.ReportsInPlace := by
  intro r hr m d f hf
  rw [Rule.eq_finding_of_mem_check (h r hr) hf]
  rfl

theorem Engine.ReportsInPlace.location_eq {e : Engine} (h : e.ReportsInPlace) {d : Declaration}
    {f : Finding} (hf : f ∈ e.check d) : f.location = d.location := by
  obtain ⟨r, hr, hf⟩ := List.mem_flatMap.mp hf
  exact h r hr e.matcher d f hf

theorem Location.NotBehind.refl (x : Location) : x.NotBehind x :=
  ⟨rfl, Nat.le_refl _, .inr ⟨rfl, Nat.le_refl _⟩⟩

namespace Finding

/-- In one file what is not behind may stand in front. -/
theorem mayPrecede_of_notBehind {f g : Finding} (h : f.location.NotBehind g.location) :
    f.mayPrecede g = true := by
  have hfile : Path.compare f.location.file g.location.file = .eq :=
    Path.compare_eq_eq_iff.mpr (by rw [h.file])
  rw [mayPrecede, bne_iff_ne, order, hfile, Ordering.eq_then]
  rcases h.column with hline | ⟨hline, hcolumn⟩
  · rw [Nat.compare_eq_lt.mpr hline]
    simp
  · rw [Nat.compare_eq_eq.mpr hline, Ordering.eq_then]
    exact Nat.compare_ne_gt.mpr hcolumn

/-- What is in an earlier file may stand in front. -/
theorem mayPrecede_of_file_lt {f g : Finding}
    (h : Path.compare f.location.file g.location.file = .lt) : f.mayPrecede g = true := by
  rw [mayPrecede, order, h]
  rfl

end Finding

/-! ## One file -/

namespace Source

mutual

/-- Constructors and methods are listed in the order in which the forest with addresses
lists them. -/
theorem sublist_listing (owner : TypeDeclaration) (x : Placed) :
    ((Member.listing owner x.member).map Declaration.location).Sublist
      (x.listing.map Placed.location) := by
  match x with
  | .constructor a c => exact List.Sublist.refl _
  | .method a m => exact List.Sublist.refl _
  | .type a header ms =>
    rw [Placed.member, Member.listing, Placed.listing, List.map_cons]
    exact (sublist_listingAll ⟨header, Placed.memberAll ms⟩ ms).cons _

theorem sublist_listingAll (owner : TypeDeclaration) (xs : List Placed) :
    ((Member.listingAll owner (Placed.memberAll xs)).map Declaration.location).Sublist
      ((Placed.listingAll xs).map Placed.location) := by
  match xs with
  | [] => exact List.Sublist.refl _
  | x :: xs =>
    rw [Placed.memberAll, Member.listingAll, Placed.listingAll, List.map_append, List.map_append]
    exact (sublist_listing owner x).append (sublist_listingAll owner xs)

end

/-- A forest is listed like a row of members. -/
theorem listingAll_map_toMember (owner : TypeDeclaration) (types : List TypeDeclaration) :
    Member.listingAll owner (types.map TypeDeclaration.toMember) =
      TypeDeclaration.listingAll types := by
  induction types with
  | nil => rfl
  | cons t types ih =>
    rw [List.map_cons, Member.listingAll, ih]
    rfl

/-- The places of the declarations of a text are among those of the forest with
addresses, in the same order. -/
theorem sublist_listingAll_ofTree (file : Path) (root : Node) :
    ((TypeDeclaration.listingAll (SourceUnit.ofTree file root).types).map
        Declaration.location).Sublist
      ((Placed.listingAll (forestOf file root)).map Placed.location) := by
  have owner : TypeDeclaration := ⟨headerOf file .classType {} root, []⟩
  rw [← listingAll_map_toMember owner, ← memberAll_forestOf]
  exact sublist_listingAll owner _

/-- **Pre-order is the order of the text.** -/
theorem pairwise_listingAll_ofTree (file : Path) (root : Node) :
    (TypeDeclaration.listingAll (SourceUnit.ofTree file root).types).Pairwise fun d e =>
      d.location.NotBehind e.location :=
  List.pairwise_map.mp
    ((List.pairwise_map.mpr (places_forestOf file root)).sublist
      (sublist_listingAll_ofTree file root))

/-- The declarations of a text are located in its file. -/
theorem location_file_of_mem_listingAll {file : Path} {root : Node} {d : Declaration}
    (h : d ∈ TypeDeclaration.listingAll (SourceUnit.ofTree file root).types) :
    d.location.file = file := by
  have hmem := (sublist_listingAll_ofTree file root).subset (List.mem_map_of_mem h)
  obtain ⟨x, hx, hloc⟩ := List.mem_map.mp hmem
  obtain ⟨n, -, hread⟩ := (isRead_of_mem_forestOf hx).location
  rw [← hloc, hread]
  rfl

end Source

/-- What the rules of an engine find in a text that stands for a file. -/
def Engine.findingsInText (e : Engine) (file : Path) (text : String) : List Finding :=
  e.visitAll (Source.extract file text).types

namespace Engine

variable {e : Engine} (he : e.ReportsInPlace)

include he

/-- **The findings of one file come in order.** -/
theorem pairwise_findingsInText (file : Path) (text : String) :
    (e.findingsInText file text).Pairwise fun f g => f.location.NotBehind g.location := by
  rw [findingsInText, visitAll_eq_flatMap, List.pairwise_flatMap]
  constructor
  · intro d hd
    refine List.pairwise_of_forall_mem_list ?_
    intro f hf g hg
    rw [he.location_eq hf, he.location_eq hg]
    exact .refl _
  · refine (Source.pairwise_listingAll_ofTree file (Source.parse text)).imp ?_
    intro d d' hd f hf g hg
    rwa [he.location_eq hf, he.location_eq hg]

theorem file_of_mem_findingsInText {file : Path} {text : String} {f : Finding}
    (hf : f ∈ e.findingsInText file text) : f.location.file = file := by
  rw [findingsInText, visitAll_eq_flatMap] at hf
  obtain ⟨d, hd, hf⟩ := List.mem_flatMap.mp hf
  rw [he.location_eq hf]
  exact Source.location_file_of_mem_listingAll hd

/-- **The findings of files in the order of their paths come in order**, so sorting moves
none of them. -/
theorem sort_findingsInText {files : List (Path × String)}
    (hfiles : files.Pairwise fun p q => Path.compare p.1 q.1 = .lt) (checked : Nat) :
    Report.sort ⟨files.flatMap fun p => e.findingsInText p.1 p.2, checked⟩ =
      ⟨files.flatMap fun p => e.findingsInText p.1 p.2, checked⟩ := by
  apply Report.sort_eq_self
  rw [List.pairwise_flatMap]
  constructor
  · intro p _
    exact (pairwise_findingsInText he p.1 p.2).imp Finding.mayPrecede_of_notBehind
  · refine hfiles.imp ?_
    intro p q hpq f hf g hg
    apply Finding.mayPrecede_of_file_lt
    rwa [file_of_mem_findingsInText he hf, file_of_mem_findingsInText he hg]

end Engine

/-! ## All files -/

namespace Analysis

/-- The files that can be read, with their texts, in the order in which they are given. -/
def texts (a : Analysis) (t : FileTree) (files : List Path) : List (Path × String) :=
  files.filterMap fun p =>
    match t.readText a.search.cwd (a.search.fullPath p) with
    | .ok text => some (p, text)
    | .error _ => none

/-- Files in the strict order of their paths are the same row if they are the same files. -/
theorem eq_of_increasing {files others : List (Path × String)}
    (hfiles : files.Pairwise fun p q => Path.compare p.1 q.1 = .lt)
    (hothers : others.Pairwise fun p q => Path.compare p.1 q.1 = .lt)
    (h : ∀ p, p ∈ files ↔ p ∈ others) : files = others := by
  have hirrefl : Std.Irrefl fun p q : Path × String => Path.compare p.1 q.1 = .lt := by
    refine ⟨fun p hp => ?_⟩
    rw [Path.compare_eq_eq_iff.mpr rfl] at hp
    cases hp
  have hantisymm : Std.Antisymm fun p q : Path × String => Path.compare p.1 q.1 = .lt := by
    refine ⟨fun p q hpq hqp => ?_⟩
    have hswap : Path.compare q.1 p.1 = (Path.compare p.1 q.1).swap := Std.OrientedCmp.eq_swap
    rw [hpq, hqp] at hswap
    cases hswap
  exact hfiles.eq_of_mem_iff hothers h

variable {a : Analysis} {t : FileTree} {r : Report}

theorem mem_texts {files : List Path} {p : Path} {text : String} :
    (p, text) ∈ a.texts t files ↔
      p ∈ files ∧ t.readText a.search.cwd (a.search.fullPath p) = .ok text := by
  rw [texts, List.mem_filterMap]
  constructor
  · rintro ⟨q, hq, h⟩
    split at h
    · next hread =>
      cases h
      exact ⟨hq, hread⟩
    · cases h
  · rintro ⟨hp, hread⟩
    exact ⟨p, hp, by rw [hread]⟩

/-- Files with their texts come in the order in which the files do. -/
theorem pairwise_texts {r : Path → Path → Prop} {files : List Path} (h : files.Pairwise r) :
    (a.texts t files).Pairwise fun p q => r p.1 q.1 := by
  refine List.Pairwise.filterMap _ ?_ h
  intro p q hpq x hx y hy
  split at hx
  · split at hy
    · cases hx
      cases hy
      exact hpq
    · cases hy
  · cases hx

/-- A file that has been read contributes what the rules find in its text, and any other
contributes nothing. -/
theorem flatMap_findingsIn_read (a : Analysis) (t : FileTree) (files : List Path) :
    (files.map (a.read t)).flatMap a.findingsIn =
      (a.texts t files).flatMap fun p => a.engine.findingsInText p.1 p.2 := by
  induction files with
  | nil => rfl
  | cons p files ih =>
    rw [List.map_cons, List.flatMap_cons, ih, findingsIn, read]
    cases h : t.readText a.search.cwd (a.search.fullPath p) with
    | ok text => simp [texts, h, Except.map, Engine.findingsInText]
    | error f => simp [texts, h, Except.map]

/-- A file that has been read counts, and any other does not. -/
theorem countP_read (a : Analysis) (t : FileTree) (files : List Path) :
    (files.map (a.read t)).countP (fun o => o.content.toBool) = (a.texts t files).length := by
  induction files with
  | nil => rfl
  | cons p files ih =>
    rw [List.map_cons, List.countP_cons, ih, read]
    cases h : t.readText a.search.cwd (a.search.fullPath p) with
    | ok text => simp [texts, h, Except.map, Except.toBool]
    | error f => simp [texts, h, Except.map, Except.toBool]

theorem report_read (a : Analysis) (t : FileTree) (files : List Path) :
    a.report (files.map (a.read t)) =
      Report.sort ⟨(a.texts t files).flatMap fun p => a.engine.findingsInText p.1 p.2,
        (a.texts t files).length⟩ := by
  rw [report, flatMap_findingsIn_read, countP_read]

/-- What a run comes to that starts its workers, finds files and is not strict. -/
theorem run_result_eq_texts {found : List Path} (hlenient : a.strict = false)
    (hworkers : a.refusal? = none) (hfound : a.search.candidates t = .ok found) :
    (a.run t).result =
      .ok (Report.sort ⟨(a.texts t (a.search.ordered found)).flatMap fun p =>
        a.engine.findingsInText p.1 p.2, (a.texts t (a.search.ordered found)).length⟩) := by
  rw [run_result_of_candidates hworkers hfound, conclude_result_of_lenient hlenient, report_read]

/-- What a lenient run comes to that finds one file. -/
theorem run_result_of_single {path : Path} {text : String} {fs : List Finding}
    (hlenient : a.strict = false) (hworkers : a.refusal? = none)
    (hfound : a.search.candidates t = .ok [path]) (hkept : a.search.isExcluded path = false)
    (hread : t.readText a.search.cwd (a.search.fullPath path) = .ok text)
    (hfs : a.engine.findingsInText path text = fs)
    (hsorted : fs.Pairwise fun f g => f.mayPrecede g = true) :
    (a.run t).result = .ok ⟨fs, 1⟩ := by
  have hordered : a.search.ordered [path] = [path] := by
    rw [Search.ordered, List.filter_cons_of_pos (by rw [hkept]; rfl), List.filter_nil,
      List.mergeSort_singleton]
  have htexts : a.texts t [path] = [(path, text)] := by
    rw [texts, List.filterMap_cons_some (by rw [hread]), List.filterMap_nil]
  rw [run_result_eq_texts hlenient hworkers hfound, hordered, htexts, List.flatMap_singleton, hfs,
    Report.sort, List.mergeSort_of_pairwise hsorted]
  rfl

/-- A report is about the texts of the files that were found. -/
theorem exists_report_eq (hr : (a.run t).result = .ok r) :
    ∃ found, a.search.candidates t = .ok found ∧ a.refusal? = none ∧
      r = Report.sort ⟨(a.texts t (a.search.ordered found)).flatMap fun p =>
        a.engine.findingsInText p.1 p.2, (a.texts t (a.search.ordered found)).length⟩ := by
  cases hfound : a.search.candidates t with
  | error f =>
    rw [run_result, Search.run_eq, hfound] at hr
    cases hr
  | ok found =>
    cases hworkers : a.refusal? with
    | some reason =>
      rw [run_result, Search.run_eq, hfound, hworkers] at hr
      cases hr
    | none =>
      rw [run_result_of_candidates hworkers hfound, conclude_result] at hr
      refine ⟨found, rfl, rfl, ?_⟩
      split at hr
      · cases hr
      · cases hr
        rw [report_read]

/-- A finding of a run is in a file that was found, and in the text that was read of it. -/
theorem exists_texts_of_mem (hr : (a.run t).result = .ok r) {f : Finding} (hf : f ∈ r.findings) :
    ∃ found file text, a.search.candidates t = .ok found ∧ file ∈ found
      ∧ t.readText a.search.cwd (a.search.fullPath file) = .ok text
      ∧ f ∈ a.engine.findingsInText file text := by
  obtain ⟨found, hfound, -, rfl⟩ := exists_report_eq hr
  rw [Report.sort, List.mem_mergeSort, List.mem_flatMap] at hf
  obtain ⟨⟨file, text⟩, hread, hf⟩ := hf
  obtain ⟨hmem, hread⟩ := mem_texts.mp hread
  exact ⟨found, file, text, hfound, (Search.mem_ordered.mp hmem).1, hread, hf⟩

/-- A finding is about a declaration in a text that has been read. -/
theorem exists_declaration_of_mem (hr : (a.run t).result = .ok r) {f : Finding}
    (hf : f ∈ r.findings) :
    ∃ path file text d, t.readText a.search.cwd path = .ok text
      ∧ d ∈ TypeDeclaration.listingAll (Source.extract file text).types ∧ f ∈ a.engine.check d := by
  obtain ⟨-, file, text, -, -, hread, hf⟩ := exists_texts_of_mem hr hf
  rw [Engine.findingsInText, Engine.visitAll_eq_flatMap, List.mem_flatMap] at hf
  obtain ⟨d, hd, hf⟩ := hf
  exact ⟨_, file, text, d, hread, hd, hf⟩

/-- A finding is what a rule of the catalogue says of the place where it is. -/
theorem exists_rule_of_mem (hrules : ∀ rule ∈ a.engine.rules, rule ∈ Rule.all)
    (hr : (a.run t).result = .ok r) {f : Finding} (hf : f ∈ r.findings) :
    ∃ rule ∈ Rule.all, f = rule.info.finding f.location := by
  obtain ⟨-, -, -, d, -, -, hf⟩ := exists_declaration_of_mem hr hf
  obtain ⟨rule, hrule, hf⟩ := List.mem_flatMap.mp hf
  have hfinding := Rule.eq_finding_of_mem_check (hrules rule hrule) hf
  refine ⟨rule, hrules rule hrule, ?_⟩
  rw [hfinding]
  rfl

/-- **A finding is as grave as its rule**, and the rules of the catalogue are errors. -/
theorem severity_of_mem (hrules : ∀ rule ∈ a.engine.rules, rule ∈ Rule.all)
    (hr : (a.run t).result = .ok r) {f : Finding} (hf : f ∈ r.findings) : f.severity = .error := by
  have hcatalogue : ∀ rule ∈ Rule.all, rule.info.severity = .error := by decide
  obtain ⟨rule, hrule, hf⟩ := exists_rule_of_mem hrules hr hf
  rw [hf]
  exact hcatalogue rule hrule

end Analysis

/-- What an analysis is about: the readable files of a search that no exclusion matches,
with their texts. -/
structure Analysis.IsInput (a : Analysis) (t : FileTree) (found : List Path)
    (files : List (Path × String)) : Prop where
  /-- The files come in the order of their paths below the root, none twice. -/
  increasing : files.Pairwise fun p q => Path.compare p.1 q.1 = .lt
  /-- That is also the order of their full paths. -/
  fullIncreasing : files.Pairwise fun p q =>
    Path.compare (a.search.fullPath p.1) (a.search.fullPath q.1) = .lt
  mem_iff : ∀ p text, (p, text) ∈ files ↔ p ∈ found ∧ a.search.isExcluded p = false
    ∧ t.readText a.search.cwd (a.search.fullPath p) = .ok text

/-- The files that are kept and can be read, in the order of their paths, are what an analysis is
about. -/
theorem Analysis.isInput_of_perm {a : Analysis} {t : FileTree} {found : List Path}
    {files : List (Path × String)} (h : Discovery.AreFiles found)
    (hincreasing : files.Pairwise fun p q => Path.compare p.1 q.1 = .lt)
    (hperm : files.Perm (a.texts t (found.filter fun p => !a.search.isExcluded p))) :
    a.IsInput t found files := by
  have hmem : ∀ p text, (p, text) ∈ files ↔ p ∈ found ∧ a.search.isExcluded p = false
      ∧ t.readText a.search.cwd (a.search.fullPath p) = .ok text := fun p text => by
    rw [hperm.mem_iff, mem_texts, List.mem_filter, Bool.not_eq_true', and_assoc]
  refine ⟨hincreasing, hincreasing.imp_of_mem ?_, hmem⟩
  intro p q hp hq hpq
  rwa [a.search.compare_fullPath h ((hmem p.1 p.2).mp hp).1 ((hmem q.1 q.2).mp hq).1]

theorem Analysis.isInput_texts {a : Analysis} {t : FileTree} {found : List Path}
    (h : Discovery.AreFiles found) : a.IsInput t found (a.texts t (a.search.ordered found)) :=
  isInput_of_perm h (pairwise_texts (Search.ordered_increasing h))
    ((List.mergeSort_perm _ _).filterMap _)

/-- There is one way to be that. -/
theorem Analysis.IsInput.unique {a : Analysis} {t : FileTree} {found : List Path}
    {files others : List (Path × String)} (h : a.IsInput t found files)
    (h' : a.IsInput t found others) : files = others :=
  eq_of_increasing h.increasing h'.increasing fun p =>
    (h.mem_iff p.1 p.2).trans (h'.mem_iff p.1 p.2).symm

/-- What a lenient run comes to that is about some files and whose rules report in place. -/
theorem Analysis.IsInput.run_result {a : Analysis} {t : FileTree} {found : List Path}
    {files : List (Path × String)} (h : a.IsInput t found files) (hfiles : Discovery.AreFiles found)
    (hplace : a.engine.ReportsInPlace) (hlenient : a.strict = false) (hworkers : a.refusal? = none)
    (hfound : a.search.candidates t = .ok found) :
    (a.run t).result =
      .ok ⟨files.flatMap fun p => a.engine.findingsInText p.1 p.2, files.length⟩ := by
  rw [run_result_eq_texts hlenient hworkers hfound, (isInput_texts hfiles).unique h,
    Engine.sort_findingsInText hplace h.increasing]

/-- **An analysis is composed of its files, and every run comes to it.**  For a tree with
names as they can be, and an analysis that is not strict, starts the workers that it asks for
and finds files to look at, the result of the run, whatever course it takes, is the sorted row
of what the rules find in each readable file alone, file by file in the order of paths, and it
counts these files.  If the rules report in place, and those of the catalogue do, then the sort
moves nothing: the findings of a file stand together and are in the order of lines and
columns. -/
theorem Analysis.run_eq_findings_of_files (a : Analysis) (t : FileTree) (found : List Path)
    (ht : t.IsWellNamed) (hlenient : a.strict = false) (hworkers : a.refusal? = none)
    (hfound : a.search.candidates t = .ok found) :
    ∃ files, a.IsInput t found files ∧
      let report : Report :=
        ⟨files.flatMap fun p => a.engine.findingsInText p.1 p.2, files.length⟩
      (a.run t).result = .ok report.sort
        ∧ (∀ c : Course a t found, c.result = .ok report.sort)
        ∧ ((∀ r ∈ a.engine.rules, r ∈ Rule.all) → a.engine.ReportsInPlace)
        ∧ (a.engine.ReportsInPlace → report.sort = report
          ∧ ∀ p ∈ files, (a.engine.findingsInText p.1 p.2).Pairwise fun f g =>
            f.location.NotBehind g.location) := by
  have hfiles := Search.candidates_areFiles ht hfound
  have hinput := Analysis.isInput_texts (a := a) (t := t) hfiles
  have hrun := run_result_eq_texts hlenient hworkers hfound
  refine ⟨a.texts t (a.search.ordered found), hinput, hrun, ?_,
    Engine.reportsInPlace_of_catalogue, ?_⟩
  · intro c
    rw [result_course hfiles hworkers hfound c, hrun]
  · intro hplace
    exact ⟨Engine.sort_findingsInText hplace hinput.increasing _,
      fun p _ => Engine.pairwise_findingsInText hplace p.1 p.2⟩

/-- Three files that are listed against the order of their paths, two of them with several
violations and one with none.  The first constructor of each of the two breaks two rules. -/
theorem Analysis.run_eq_findings_of_three_files :
    let text (name : String) : String :=
      "class " ++ name ++ " \x7b " ++ name ++ "() \x7b F(); \x7d public " ++ name
        ++ "(int x) \x7b \x7d \x7d"
    let t : FileTree :=
      ⟨[("a.cs", .file (text "AggregateA").toUTF8),
        ("a", .directory [("z.cs", .file (text "AggregateZ").toUTF8)]),
        ("b.cs", .file "class B { }".toUTF8)]⟩
    let a : Analysis :=
      { search := { root := "/", respectGitignore := false }, engine := { rules := Rule.all },
        strict := false, parallelism := some 4 }
    let found : List Path := ["a.cs", "a/z.cs", "b.cs"]
    (t.IsWellNamed ∧ a.strict = false ∧ a.refusal? = none ∧ a.search.candidates t = .ok found
        ∧ ∀ r ∈ a.engine.rules, r ∈ Rule.all)
      ∧ a.IsInput t found
        [("a/z.cs", text "AggregateZ"), ("a.cs", text "AggregateA"), ("b.cs", "class B { }")]
      ∧ (a.run t).result = .ok
        ⟨[Rule.publicDefaultConstructor.info.finding ⟨"a/z.cs", 1, 20, 19, 21⟩,
          Rule.emptyConstructor.info.finding ⟨"a/z.cs", 1, 20, 19, 21⟩,
          Rule.privateParameterizedConstructor.info.finding ⟨"a/z.cs", 1, 42, 41, 28⟩,
          Rule.publicDefaultConstructor.info.finding ⟨"a.cs", 1, 20, 19, 21⟩,
          Rule.emptyConstructor.info.finding ⟨"a.cs", 1, 20, 19, 21⟩,
          Rule.privateParameterizedConstructor.info.finding ⟨"a.cs", 1, 42, 41, 28⟩], 3⟩ := by
  intro text t a found
  have ht : t.IsWellNamed := by decide
  have hfound : a.search.candidates t = .ok found := by decide +kernel
  have hrules : ∀ r ∈ a.engine.rules, r ∈ Rule.all := fun _ hr => hr
  have hinput : a.IsInput t found
      [("a/z.cs", text "AggregateZ"), ("a.cs", text "AggregateA"), ("b.cs", "class B { }")] :=
    isInput_of_perm (Search.candidates_areFiles ht hfound) (by decide +kernel) (by decide +kernel)
  obtain ⟨files, hfiles, hrun, -, hcatalogue, hsort⟩ :=
    run_eq_findings_of_files a t found ht rfl rfl hfound
  obtain rfl := hfiles.unique hinput
  refine ⟨⟨ht, rfl, rfl, hfound, hrules⟩, hinput, hrun.trans ?_⟩
  rw [(hsort (hcatalogue hrules)).1]
  decide +kernel

/-- A rule from outside the catalogue, which does not report in place: it reports the line behind
a declaration and then the declaration. -/
def Rule.backwards : Rule :=
  let info : RuleInfo :=
    { code := "X0001"
      name := "backwards"
      title := "Lines are reported backwards"
      description := "The line behind a declaration comes first" }
  { info
    check _ d := [info.finding { d.location with line := d.location.line + 1 },
      info.finding d.location] }

/-- The findings of the one file there is are not what a run comes to if a rule does not report in
place, for then the sort moves them, or if the one worker that is asked for is not started. -/
theorem Analysis.run_ne_findings_of_file :
    let text := "class A { A() { } }"
    let t : FileTree := ⟨[("a.cs", .file text.toUTF8)]⟩
    let search : Search := { root := "/", respectGitignore := false }
    let foreign : Analysis := { search, engine := { rules := [Rule.backwards] }, strict := false }
    let refused : Analysis :=
      { search, engine := { rules := Rule.all }, strict := false, parallelism := some 1,
        workerFault := fun _ => some "Resource temporarily unavailable (os error 11)" }
    let report (a : Analysis) : Report := ⟨a.engine.findingsInText "a.cs" text, 1⟩
    (t.IsWellNamed ∧ foreign.IsInput t ["a.cs"] [("a.cs", text)]
        ∧ refused.IsInput t ["a.cs"] [("a.cs", text)])
      ∧ (foreign.run t).result ≠ .ok (report foreign)
      ∧ (refused.run t).result ≠ .ok (report refused) := by
  intro text t search foreign refused report
  have ht : t.IsWellNamed := by decide
  have hfound : search.candidates t = .ok ["a.cs"] := by decide +kernel
  have hfiles := Search.candidates_areFiles ht hfound
  have hforeign : foreign.IsInput t ["a.cs"] [("a.cs", text)] :=
    isInput_of_perm hfiles (List.pairwise_singleton _ _) (by decide +kernel)
  have hrefused : refused.IsInput t ["a.cs"] [("a.cs", text)] :=
    isInput_of_perm hfiles (List.pairwise_singleton _ _) (by decide +kernel)
  refine ⟨⟨ht, hforeign, hrefused⟩, ?_, ?_⟩
  · have hordered : search.ordered ["a.cs"] = [Path.ofString "a.cs"] := List.mergeSort_singleton _
    have htexts : foreign.texts t ["a.cs"] = [(Path.ofString "a.cs", text)] := by decide +kernel
    have hunsorted : ¬ (report foreign).findings.Pairwise fun f g => f.mayPrecede g = true := by
      decide +kernel
    rw [run_result_eq_texts rfl rfl hfound, hordered, htexts, List.flatMap_singleton]
    intro heq
    have hsort : (report foreign).sort = report foreign := Except.ok.inj heq
    refine hunsorted ?_
    rw [← hsort]
    exact List.pairwise_mergeSort Path.bne_gt_trans Path.bne_gt_total _
  · rw [run_result, Search.run_eq, hfound]
    exact nofun

end AggregateAudit
