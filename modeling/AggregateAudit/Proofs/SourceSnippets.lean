import AggregateAudit.Proofs.Bystanders
import AggregateAudit.Proofs.Printing

/-!
# The texts that findings are shown with

A framed finding shows the lines that it is about, and for that its file is read a second time: at
the path that the finding tells, joined to the root.  This file says when that is the text in which
the finding was found.

It is whenever the root is a directory, in whatever way the root is written: the paths that a walk
hands out are not empty (`Discovery.ne_empty_of_mem_walkAll`), and a path that is not empty is
joined to the root in the same way when it is read for the first time.  The root may also be the
file itself.  Then the path below the root is empty, the first reading takes the root as it is,
and the second one puts a slash behind it.  Such a path asks for a directory, so no file is ever
read there (`FileTree.exists_readText_join_empty`), and the finding is shown without its lines.
-/

namespace AggregateAudit

/-! ## Paths with nothing behind their last slash -/

namespace FileTree

variable {t : FileTree}

/-- What a path leads to that has nothing behind its last slash is a directory. -/
theorem exists_directory_of_locate_join_empty {cwd base : Path} {location : List Path}
    (h : t.locate cwd (Path.join base "") = .ok location) :
    ∃ es, t.entryAt? location = some (.directory es) := by
  obtain ⟨-, n, -, hway⟩ := locate_eq_ok_iff.mp h
  obtain ⟨front, hfront, -⟩ := pieces_join (Path.join cwd base)
  rw [Path.join_join cwd base rfl, hfront rfl] at hway
  obtain ⟨k, l, middle, -, hlast⟩ := hway.split
  -- the last piece is looked up in a directory and leads nowhere else
  obtain rfl := hlast.eq_of_empty
  cases hlast with
  | stay hhere | up hhere | down hhere | jump hhere => exact ⟨_, hhere⟩

/-- No file is read there. -/
theorem exists_readText_join_empty (t : FileTree) (cwd base : Path) :
    ∃ fault, t.readText cwd (Path.join base "") = .error fault := by
  cases hread : t.readText cwd (Path.join base "") with
  | error fault => exact ⟨fault, rfl⟩
  | ok text =>
    obtain ⟨content, hentry, -⟩ := exists_entryOf_of_readText hread
    obtain ⟨location, hlocate, hfile⟩ := exists_locate_of_entryOf hentry
    obtain ⟨es, hdirectory⟩ := exists_directory_of_locate_join_empty hlocate
    rw [hfile] at hdirectory
    cases hdirectory

end FileTree

/-! ## Paths that a walk hands out -/

namespace Discovery

theorem below_ne_empty {name : Path} (h : isSourceFile name = true) (directory : Path) :
    below directory name ≠ "" := by
  rw [below]
  split
  · rintro rfl
    cases h
  · simp [Path.eq_empty_iff]

variable {scope : Ignore.Scope} {user : Bool → Path → Option Ignore.Verdict} {path : Path}

mutual

theorem ne_empty_of_mem_walk {location : List Path} {directory : Path}
    {layers : List Ignore.Layer} {name : Path} (entry : Entry)
    (h : path ∈ walk scope user location directory layers name entry) : path ≠ "" := by
  match entry with
  | .file _ | .barred _ | .link _ =>
    rw [walk] at h
    split at h
    · next hsource =>
      rw [List.mem_singleton.mp h]
      exact below_ne_empty (Bool.and_eq_true_iff.mp hsource).2 directory
    · cases h
  | .directory entries =>
    rw [walk] at h
    dsimp only at h
    split at h
    · cases h
    · exact ne_empty_of_mem_walkAll entries h

/-- What a walk hands out has a name. -/
theorem ne_empty_of_mem_walkAll {location : List Path} {directory : Path}
    {layers : List Ignore.Layer} (entries : List (Path × Entry))
    (h : path ∈ walkAll scope user location directory layers entries) : path ≠ "" := by
  match entries with
  | [] => cases h
  | (name, entry) :: rest =>
    rw [walkAll, List.mem_append] at h
    rcases h with h | h
    · exact ne_empty_of_mem_walk entry h
    · exact ne_empty_of_mem_walkAll rest h

end

end Discovery

/-- In a directory what is found is read as it is joined to the root. -/
theorem Search.fullPath_eq_join {s : Search} {t : FileTree} {found : List Path}
    (h : s.candidates t = .ok found) {root : List Path} {es : List (Path × Entry)}
    (hroot : t.locate s.cwd s.root = .ok root) (hes : t.entryAt? root = some (.directory es))
    {path : Path} (hpath : path ∈ found) : s.fullPath path = Path.join s.root path := by
  rw [candidates_of_directory h hroot hes] at hpath
  rw [fullPath, if_neg (Discovery.ne_empty_of_mem_walkAll es (List.mem_filter.mp hpath).1)]

/-! ## Reading for the second time -/

/-- Whether a finding was found in a text: the rules find it there, and the text has the place
that it tells. -/
structure Engine.FoundIn (e : Engine) (text : String) (f : Finding) : Prop where
  mem : f ∈ e.findingsInText f.location.file text
  place : f.location.IsOf text

theorem Engine.foundIn_of_mem {e : Engine} (he : e.ReportsInPlace) {file : Path} {text : String}
    {f : Finding} (hf : f ∈ e.findingsInText file text) :
    f.location.file = file ∧ e.FoundIn text f := by
  have hfile := file_of_mem_findingsInText he hf
  refine ⟨hfile, by rwa [hfile], ?_⟩
  rw [findingsInText, visitAll_eq_flatMap] at hf
  obtain ⟨d, hd, hf⟩ := List.mem_flatMap.mp hf
  rw [he.location_eq hf]
  exact Source.isOf_of_mem_listingAll hd

namespace Analysis

variable {a : Analysis} {t : FileTree} {r : Report}

/-- A run that comes to a report has found its root. -/
theorem exists_root_of_result (hr : (a.run t).result = .ok r) :
    ∃ root entry, t.locate a.search.cwd a.search.root = .ok root
      ∧ t.entryAt? root = some entry := by
  obtain ⟨found, hfound, -⟩ := exists_report_eq hr
  exact Search.exists_root_of_candidates hfound

section Findings

variable (hplace : a.engine.ReportsInPlace) (hr : (a.run t).result = .ok r) {root : List Path}
  (hroot : t.locate a.search.cwd a.search.root = .ok root) {f : Finding} (hf : f ∈ r.findings)

include hplace hr hroot hf

/-- **Below a directory a finding is found again** where its path leads. -/
theorem exists_text_of_directory {es : List (Path × Entry)}
    (hes : t.entryAt? root = some (.directory es)) :
    ∃ text, a.engine.FoundIn text f
      ∧ t.readText a.search.cwd (a.search.fullPath f.location.file) = .ok text
      ∧ t.readText a.search.cwd (Path.join a.search.root f.location.file) = .ok text := by
  obtain ⟨found, file, text, hfound, hfile, hread, hf⟩ := exists_texts_of_mem hr hf
  obtain ⟨rfl, hin⟩ := Engine.foundIn_of_mem hplace hf
  have hjoin := Search.fullPath_eq_join hfound hroot hes hfile
  exact ⟨text, hin, hread, by rwa [← hjoin]⟩

/-- **In a root that is a file it is not.** -/
theorem exists_text_of_leaf {entry : Entry} (hentry : t.entryAt? root = some entry)
    (hleaf : entry.isDirectory = false) :
    f.location.file = "" ∧ ∃ text fault, a.engine.FoundIn text f
      ∧ t.readText a.search.cwd a.search.root = .ok text
      ∧ t.readText a.search.cwd (Path.join a.search.root f.location.file) = .error fault := by
  obtain ⟨found, file, text, hfound, hfile, hread, hf⟩ := exists_texts_of_mem hr hf
  obtain ⟨rfl, hin⟩ := Engine.foundIn_of_mem hplace hf
  have hempty := Search.eq_empty_of_mem_candidates hfound hroot hentry hleaf hfile
  obtain ⟨fault, hfault⟩ := t.exists_readText_join_empty a.search.cwd a.search.root
  rw [hempty] at hread ⊢
  exact ⟨rfl, text, fault, hin, hread, hfault⟩

end Findings

end Analysis

namespace Command

variable {w : Workspace} {o : CheckOptions} {config : Option Path} {c : Config} {r : Report}

/-- No text is missed if all can be read. -/
theorem sourceLog_eq_nil {root : Path}
    (h : ∀ f ∈ r.findings, ∃ text, sourceOf w root f = .ok text) : sourceLog w root r = [] := by
  rw [sourceLog, List.filterMap_eq_nil_iff]
  intro f hf
  obtain ⟨text, htext⟩ := h f hf
  rw [htext]

/-- One text is missed for each finding if none can be read. -/
theorem length_sourceLog {root : Path}
    (h : ∀ f ∈ r.findings, ∃ fault, sourceOf w root f = .error fault) :
    (sourceLog w root r).length = r.findings.length := by
  rw [sourceLog, List.length_filterMap_eq_countP, List.countP_eq_length]
  intro f hf
  obtain ⟨fault, hfault⟩ := h f hf
  rw [hfault]
  rfl

section Found

variable {a : Analysis} (ha : analysisOf w o c = .ok a) (hr : (a.run w.tree).result = .ok r)
  {location : List Path} (hroot : w.tree.locate w.directory (w.absolute o.path) = .ok location)
  {f : Finding} (hf : f ∈ r.findings)

include ha hr hroot hf

theorem exists_source_of_directory {es : List (Path × Entry)}
    (hes : w.tree.entryAt? location = some (.directory es)) :
    ∃ text, a.engine.FoundIn text f ∧ w.readText (a.search.fullPath f.location.file) = .ok text
      ∧ sourceOf w (w.absolute o.path) f = .ok text := by
  obtain ⟨-, hcwd, habsolute⟩ := of_analysisOf_eq_ok ha
  rw [← hcwd, ← habsolute] at hroot
  have htext :=
    Analysis.exists_text_of_directory (Engine.reportsInPlace_of_catalogue (rules_mem_all ha)) hr
      hroot hf hes
  rwa [hcwd, habsolute] at htext

theorem exists_source_of_leaf {entry : Entry} (hentry : w.tree.entryAt? location = some entry)
    (hleaf : entry.isDirectory = false) :
    f.location.file = "" ∧ ∃ text fault, a.engine.FoundIn text f
      ∧ w.readText (w.absolute o.path) = .ok text
      ∧ sourceOf w (w.absolute o.path) f = .error fault := by
  obtain ⟨-, hcwd, habsolute⟩ := of_analysisOf_eq_ok ha
  rw [← hcwd, ← habsolute] at hroot
  have htext :=
    Analysis.exists_text_of_leaf (Engine.reportsInPlace_of_catalogue (rules_mem_all ha)) hr
      hroot hf hentry hleaf
  rwa [hcwd, habsolute] at htext

end Found

/-- **Findings are shown with their texts exactly below directories.**  A check that comes to a
report has found its path.  If that is a directory, then every finding is printed with the text that
was read of its file when it was found there, read again at the path it tells below the root, and
the log misses no text.  If it is a file, then no finding tells a path, none is printed with a
text, although the text in which it was found can be read as before, and the log misses a text for
each of them. -/
theorem check_pretty_shows_sources (hload : (ConfigSource.choose w o.path config).load w = .ok c)
    (hresult : analyzed w o c = .ok r) :
    let root := w.absolute o.path
    let printed := (check w { o with format := .pretty } config).printed
    ∃ a location entry, analysisOf w o c = .ok a ∧ w.tree.locate w.directory root = .ok location
      ∧ w.tree.entryAt? location = some entry
      ∧ (entry.isDirectory = true → ∃ source : Finding → String,
        (∀ f ∈ r.findings, a.engine.FoundIn (source f) f
          ∧ w.readText (a.search.fullPath f.location.file) = .ok (source f)
          ∧ sourceOf w root f = .ok (source f))
        ∧ printed = r.pretty (fun f => some (source f)) ∧ sourceLog w root r = [])
      ∧ (entry.isDirectory = false →
        (∀ f ∈ r.findings, f.location.file = "" ∧ ∃ text fault, a.engine.FoundIn text f
          ∧ w.readText root = .ok text ∧ sourceOf w root f = .error fault)
        ∧ printed = r.pretty (fun _ => none)
        ∧ (sourceLog w root r).length = r.findings.length) := by
  intro root printed
  obtain ⟨a, ha, hr⟩ := exists_analysis_of_analyzed hresult
  have hprinted : printed = r.pretty fun f => (sourceOf w root f).toOption :=
    (check_of_analyzed (o := { o with format := .pretty }) hload hresult rfl).2
  obtain ⟨location, entry, hlocate, hentry⟩ := Analysis.exists_root_of_result hr
  rw [(of_analysisOf_eq_ok ha).2.1, (of_analysisOf_eq_ok ha).2.2] at hlocate
  refine ⟨a, location, entry, ha, hlocate, hentry, ?_, ?_⟩
  · intro hdirectory
    obtain ⟨es, rfl⟩ := Entry.exists_eq_directory hdirectory
    have htexts := fun f hf => exists_source_of_directory (f := f) ha hr hlocate hf hentry
    choose! source hsource using htexts
    have hread : ∀ f ∈ r.findings, sourceOf w root f = .ok (source f) :=
      fun f hf => (hsource f hf).2.2
    refine ⟨source, hsource, ?_, sourceLog_eq_nil fun f hf => ⟨_, hread f hf⟩⟩
    rw [hprinted]
    exact Report.pretty_congr fun f hf => congrArg Except.toOption (hread f hf)
  · intro hleaf
    have htexts := fun f hf => exists_source_of_leaf (f := f) ha hr hlocate hf hentry hleaf
    have hmissed : ∀ f ∈ r.findings, ∃ fault, sourceOf w root f = .error fault := by
      intro f hf
      obtain ⟨-, -, fault, -, -, hfault⟩ := htexts f hf
      exact ⟨fault, hfault⟩
    refine ⟨htexts, ?_, length_sourceLog hmissed⟩
    rw [hprinted]
    refine Report.pretty_congr fun f hf => ?_
    obtain ⟨fault, hfault⟩ := hmissed f hf
    exact congrArg Except.toOption hfault

/-- A finding below a link to a directory, which is given with a step up and a slash at its end. -/
theorem check_pretty_shows_source_below_link :
    let text := "class AggregateA { AggregateA() { } }"
    let w : Workspace := { tree := ⟨
      [("src", .directory [("a.cs", .file text.toUTF8),
          ("aggregate-lint.toml", .file "[analyzer]\nexclude = []\n".toUTF8)]),
        ("here", .link "src")]⟩ }
    let o : CheckOptions := { path := "src/../here/" }
    let c : Config := { analyzer := { exclude := [] } }
    let f : Finding := Rule.publicDefaultConstructor.info.finding ⟨"a.cs", 1, 20, 19, 16⟩
    ((ConfigSource.choose w o.path none).load w = .ok c ∧ analyzed w o c = .ok ⟨[f], 1⟩)
      ∧ sourceOf w (w.absolute o.path) f = .ok text
      ∧ (check w { o with format := .pretty } none).printed =
        (⟨[f], 1⟩ : Report).pretty fun _ => some text := by
  intro text w o c f
  have hload : (ConfigSource.choose w o.path none).load w = .ok c := by decide +kernel
  have hresult : analyzed w o c = .ok ⟨[f], 1⟩ := by
    let a : Analysis :=
      { search := { root := w.absolute o.path, userIgnore := Ignore.userFile w }
        engine := { rules := activeRules c none }
        strict := false }
    have hanalyzed : analyzed w o c = (a.run w.tree).result := rfl
    have hfound : a.search.candidates w.tree = .ok ["a.cs"] := by decide +kernel
    have hread : w.tree.readText a.search.cwd (a.search.fullPath "a.cs") = .ok text := by
      decide +kernel
    have hfinding : a.engine.findingsInText "a.cs" text = [f] := by decide +kernel
    rw [hanalyzed]
    exact Analysis.run_result_of_single rfl rfl hfound rfl hread hfinding
      (List.pairwise_singleton _ _)
  obtain ⟨a, location, entry, -, hlocate, hentry, hdirectory, -⟩ :=
    check_pretty_shows_sources hload hresult
  have hroot : w.tree.locate w.directory (w.absolute o.path) = .ok ["src"] := by decide +kernel
  have hkind : (w.tree.entryAt? ["src"]).any Entry.isDirectory = true := by decide +kernel
  obtain rfl : [Path.ofString "src"] = location := Except.ok.inj (hroot.symm.trans hlocate)
  rw [hentry] at hkind
  obtain ⟨source, hsource, hprinted, -⟩ := hdirectory hkind
  have htext : sourceOf w (w.absolute o.path) f = .ok text := by decide +kernel
  have hshown : source f = text :=
    Except.ok.inj ((hsource f (List.mem_singleton.mpr rfl)).2.2.symm.trans htext)
  refine ⟨⟨hload, hresult⟩, htext, hprinted.trans (Report.pretty_congr ?_)⟩
  intro g hg
  rw [List.mem_singleton.mp hg, hshown]

/-- **A finding in a file that is asked for is shown without its text.**  The check reads the file
and reports its constructor, and it prints the message and the hint alone, though the text is
there to be read. -/
theorem check_pretty_misses_source_of_file :
    let text := "class AggregateA { AggregateA() { } }"
    let w : Workspace := { tree := ⟨[("a.cs", .file text.toUTF8)]⟩ }
    let o : CheckOptions := { path := "a.cs", format := .pretty }
    let f : Finding := Rule.publicDefaultConstructor.info.finding ⟨"", 1, 20, 19, 16⟩
    (ConfigSource.choose w o.path none).load w = .ok {} ∧ analyzed w o {} = .ok ⟨[f], 1⟩
      ∧ w.readText (w.absolute o.path) = .ok text
      ∧ sourceOf w (w.absolute o.path) f = .error .notDirectory
      ∧ (check w o none).printed = (⟨[f], 1⟩ : Report).pretty (fun _ => none)
      ∧ (⟨[f], 1⟩ : Report).pretty (fun _ => none) ≠
        (⟨[f], 1⟩ : Report).pretty fun _ => some text := by
  intro text w o f
  have hload : (ConfigSource.choose w o.path none).load w = .ok {} := by decide +kernel
  have hresult : analyzed w o {} = .ok ⟨[f], 1⟩ := by
    let a : Analysis :=
      { search :=
          { root := w.absolute o.path
            userIgnore := Ignore.userFile w
            exclusions := (Exclusion.parseAll ["**/bin/**", "**/obj/**"]).toOption.getD [] }
        engine := { rules := activeRules {} none }
        strict := false }
    have hanalyzed : analyzed w o {} = (a.run w.tree).result := rfl
    have hfound : a.search.candidates w.tree = .ok [""] := by decide +kernel
    have hkept : a.search.isExcluded "" = false := by decide +kernel
    have hread : w.tree.readText a.search.cwd (a.search.fullPath "") = .ok text := by
      decide +kernel
    have hfinding : a.engine.findingsInText "" text = [f] := by decide +kernel
    rw [hanalyzed]
    exact Analysis.run_result_of_single rfl rfl hfound hkept hread hfinding
      (List.pairwise_singleton _ _)
  have hsource : sourceOf w (w.absolute o.path) f = .error .notDirectory := by decide +kernel
  refine ⟨hload, hresult, by decide +kernel, hsource, ?_, by decide +kernel⟩
  rw [(check_of_analyzed hload hresult rfl).2]
  refine Report.pretty_congr fun g hg => ?_
  rw [List.mem_singleton.mp hg]
  exact congrArg Except.toOption hsource

end Command
end AggregateAudit
