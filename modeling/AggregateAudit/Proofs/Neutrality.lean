import AggregateAudit.Command.Init
import AggregateAudit.Proofs.ChosenConfig
import AggregateAudit.Proofs.Insertion
import AggregateAudit.Proofs.Spans

/-!
# Starting a configuration changes nothing else

`init` writes one file.  That it changes no other path is a fact about trees
(`FileTree.insert_without`), and that a check afterwards comes to what it came to before is a
fact about three things that are written down separately: the template, the defaults of a
configuration, and the order of the candidates.  The template can be read, and what it says is
what the defaults say (`parse?_template`, `checkWith_congr`).  The file is the first candidate,
so it is chosen, but only where there was no candidate before.  And its being there makes no
difference to what is found, because it is a bystander (`checkWith_without`).

One person does see the file: whoever has made it the ignore file for everything.  As an ignore
file the template hides things, since `[analyzer]` is a pattern there, and so the user's ignore
file must be another one.  That git is configured in it does no harm, because it sets nothing
there (`setting?_template`), and neither does a path that leads through it, because it leads
nowhere, before and after (`shown_eq_none_of_station`).
-/

namespace AggregateAudit

open FileTree

/-! ## Lines of a text -/

namespace Text

/-- The characters of lines, each with its line feed. -/
theorem toList_unlines (lines : List String) :
    (unlines lines).toList = lines.flatMap fun line => line.toList ++ ['\n'] := by
  rw [unlines, String.toList_join, List.flatMap_map]
  simp only [String.toList_append]
  rfl

end Text

/-! ## What a file hides -/

namespace FileTree

variable {t : FileTree} {cwd : Path}

/-- From a file, and from where nothing is, a path leads nowhere. -/
theorem shown_eq_none_of_station (ht : t.HasNoLinks) {path : Path} {location : List Path}
    (hstation : location ∈ stations cwd path) (hne : location ≠ locationOf cwd path)
    (hlocation : ∀ inside, t.entryAt? location ≠ some (.directory inside)) :
    t.shown cwd path = none := by
  cases hentry : t.entryOf cwd path with
  | error f => rw [shown, hentry]
  | ok entry =>
    obtain ⟨place, hlocate, -⟩ := exists_locate_of_entryOf hentry
    rcases (ht.locate_eq_ok hlocate).2 location hstation with heq | ⟨inside, hinside⟩
    · exact absurd heq hne
    · exact absurd hinside (hlocation inside)

/-- **A path that does not end at a file shows the same without it.** -/
theorem shown_without_one (ht : t.HasNoLinks) {location : List Path} (hsome : location ≠ [])
    (hlocation : ∀ inside, t.entryAt? location ≠ some (.directory inside)) {path : Path}
    (hne : locationOf cwd path ≠ location) :
    (t.without fun l => decide (l = location)).shown cwd path = t.shown cwd path := by
  by_cases hstation : location ∈ stations cwd path
  · have hleft : ∀ inside, (t.without fun l => decide (l = location)).entryAt? location ≠
        some (.directory inside) := by
      intro inside hinside
      have hclear := isClear_of_entryAt?_without (decide_eq_false hsome.symm) hinside
      exact of_decide_eq_false hclear.not_gone rfl
    rw [shown_eq_none_of_station ht hstation hne.symm hlocation,
      shown_eq_none_of_station (ht.without _) hstation hne.symm hleft]
  · exact shown_of_avoids ht fun l hl => decide_eq_false fun heq => hstation (heq ▸ hl)

/-- A text that was written is read. -/
theorem readText_of_toUTF8 {t : FileTree} {cwd path : Path} {text : String}
    (h : t.entryOf cwd path = .ok (.file text.toUTF8)) : t.readText cwd path = .ok text := by
  have hutf8 : String.fromUTF8? text.toUTF8 = some text := dif_pos text.isValidUTF8
  exact readText_of_entryOf h hutf8

end FileTree

namespace Command

/-! ## The template -/

/-- What the template says: nothing of the analyzer, and of each rule that it runs. -/
def templateConfig : Config where
  rules :=
    [Rule.emptyConstructor, Rule.privateParameterizedConstructor, Rule.publicApplyMethod,
      Rule.publicDefaultConstructor].map fun r => (r.info.name, { enabled := some true })

/-- **The template is a configuration.** -/
theorem parse?_template : Config.parse? template = some templateConfig := by
  rw [Config.parse?, Toml.read?, template, Text.toList_unlines]
  decide +kernel

/-- Every rule runs by the template, and by the defaults. -/
theorem isActive_templateConfig :
    ∀ r ∈ Rule.all, isActive templateConfig r = true ∧ isActive {} r = true := by decide +kernel

/-- It does not say where the user's ignore file is. -/
theorem setting?_template : Ignore.setting? true template.toUTF8.data.toList = none := by
  rw [← Text.bytesOf_toList, template, Text.toList_unlines]
  decide +kernel

/-- A check depends on what a configuration says about the analyzer and on the rules that it
lets run. -/
theorem checkWith_congr (w : Workspace) (o : CheckOptions) {c d : Config}
    (hanalyzer : c.analyzer = d.analyzer) (hactive : ∀ r ∈ Rule.all, isActive c r = isActive d r) :
    checkWith w o c = checkWith w o d := by
  have hselected : ∀ r ∈ selectedRules o.rules, isActive c r = isActive d r := by
    intro r hr
    refine hactive r ?_
    rw [selectedRules.eq_def] at hr
    split at hr
    · exact (List.mem_filter.mp hr).1
    · exact hr
  have hrules : activeRules c o.rules = activeRules d o.rules := List.filter_congr hselected
  have hlog : ruleLog c o.rules = ruleLog d o.rules := by
    rw [ruleLog.eq_def c, ruleLog.eq_def d, List.filter_congr fun r hr => by rw [hselected r hr]]
  have hanalysis : analysisOf w o c = analysisOf w o d := by
    rw [analysisOf, analysisOf, hrules]
    cases c
    cases d
    cases hanalyzer
    rfl
  rw [checkWith, checkWith, hanalysis, hlog]

/-! ## What `init` does -/

theorem isLocal_initPath : IsLocal initPath initPath where
  isName := by decide
  fits := by decide
  isPath := ⟨by decide, by decide⟩
  relative := by decide
  pieces_eq := .inl (by decide)

/-- The first candidate in the working directory is the same file. -/
theorem isLocal_candidate : IsLocal initPath (Path.join "." initPath) where
  isName := by decide
  fits := by decide
  isPath := ⟨by decide, by decide⟩
  relative := by decide
  pieces_eq := .inr (by decide)

/-- The location that `init` writes to. -/
@[irreducible] def initLocation (cwd : Path) : List Path := locationOf cwd initPath

/-- Whether a location is the one that `init` writes to. -/
def isInitLocation (cwd : Path) (location : List Path) : Bool := location = initLocation cwd

theorem initLocation_eq {t : FileTree} {cwd : Path} {front here : List Path}
    (ht : t.HasNoLinks) (h : t.IsWorkingDirectory cwd front here) :
    initLocation cwd = here ++ [initPath] := by
  unfold initLocation
  exact h.locationOf_eq ht isLocal_initPath

/-- The user's own ignore file is not the file that `init` writes. -/
def IgnoresElsewhere (w : Workspace) : Prop :=
  ∀ path, Ignore.userPath? w = some path →
    locationOf w.directory path ≠ initLocation w.directory

/-- The workspace with a file where `init` writes. -/
def withFile (w : Workspace) (content : ByteArray) : Workspace :=
  { w with tree := w.tree.insert (initLocation w.directory) (.file content) }

/-- Whether `init` can write: there is a working directory, and no directory has the name of
the file in it. -/
def CanInit (w : Workspace) : Prop :=
  ∃ front here, w.tree.IsWorkingDirectory w.directory front here
    ∧ ∀ inside, w.tree.entryAt? (here ++ [initPath]) ≠ some (.directory inside)

section Written

variable {w : Workspace} (hlinks : w.tree.HasNoLinks)

@[simp] theorem tree_withFile (w : Workspace) (content : ByteArray) :
    (withFile w content).tree =
      w.tree.insert (initLocation w.directory) (.file content) := rfl

@[simp] theorem directory_withFile (w : Workspace) (content : ByteArray) :
    (withFile w content).directory = w.directory := rfl

theorem withFile_withFile (w : Workspace) (content : ByteArray) :
    withFile (withFile w content) content = withFile w content := by
  rw [withFile, directory_withFile, tree_withFile, insert_insert]
  rfl

include hlinks

theorem hasNoLinks_withFile (content : ByteArray) : (withFile w content).tree.HasNoLinks := by
  rw [tree_withFile]
  exact hlinks.insert trivial

/-- A text is written where it can be. -/
theorem writeText_cases (text : String) :
    (∃ f, w.writeText initPath text = .error f) ∨
      (w.writeText initPath text = .ok (withFile w text.toUTF8) ∧ CanInit w) := by
  rw [Workspace.writeText]
  cases hresolve : w.tree.resolve w.directory initPath with
  | error f =>
    rw [write, hresolve]
    exact .inl ⟨f, rfl⟩
  | ok place =>
    obtain ⟨front, here, hdirectory⟩ :=
      hlinks.exists_isWorkingDirectory isLocal_initPath hresolve
    rw [withFile, initLocation_eq hlinks hdirectory, write,
      hdirectory.resolve_eq hlinks isLocal_initPath]
    cases hentry : w.tree.entryAt? (here ++ [initPath]) with
    | none => exact .inr ⟨rfl, front, here, hdirectory, by simp [hentry]⟩
    | some entry =>
      dsimp only [Option.isSome_some]
      rw [if_pos rfl]
      dsimp only
      rw [hentry]
      cases entry with
      | file content => exact .inr ⟨rfl, front, here, hdirectory, by simp [hentry]⟩
      | barred why => exact .inl ⟨_, rfl⟩
      | link target => exact .inl ⟨_, rfl⟩
      | directory inside => exact .inl ⟨_, rfl⟩

variable (hcan : CanInit w)

include hcan

theorem entryAt?_withFile (content : ByteArray) :
    (withFile w content).tree.entryAt? (initLocation w.directory) =
      some (.file content) := by
  obtain ⟨front, here, hdirectory, -⟩ := hcan
  rw [tree_withFile]
  refine entryAt?_insert ?_ w.tree _
  simp [initLocation_eq hlinks hdirectory]

/-- **Apart from the file everything is as it was.** -/
theorem withFile_without (content : ByteArray) :
    (withFile w content).without (isInitLocation w.directory)
      = w.without (isInitLocation w.directory) := by
  obtain ⟨front, here, hdirectory, -⟩ := hcan
  obtain ⟨es, hes⟩ := hdirectory.directory
  have hlocation := initLocation_eq hlinks hdirectory
  have hgone : isInitLocation w.directory (here ++ [initPath]) = true :=
    decide_eq_true hlocation.symm
  rw [Workspace.without, Workspace.without, withFile]
  dsimp only
  rw [hlocation, insert_without hes _ hgone]

theorem isWorkingDirectory_withFile (content : ByteArray) :
    ∃ front here, (withFile w content).tree.IsWorkingDirectory w.directory front here := by
  obtain ⟨front, here, hdirectory, hnot⟩ := hcan
  refine ⟨front, here, ?_⟩
  rw [tree_withFile, initLocation_eq hlinks hdirectory]
  exact hdirectory.insert hlinks hnot content

/-- Local paths of the file lead to what was written. -/
theorem entryOf_withFile {path : Path} (hlocal : IsLocal initPath path)
    (content : ByteArray) :
    (withFile w content).tree.entryOf w.directory path = .ok (.file content) := by
  have hwritten := hasNoLinks_withFile hlinks content
  obtain ⟨front, here, hdirectory⟩ := isWorkingDirectory_withFile hlinks hcan content
  have hentry := entryAt?_withFile hlinks hcan content
  rw [initLocation_eq hwritten hdirectory] at hentry
  exact hdirectory.entryOf_eq hwritten hlocal hentry

theorem readText_withFile {path : Path} (hlocal : IsLocal initPath path) (text : String) :
    (withFile w text.toUTF8).readText path = .ok text :=
  readText_of_toUTF8 (entryOf_withFile hlinks hcan hlocal _)

/-- What was written is loaded as the configuration that it is. -/
theorem load_withFile {path : Path} {text : String} (hlocal : IsLocal initPath path) {c : Config}
    (hparse : Config.parse? text = some c) :
    (ConfigSource.project path).load (withFile w text.toUTF8) = .ok c := by
  rw [ConfigSource.load, ConfigSource.path?]
  dsimp only
  rw [readText_withFile hlinks hcan hlocal]
  dsimp only
  rw [hparse]

/-- **The file is the configuration of the working directory.** -/
theorem choose_withFile (content : ByteArray) :
    ConfigSource.choose (withFile w content) "." none = .project (Path.join "." initPath) := by
  have hentry := entryOf_withFile hlinks hcan isLocal_candidate content
  have hfile : (withFile w content).isFile (Path.join "." initPath) = true := by
    rw [Workspace.isFile, isFile]
    dsimp only [withFile] at hentry ⊢
    rw [hentry]
  have hfirst : ConfigSource.projectNames = [] ++ initPath :: [".aggregate-lint.toml"] := rfl
  exact (ConfigSource.choose_eq_project hfirst (by simp) hfile).1

/-- Where no candidate is a file, nothing has the name of the first one. -/
theorem entryAt?_eq_none
    (habsent : ∀ s ∈ ConfigSource.candidates w ".", ConfigSource.isPresent w s = false) :
    w.tree.entryAt? (initLocation w.directory) = none := by
  obtain ⟨front, here, hdirectory, hnot⟩ := hcan
  rw [initLocation_eq hlinks hdirectory]
  cases hentry : w.tree.entryAt? (here ++ [initPath]) with
  | none => rfl
  | some entry =>
    cases entry with
    | link target => exact absurd hentry (hlinks.not_link _ target)
    | directory inside => exact absurd hentry (hnot inside)
    | file | barred =>
      have hfile : w.tree.isFile w.directory (Path.join "." initPath) = true := by
        rw [isFile, hdirectory.entryOf_eq hlinks isLocal_candidate hentry]
      have hmem : ConfigSource.project (Path.join "." initPath) ∈ ConfigSource.candidates w "." :=
        List.mem_cons_self
      exact absurd hfile (Bool.eq_false_iff.mp (habsent _ hmem))

end Written

section Init

variable {w : Workspace} (hlinks : w.tree.HasNoLinks)

/-- Without being allowed to overwrite, `init` fails where there is something. -/
theorem init_of_pathExists (h : w.pathExists initPath = true) :
    (init w false).exit = 1 ∧ (init w false).failure ≠ none ∧ (init w false).workspace = w := by
  rw [init, h]
  exact ⟨rfl, Option.some_ne_none _, rfl⟩

include hlinks

/-- **What `init` does**: nothing, or it writes the template where it can. -/
theorem init_cases (force : Bool) :
    ((init w force).failure ≠ none ∧ (init w force).workspace = w) ∨
      ((init w force).failure = none ∧ (init w force).workspace = withFile w template.toUTF8
        ∧ CanInit w) := by
  rw [init]
  split
  · exact .inl ⟨Option.some_ne_none _, rfl⟩
  · rcases writeText_cases hlinks template with ⟨f, hwrite⟩ | ⟨hwrite, hcan⟩
    · rw [hwrite]
      exact .inl ⟨Option.some_ne_none _, rfl⟩
    · rw [hwrite]
      exact .inr ⟨rfl, rfl, hcan⟩

/-- After `init` has written, it changes nothing any more. -/
theorem init_withFile (again : Bool) :
    (init (withFile w template.toUTF8) again).workspace = withFile w template.toUTF8 := by
  have hwritten := hasNoLinks_withFile hlinks template.toUTF8
  rcases init_cases hwritten again with ⟨-, heq⟩ | ⟨-, heq, -⟩
  · exact heq
  · rw [heq, withFile_withFile]

end Init

/-! ## A check does not see the file -/

/-- What a check of the working directory needs so that it does not see whether the file that
`init` writes is there. -/
structure IsUnseen (w : Workspace) : Prop where
  noLinks : w.tree.HasNoLinks
  wellNamed : w.tree.IsWellNamed
  absolute : Path.isAbsolute w.directory = true
  isDirectory : ∃ front here, w.tree.IsWorkingDirectory w.directory front here
  /-- If anything is there, it is a file, and says nothing of an ignore file. -/
  silent : ∀ entry, w.tree.entryAt? (initLocation w.directory) = some entry →
    ∃ content, entry = .file content ∧ Ignore.setting? true content.data.toList = none

/-- A directory that is seen from itself. -/
theorem join_absolute_dot {w : Workspace} (h : Path.isAbsolute w.directory = true) :
    Path.join w.directory (w.absolute ".") = Path.join w.directory "." := by
  have hne : w.directory ≠ "" := by
    intro heq
    rw [heq] at h
    cases h
  have habsolute : Path.isAbsolute (w.absolute ".") = true := by
    rw [Workspace.absolute, Path.join_of_relative _ (by decide), Path.append_assoc,
      Path.isAbsolute_append hne, h]
  rw [Path.join.eq_def w.directory (w.absolute "."), if_pos habsolute]
  rfl

/-- A configuration file that says nothing of an ignore file sets none. -/
theorem pathSetIn?_eq_none {w : Workspace} (hlinks : w.tree.HasNoLinks) {config : Path}
    (h : ∀ content, w.tree.entryAt? (locationOf w.directory config) = some (.file content) →
      Ignore.setting? true content.data.toList = none) : Ignore.pathSetIn? w config = none := by
  rw [Ignore.pathSetIn?_eq]
  rcases hshown : w.tree.shown w.directory config with _ | (content | _ | _ | _)
  · rfl
  · dsimp only
    rw [h content (hlinks.entryAt?_of_shown hshown)]
  all_goals rfl

/-- Where a file that marks a work directory leads, there is no file with the name of the
configuration. -/
theorem locationOf_ne_of_refers {t : FileTree} {cwd path : Path} {location parent : List Path}
    (h : Ignore.Refers t cwd location path) : locationOf cwd path ≠ parent ++ [initPath] := by
  cases h with
  | @shared content own =>
    have hlocation : locationOf cwd (Path.join own Ignore.sharedName) =
        locationOf cwd own ++ [Ignore.sharedName] := locationOf_join cwd own (by decide)
    rw [hlocation]
    intro heq
    have hlast := (List.append_inj' heq rfl).2
    exact absurd hlast (by decide)
  | @excludes content own directory =>
    have hlocation : locationOf cwd (Path.join directory Ignore.excludesName) =
        locationOf cwd directory ++ [Path.ofString "info"] ++ [Path.ofString "exclude"] :=
      locationOf_join cwd directory (by decide)
    rw [hlocation]
    intro heq
    have hlast := (List.append_inj' heq rfl).2
    exact absurd hlast (by decide)

namespace IsUnseen

variable {w : Workspace} (h : IsUnseen w)

include h

theorem not_directory (inside : List (Path × Entry)) :
    w.tree.entryAt? (initLocation w.directory) ≠ some (.directory inside) := by
  intro hinside
  obtain ⟨content, hcontent, -⟩ := h.silent _ hinside
  cases hcontent

theorem exists_locationOf :
    ∃ front here, w.tree.IsWorkingDirectory w.directory front here
      ∧ initLocation w.directory = here ++ [initPath] := by
  obtain ⟨front, here, hdirectory⟩ := h.isDirectory
  exact ⟨front, here, hdirectory, initLocation_eq h.noLinks hdirectory⟩

/-- The way to the working directory does not go through the file. -/
theorem avoids_dot : Avoids (isInitLocation w.directory) w.directory "." := by
  obtain ⟨front, here, hdirectory, hlocation⟩ := h.exists_locationOf
  have hnot := h.not_directory
  rw [hlocation] at hnot
  intro l hl
  refine decide_eq_false ?_
  rw [hlocation]
  rw [stations, hdirectory.pieces_eq (by decide), List.scanl_append,
    ← hdirectory.here_eq h.noLinks] at hl
  rcases List.mem_append.mp hl with hl | hl
  · exact hdirectory.not_mem_front h.noLinks hnot hl
  · have hstay : ((pieces ".").scanl stepFrom here).tail = [here] := rfl
    rw [hstay, List.mem_singleton] at hl
    rw [hl]
    simp

theorem areBystanders : w.tree.AreBystanders (isInitLocation w.directory) where
  named location hgone := by
    obtain ⟨front, here, -, hlocation⟩ := h.exists_locationOf
    rw [of_decide_eq_true hgone, hlocation]
    exact ⟨here, initPath, by decide, rfl⟩
  slight location entry hgone hentry := by
    rw [of_decide_eq_true hgone] at hentry
    obtain ⟨content, hcontent, -⟩ := h.silent entry hentry
    rw [hcontent]
    exact .file content

theorem shown_without {path : Path}
    (hne : locationOf w.directory path ≠ initLocation w.directory) :
    (w.tree.without (isInitLocation w.directory)).shown w.directory path =
      w.tree.shown w.directory path := by
  obtain ⟨front, here, -, hlocation⟩ := h.exists_locationOf
  exact shown_without_one h.noLinks (by simp [hlocation]) h.not_directory hne

theorem bypasses :
    Discovery.Bypasses w.tree (isInitLocation w.directory) w.directory (w.absolute ".") where
  noLinks := h.noLinks
  wellNamed := h.wellNamed
  bystanders := h.areBystanders
  root := by
    rw [Avoids, stations, join_absolute_dot h.absolute]
    exact h.avoids_dot
  refers location entry path _ _ _ hrefers := by
    obtain ⟨front, here, -, hlocation⟩ := h.exists_locationOf
    refine h.shown_without ?_
    rw [hlocation]
    exact locationOf_ne_of_refers hrefers

/-- Whether the file is there or not, git is configured in the same way. -/
theorem pathSetIn?_without (config : Path) :
    Ignore.pathSetIn? (w.without (isInitLocation w.directory)) config
      = Ignore.pathSetIn? w config := by
  by_cases heq : locationOf w.directory config = initLocation w.directory
  · have hthere : Ignore.pathSetIn? w config = none := by
      refine pathSetIn?_eq_none h.noLinks fun content hcontent => ?_
      rw [heq] at hcontent
      obtain ⟨_, hfile, hsilent⟩ := h.silent _ hcontent
      cases hfile
      exact hsilent
    have hgone : Ignore.pathSetIn? (w.without (isInitLocation w.directory)) config = none := by
      refine pathSetIn?_eq_none (h.noLinks.without _) fun content hcontent => ?_
      have hclear := isClear_of_entryAt?_without h.areBystanders.not_gone_nil hcontent
      exact absurd heq (of_decide_eq_false hclear.not_gone)
    rw [hthere, hgone]
  · rw [Ignore.pathSetIn?_eq, Ignore.pathSetIn?_eq]
    have hshown := h.shown_without heq
    dsimp only [Workspace.without]
    rw [hshown]

theorem userPath?_without :
    Ignore.userPath? (w.without (isInitLocation w.directory)) = Ignore.userPath? w :=
  Ignore.userPath?_congr fun config _ => h.pathSetIn?_without config

/-- **A check of the working directory comes to the same without the file**, if that is not
the user's ignore file. -/
theorem checkWith_without_init (helsewhere : IgnoresElsewhere w) {o : CheckOptions}
    (ho : o.path = ".") (c : Config) :
    checkWith (w.without (isInitLocation w.directory)) o c =
      { checkWith w o c with workspace := w.without (isInitLocation w.directory) } := by
  have huser : Ignore.userFile (w.without (isInitLocation w.directory)) = Ignore.userFile w :=
    Ignore.userFile_congr (fun config _ => h.pathSetIn?_without config)
      fun path hpath => h.shown_without (helsewhere path hpath)
  refine checkWith_without ?_ huser c
  rw [ho]
  exact h.bypasses

end IsUnseen

/-! ## Before and after -/

section Neutral

variable {w : Workspace}

theorem isUnseen_before (hlinks : w.tree.HasNoLinks) (hwell : w.tree.IsWellNamed)
    (habsolute : Path.isAbsolute w.directory = true) (hcan : CanInit w)
    (habsent : ∀ s ∈ ConfigSource.candidates w ".", ConfigSource.isPresent w s = false) :
    IsUnseen w where
  noLinks := hlinks
  wellNamed := hwell
  absolute := habsolute
  isDirectory := hcan.imp fun _ h => h.imp fun _ h => h.1
  silent entry hentry := by
    rw [entryAt?_eq_none hlinks hcan habsent] at hentry
    cases hentry

theorem isUnseen_after (hlinks : w.tree.HasNoLinks) (hwell : w.tree.IsWellNamed)
    (habsolute : Path.isAbsolute w.directory = true) (hcan : CanInit w) {content : ByteArray}
    (hsilent : Ignore.setting? true content.data.toList = none) :
    IsUnseen (withFile w content) where
  noLinks := hasNoLinks_withFile hlinks content
  wellNamed := by
    obtain ⟨front, here, hdirectory, -⟩ := hcan
    obtain ⟨es, hes⟩ := hdirectory.directory
    rw [tree_withFile]
    refine hwell.insert ?_ trivial
    rw [initLocation_eq hlinks hdirectory]
    refine List.forall_mem_append.mpr ⟨hwell.areNames hes, ?_⟩
    exact List.forall_mem_singleton.mpr isLocal_initPath.isName
  absolute := habsolute
  isDirectory := isWorkingDirectory_withFile hlinks hcan content
  silent entry hentry := by
    rw [directory_withFile, entryAt?_withFile hlinks hcan content] at hentry
    cases hentry
    exact ⟨content, rfl, hsilent⟩

variable {content : ByteArray} (hlinks : w.tree.HasNoLinks) (hcan : CanInit w)
  (hbefore : IsUnseen w) (hafter : IsUnseen (withFile w content))
  (helsewhere : IgnoresElsewhere w)

include hlinks hcan hbefore hafter helsewhere

/-- The user's ignore file stays where it is. -/
theorem ignoresElsewhere_withFile : IgnoresElsewhere (withFile w content) := by
  intro path hpath
  rw [directory_withFile]
  have hleft : Ignore.userPath? ((withFile w content).without (isInitLocation w.directory)) =
      Ignore.userPath? (withFile w content) := hafter.userPath?_without
  rw [← hleft, withFile_without hlinks hcan, hbefore.userPath?_without] at hpath
  exact helsewhere path hpath

/-- **A check comes to the same before and after**, with the same configuration. -/
theorem checkWith_withFile {o : CheckOptions} (ho : o.path = ".") (c : Config) :
    (checkWith (withFile w content) o c).exit = (checkWith w o c).exit
      ∧ (checkWith (withFile w content) o c).printed = (checkWith w o c).printed
      ∧ (checkWith (withFile w content) o c).failure = (checkWith w o c).failure
      ∧ (checkWith (withFile w content) o c).log = (checkWith w o c).log := by
  have hthere := ignoresElsewhere_withFile hlinks hcan hbefore hafter helsewhere
  have heq : checkWith ((withFile w content).without (isInitLocation w.directory)) o c =
      { checkWith (withFile w content) o c with
        workspace := (withFile w content).without (isInitLocation w.directory) } :=
    hafter.checkWith_without_init hthere ho c
  rw [withFile_without hlinks hcan, hbefore.checkWith_without_init helsewhere ho c] at heq
  exact ⟨(congrArg Outcome.exit heq).symm, (congrArg Outcome.printed heq).symm,
    (congrArg Outcome.failure heq).symm, (congrArg Outcome.log heq).symm⟩

end Neutral

/-! ## Neutrality -/

/-- What it means that `init` destroys nothing and makes no difference. -/
structure InitIsNeutral (w : Workspace) : Prop where
  /-- Where there is something and it may not be overwritten, `init` fails, and everything
  stays as it is. -/
  keeps : w.pathExists initPath = true →
    (init w false).exit = 1 ∧ (init w false).failure ≠ none ∧ (init w false).workspace = w
  /-- Nothing but the one file is different afterwards, whether it failed or not. -/
  frame : ∀ force,
    (init w force).workspace.without (isInitLocation w.directory)
      = w.without (isInitLocation w.directory)
  /-- If it fails, nothing at all is different; otherwise the file is the template. -/
  writes : ∀ force,
    ((init w force).failure ≠ none ∧ (init w force).workspace = w) ∨
      ((init w force).failure = none ∧ (init w force).workspace.readText initPath = .ok template)
  /-- Twice is the same as once; after it has written, whatever it is allowed. -/
  twice : ∀ force again, again = force ∨ (init w force).failure = none →
    (init (init w force).workspace again).workspace = (init w force).workspace
  /-- What it has written is a configuration with the defaults of the analyzer, by which
  every rule runs. -/
  decodes : ∀ force, (init w force).failure = none →
    ∃ c, (ConfigSource.project initPath).load (init w force).workspace = .ok c
      ∧ c.analyzer = {} ∧ ∀ r ∈ Rule.all, isActive c r = true
  /-- If there was no configuration file, and the file is not the user's ignore file, then a
  check of the working directory comes to the same before and after, but for the details in
  its log. -/
  neutral : (∀ s ∈ ConfigSource.candidates w ".", ConfigSource.isPresent w s = false) →
    IgnoresElsewhere w → ∀ force (o : CheckOptions), o.path = "." →
    (check (init w force).workspace o none).exit = (check w o none).exit
      ∧ (check (init w force).workspace o none).printed = (check w o none).printed
      ∧ (check (init w force).workspace o none).failure = (check w o none).failure
      ∧ (check (init w force).workspace o none).log.filter (LogLine.isShown false) =
        (check w o none).log.filter (LogLine.isShown false)

section Results

variable {w : Workspace} (hlinks : w.tree.HasNoLinks)

include hlinks

theorem init_without (force : Bool) :
    (init w force).workspace.without (isInitLocation w.directory)
      = w.without (isInitLocation w.directory) := by
  rcases init_cases hlinks force with ⟨-, heq⟩ | ⟨-, heq, hcan⟩
  · rw [heq]
  · rw [heq, withFile_without hlinks hcan]

theorem init_init {force again : Bool} (h : again = force ∨ (init w force).failure = none) :
    (init (init w force).workspace again).workspace = (init w force).workspace := by
  rcases init_cases hlinks force with ⟨hfailure, heq⟩ | ⟨-, heq, -⟩
  · rw [h.resolve_right hfailure, heq, heq]
  · rw [heq, init_withFile hlinks]

/-- A check of the working directory uses what was written, and tells where it is. -/
theorem check_withFile (hcan : CanInit w) {text : String} {c : Config}
    (hparse : Config.parse? text = some c) {o : CheckOptions} (ho : o.path = ".") :
    check (withFile w text.toUTF8) o none =
      { checkWith (withFile w text.toUTF8) o c with
        log := .detail ("Found project config: " ++ (Path.join "." initPath).display) ::
          (checkWith (withFile w text.toUTF8) o c).log } := by
  rw [check, ho, choose_withFile hlinks hcan]
  dsimp only
  rw [load_withFile hlinks hcan isLocal_candidate hparse]
  rfl

/-- **A check does not see whether `init` has run.** -/
theorem check_init (hwell : w.tree.IsWellNamed) (habsolute : Path.isAbsolute w.directory = true)
    (habsent : ∀ s ∈ ConfigSource.candidates w ".", ConfigSource.isPresent w s = false)
    (helsewhere : IgnoresElsewhere w) (force : Bool) {o : CheckOptions} (ho : o.path = ".") :
    (check (init w force).workspace o none).exit = (check w o none).exit
      ∧ (check (init w force).workspace o none).printed = (check w o none).printed
      ∧ (check (init w force).workspace o none).failure = (check w o none).failure
      ∧ (check (init w force).workspace o none).log.filter (LogLine.isShown false) =
        (check w o none).log.filter (LogLine.isShown false) := by
  rcases init_cases hlinks force with ⟨-, heq⟩ | ⟨-, heq, hcan⟩
  · rw [heq]
    exact ⟨rfl, rfl, rfl, rfl⟩
  · have hbefore := isUnseen_before hlinks hwell habsolute hcan habsent
    have hafter := isUnseen_after hlinks hwell habsolute hcan setting?_template
    obtain ⟨hexit, hprinted, hfailure, hlog⟩ :=
      checkWith_withFile hlinks hcan hbefore hafter helsewhere ho {}
    have hdefaults : ConfigSource.choose w "." none = .defaults :=
      ConfigSource.isChosen_iff.mp (.defaults habsent)
    have hwithout : check w o none = checkWith w o {} := by
      rw [check, ho, hdefaults]
      rfl
    have hactive : ∀ r ∈ Rule.all, isActive templateConfig r = isActive {} r := fun r hr => by
      rw [(isActive_templateConfig r hr).1, (isActive_templateConfig r hr).2]
    have hsame : checkWith (withFile w template.toUTF8) o templateConfig =
        checkWith (withFile w template.toUTF8) o {} := checkWith_congr _ o rfl hactive
    rw [heq, check_withFile hlinks hcan parse?_template ho, hwithout, hsame]
    refine ⟨hexit, hprinted, hfailure, ?_⟩
    rw [← hlog]
    rfl

end Results

/-- **`init` is neutral and never destroys.**  For every workspace without links. -/
theorem init_isNeutral (w : Workspace) (hlinks : w.tree.HasNoLinks)
    (hwell : w.tree.IsWellNamed) (habsolute : Path.isAbsolute w.directory = true) :
    InitIsNeutral w where
  keeps := init_of_pathExists
  frame := init_without hlinks
  writes force := by
    rcases init_cases hlinks force with hfails | ⟨hfailure, heq, hcan⟩
    · exact .inl hfails
    · rw [heq]
      exact .inr ⟨hfailure, readText_withFile hlinks hcan isLocal_initPath template⟩
  twice _ _ := init_init hlinks
  decodes force hfailure := by
    rcases init_cases hlinks force with ⟨hfails, -⟩ | ⟨-, heq, hcan⟩
    · exact absurd hfailure hfails
    · rw [heq]
      exact ⟨templateConfig, load_withFile hlinks hcan isLocal_initPath parse?_template, rfl,
        fun r hr => (isActive_templateConfig r hr).1⟩
  neutral habsent helsewhere force _ :=
    check_init hlinks hwell habsolute habsent helsewhere force

/-- A user with a home directory, and a class that is not in order: a check says so before
and after, and writing the file again leaves it as it is. -/
theorem init_isNeutral_of_home :
    let w : Workspace :=
      { tree := ⟨[("a.cs", .file "class AggregateA { AggregateA() { } }".toUTF8)]⟩
        home := some "/home" }
    (w.tree.HasNoLinks ∧ w.tree.IsWellNamed ∧ Path.isAbsolute w.directory = true
        ∧ (∀ s ∈ ConfigSource.candidates w ".", ConfigSource.isPresent w s = false)
        ∧ IgnoresElsewhere w)
      ∧ (check w {} none).exit = 1 ∧ (check (init w false).workspace {} none).exit = 1
      ∧ (init w false).failure = none
      ∧ (init (init w false).workspace true).workspace = (init w false).workspace := by
  intro w
  have hlinks : w.tree.HasNoLinks := by decide
  have hwell : w.tree.IsWellNamed := by decide
  have habsolute : Path.isAbsolute w.directory = true := by decide
  have habsent : ∀ s ∈ ConfigSource.candidates w ".", ConfigSource.isPresent w s = false := by
    decide +kernel
  have helsewhere : IgnoresElsewhere w := by
    have hpath : Ignore.userPath? w = some "/home/.config/git/ignore" := by decide +kernel
    intro path heq
    rw [hpath] at heq
    cases heq
    unfold initLocation
    decide
  have hexit : (check w {} none).exit = 1 := by decide +kernel
  have hwrites : (init w false).failure = none := by decide +kernel
  have hneutral := init_isNeutral w hlinks hwell habsolute
  obtain ⟨hsame, -⟩ := hneutral.neutral habsent helsewhere false {} rfl
  exact ⟨⟨hlinks, hwell, habsolute, habsent, helsewhere⟩, hexit, hsame.trans hexit, hwrites,
    hneutral.twice false true (.inr hwrites)⟩

/-- A user who has made the file the ignore file for everything.  Once it is written,
`[analyzer]` hides the directory `a`, so a check does not find what it found before; and where
the user's ignore file is cannot be left out. -/
theorem exit_check_init_ne_of_ignoreFile :
    let w : Workspace :=
      { tree := ⟨
          [(".gitconfig", .file "[core]\nexcludesfile = aggregate-lint.toml\n".toUTF8),
            ("a", .directory [("x.cs", .file "class AggregateX { AggregateX() { } }".toUTF8)])]⟩
        home := some "/" }
    (w.tree.HasNoLinks ∧ w.tree.IsWellNamed ∧ Path.isAbsolute w.directory = true
        ∧ ∀ s ∈ ConfigSource.candidates w ".", ConfigSource.isPresent w s = false)
      ∧ (init w false).failure = none
      ∧ (check w {} none).exit = 1 ∧ (check (init w false).workspace {} none).exit = 0 := by
  intro w
  have hlinks : w.tree.HasNoLinks := by decide
  have hwell : w.tree.IsWellNamed := by decide
  have hwrites : (init w false).failure = none := by decide +kernel
  refine ⟨⟨hlinks, hwell, by decide, by decide +kernel⟩, hwrites, by decide +kernel, ?_⟩
  obtain ⟨heq, hcan⟩ : (init w false).workspace = withFile w template.toUTF8 ∧ CanInit w :=
    (init_cases hlinks false).elim (fun h => absurd hwrites h.1) And.right
  let u := withFile w template.toUTF8
  have hpath : Ignore.userPath? u = some initPath := by decide +kernel
  have hentry : u.tree.entryOf u.directory initPath = .ok (.file template.toUTF8) :=
    entryOf_withFile hlinks hcan isLocal_initPath _
  have huser : Ignore.userFile u = .ofBytes template.toUTF8 := by
    rw [Ignore.userFile_eq, hpath, Option.map_some, shown, hentry]
    rfl
  have hcheck : (check u {} none).exit = exitOf (analyzed u {} templateConfig) := by
    rw [check_withFile hlinks hcan parse?_template rfl, ← exit_checkWith]
  rw [heq, hcheck, analyzed, rooted, rootless, huser, Ignore.IgnoreFile.ofBytes,
    ← Text.bytesOf_toList, template, Text.toList_unlines]
  decide +kernel

end Command
end AggregateAudit
