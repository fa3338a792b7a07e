import AggregateAudit.Proofs.Bystanders
import AggregateAudit.Proofs.ConfiguredRoot

/-!
# One configuration file matters

A check uses the configuration file that it was asked to use, or the first candidate that
is a file, or none (`ConfigSource.isChosen_iff`).  The other candidates are not read, so one
expects that a check comes to the same whatever is in those of lower rank, or whether they
are there at all.

That is nearly so.  The choice ends before a lower candidate is looked at
(`DecidedBefore`), and the analysis passes it by (`checkWith_without`).  But a path that is
looked up for another reason may lead to it: the path to check may be such a candidate, or go
through one, and so may what somebody has written down as the place of an ignore file.  What
`LooksUp` lists are all the paths on which it depends; where they avoid the lower candidates,
two workspaces that differ only there cannot be told apart by a check
(`check_oneFileMatters`).
-/

namespace AggregateAudit

open FileTree

/-! ## The choice -/

namespace ConfigSource

/-- Which source the configuration for a directory has. -/
inductive IsChosen (w : Workspace) (directory : Path) : Option Path → ConfigSource → Prop
  /-- A file that is asked for counts, whether it exists or not. -/
  | explicit (path : Path) : IsChosen w directory (some path) (.explicit path)
  /-- Otherwise the first candidate counts that is a file. -/
  | first {before after : List ConfigSource} {s : ConfigSource}
      (h : candidates w directory = before ++ s :: after)
      (hbefore : ∀ x ∈ before, isPresent w x = false) (hs : isPresent w s = true) :
      IsChosen w directory none s
  /-- If none of them is one, the defaults count. -/
  | defaults (h : ∀ x ∈ candidates w directory, isPresent w x = false) :
      IsChosen w directory none .defaults

theorem isChosen_iff {w : Workspace} {directory : Path} {asked : Option Path}
    {s : ConfigSource} : IsChosen w directory asked s ↔ choose w directory asked = s := by
  constructor
  · intro h
    cases h with
    | explicit path => rfl
    | first hsplit hbefore hs =>
      have hfind : (candidates w directory).find? (isPresent w) = some s :=
        List.find?_eq_some_iff_append.mpr
          ⟨hs, _, _, hsplit, fun x hx => by rw [hbefore x hx]; rfl⟩
      rw [choose, hfind, Option.getD_some]
    | defaults hnone =>
      have hfind : (candidates w directory).find? (isPresent w) = none :=
        List.find?_eq_none.mpr fun x hx => by rw [hnone x hx]; exact Bool.false_ne_true
      rw [choose, hfind, Option.getD_none]
  · rintro rfl
    cases asked with
    | some path => exact .explicit path
    | none =>
      rw [choose]
      cases hfind : (candidates w directory).find? (isPresent w) with
      | none =>
        exact .defaults fun x hx => Bool.eq_false_iff.mpr (List.find?_eq_none.mp hfind x hx)
      | some s =>
        obtain ⟨hs, before, after, hsplit, hbefore⟩ := List.find?_eq_some_iff_append.mp hfind
        exact .first hsplit (fun x hx => by simpa using hbefore x hx) hs

/-- The candidates that rank below the source of the configuration. -/
def lower (w : Workspace) (directory : Path) (asked : Option Path) : List ConfigSource :=
  match asked with
  | some _ => candidates w directory
  | none => ((candidates w directory).dropWhile fun s => !isPresent w s).drop 1

/-- Whether a location is that of a candidate below the source of the configuration. -/
def IsLower (w : Workspace) (directory : Path) (asked : Option Path)
    (location : List Path) : Prop :=
  ∃ s ∈ lower w directory asked, ∃ p, s.path? = some p ∧ locationOf w.directory p = location

variable {w : Workspace} {directory : Path} {asked : Option Path}

theorem mem_candidates_of_mem_lower {s : ConfigSource} (h : s ∈ lower w directory asked) :
    s ∈ candidates w directory := by
  cases asked with
  | some path => exact h
  | none => exact (List.dropWhile_sublist _).subset (List.mem_of_mem_drop h)

/-- The candidates are the names of a project in the directory, and the user's own file. -/
theorem cases_of_mem_candidates {s : ConfigSource} (h : s ∈ candidates w directory) :
    (∃ name ∈ projectNames, s = project (Path.join directory name))
      ∨ ∃ d, s = user (Path.join d userName) := by
  rw [candidates, List.mem_append] at h
  rcases h with h | h
  · obtain ⟨name, hname, rfl⟩ := List.mem_map.mp h
    exact .inl ⟨name, hname, rfl⟩
  · obtain ⟨d, -, rfl⟩ := Option.map_eq_some_iff.mp (Option.mem_toList.mp h)
    exact .inr ⟨d, rfl⟩

theorem isName_of_mem_fileNames {name : Path} (h : name ∈ fileNames) :
    Path.IsName name ∧ Path.isAbsolute name = false ∧ pieces name = [name] := by
  have hall : ∀ n ∈ fileNames, Path.IsName n ∧ Path.isAbsolute n = false := by decide
  obtain ⟨hname, hrelative⟩ := hall name h
  exact ⟨hname, hrelative, pieces_eq_of_isName hname⟩

/-- A candidate is in its directory. -/
theorem locationOf_join_name {name : Path} (h : name ∈ fileNames) (cwd directory : Path) :
    locationOf cwd (Path.join directory name) = locationOf cwd directory ++ [name] := by
  obtain ⟨hname, hrelative, hpieces⟩ := isName_of_mem_fileNames h
  rw [locationOf_join cwd directory hrelative, hpieces]
  exact stepFrom_of_isName hname _

theorem avoids_join_name {gone : List Path → Bool} {cwd : Path}
    (h : Avoids gone cwd directory) {name : Path} (hname : name ∈ fileNames)
    (hgone : gone (locationOf cwd directory ++ [name]) = false) :
    Avoids gone cwd (Path.join directory name) := by
  obtain ⟨hisName, hrelative, hpieces⟩ := isName_of_mem_fileNames hname
  refine h.join_names hrelative ?_ ?_
  · rw [hpieces]
    exact List.forall_mem_singleton.mpr hisName
  · rw [hpieces]
    exact isClear_concat_iff.mpr ⟨h.isClear (locationOf_mem_stations cwd directory), hgone⟩

/-- A lower candidate has one of the names of configuration files. -/
theorem IsLower.named {location : List Path} (h : IsLower w directory asked location) :
    ∃ parent, ∃ name ∈ fileNames, location = parent ++ [name] := by
  obtain ⟨s, hs, p, hp, rfl⟩ := h
  rcases cases_of_mem_candidates (mem_candidates_of_mem_lower hs) with ⟨name, hname, rfl⟩ | ⟨d, rfl⟩
  · cases hp
    have hmem : name ∈ fileNames := List.mem_append_left _ hname
    exact ⟨_, name, hmem, locationOf_join_name hmem w.directory directory⟩
  · cases hp
    have hmem : userName ∈ fileNames := List.mem_append_right _ (List.mem_singleton_self _)
    exact ⟨_, userName, hmem, locationOf_join_name hmem w.directory d⟩

/-- The first name in the directory that is a file is chosen, and what comes behind it is
lower. -/
theorem choose_eq_project {before after : List Path} {name : Path}
    (h : projectNames = before ++ name :: after)
    (hbefore : ∀ n ∈ before, w.isFile (Path.join directory n) = false)
    (hname : w.isFile (Path.join directory name) = true) :
    choose w directory none = project (Path.join directory name)
      ∧ lower w directory none = after.map (fun n => project (Path.join directory n))
        ++ ((userDirectory w).map fun d => user (Path.join d userName)).toList := by
  have hcandidates : candidates w directory =
      before.map (fun n => project (Path.join directory n)) ++
        project (Path.join directory name) ::
          (after.map (fun n => project (Path.join directory n))
            ++ ((userDirectory w).map fun d => user (Path.join d userName)).toList) := by
    rw [candidates, h]
    simp
  have habsent : ∀ x ∈ before.map (fun n => project (Path.join directory n)),
      isPresent w x = false := by
    intro x hx
    obtain ⟨n, hn, rfl⟩ := List.mem_map.mp hx
    exact hbefore n hn
  have hpresent : isPresent w (project (Path.join directory name)) = true := hname
  constructor
  · exact isChosen_iff.mp (.first hcandidates habsent hpresent)
  · rw [lower, hcandidates,
      List.dropWhile_append_of_pos fun x hx => by rw [habsent x hx]; rfl,
      List.dropWhile_cons_of_neg (by rw [hpresent]; exact Bool.false_ne_true)]
    rfl

/-- If no name in the directory is a file, nothing is lower than what is chosen. -/
theorem lower_eq_nil (h : ∀ n ∈ projectNames, w.isFile (Path.join directory n) = false) :
    lower w directory none = [] := by
  have habsent : ∀ x ∈ projectNames.map (fun n => project (Path.join directory n)),
      (!isPresent w x) = true := by
    intro x hx
    obtain ⟨n, hn, rfl⟩ := List.mem_map.mp hx
    rw [isPresent, path?]
    dsimp only
    rw [h n hn]
    rfl
  rw [lower, candidates, List.dropWhile_append_of_pos habsent]
  cases userDirectory w with
  | none => rfl
  | some d =>
    rw [Option.map_some, Option.toList_some, List.dropWhile_cons]
    split <;> rfl

end ConfigSource

namespace Command

open ConfigSource

/-- Whether the choice of a configuration ends before anything that is gone is looked at. -/
inductive DecidedBefore (w : Workspace) (directory : Path) (gone : List Path → Bool) :
    Option Path → Prop
  | explicit (path : Path) : DecidedBefore w directory gone (some path)
  | project {before after : List Path} {name : Path}
      (h : projectNames = before ++ name :: after)
      (hbefore : ∀ n ∈ before, w.isFile (Path.join directory n) = false)
      (hname : w.isFile (Path.join directory name) = true)
      (hgone : ∀ n ∈ before ++ [name], gone (locationOf w.directory directory ++ [n]) = false) :
      DecidedBefore w directory gone none
  | nothing {asked : Option Path} (h : ∀ location, gone location = false) :
      DecidedBefore w directory gone asked

/-- What is gone is lower than what is chosen, so the choice ends before. -/
theorem decidedBefore_of_isLower {w : Workspace} {directory : Path} {gone : List Path → Bool}
    {asked : Option Path} (h : ∀ l, gone l = true → IsLower w directory asked l) :
    DecidedBefore w directory gone asked := by
  cases asked with
  | some path => exact .explicit path
  | none =>
    cases hfind : projectNames.find? fun n => w.isFile (Path.join directory n) with
    | none =>
      refine .nothing fun l => Bool.eq_false_iff.mpr fun hgone => ?_
      have hnil : ConfigSource.lower w directory none = [] := lower_eq_nil
        fun n hn => Bool.eq_false_iff.mpr (List.find?_eq_none.mp hfind n hn)
      obtain ⟨s, hs, -⟩ := h l hgone
      rw [hnil] at hs
      cases hs
    | some name =>
      obtain ⟨hname, before, after, hsplit, hbefore⟩ := List.find?_eq_some_iff_append.mp hfind
      have hbefore : ∀ n ∈ before, w.isFile (Path.join directory n) = false :=
        fun n hn => by simpa using hbefore n hn
      refine .project hsplit hbefore hname fun n hn => Bool.eq_false_iff.mpr fun hgone => ?_
      -- a lower candidate at this location would have this name
      have hlower := (choose_eq_project hsplit hbefore hname).2
      have hnodup : (before ++ [name] ++ after).Nodup := by
        rw [← List.append_cons, ← hsplit]
        decide
      have hproject : ∀ m ∈ before ++ name :: after, m ∈ fileNames := by
        rw [← hsplit]
        decide
      have hnmem : n ∈ before ++ name :: after := by
        rw [List.append_cons]
        exact List.mem_append_left _ hn
      obtain ⟨s, hs, p, hp, hlocation⟩ := h _ hgone
      rw [hlower] at hs
      rcases List.mem_append.mp hs with hs | hs
      · obtain ⟨m, hm, rfl⟩ := List.mem_map.mp hs
        cases hp
        have hmmem : m ∈ before ++ name :: after := by simp [hm]
        rw [locationOf_join_name (hproject m hmmem)] at hlocation
        obtain ⟨-, heq⟩ := List.append_inj' hlocation rfl
        rw [(List.cons.inj heq).1] at hm
        exact List.disjoint_of_nodup_append hnodup hn hm
      · obtain ⟨d, -, rfl⟩ := Option.map_eq_some_iff.mp (Option.mem_toList.mp hs)
        cases hp
        rw [locationOf_join_name (by decide)] at hlocation
        obtain ⟨-, heq⟩ := List.append_inj' hlocation rfl
        rw [← (List.cons.inj heq).1, ← hsplit] at hnmem
        revert hnmem
        decide

/-! ## Two workspaces -/

/-- The paths that a check looks up for another reason than that a candidate may be there,
as far as somebody has written them down. -/
inductive LooksUp (w : Workspace) (o : CheckOptions) (asked : Option Path) :
    (path : Path) → Prop
  /-- The path to check, as it was given. -/
  | given : LooksUp w o asked o.path
  /-- The path to check, seen from the working directory. -/
  | root : LooksUp w o asked (w.absolute o.path)
  /-- The configuration file that was asked for. -/
  | config {path : Path} (h : asked = some path) : LooksUp w o asked path
  /-- The configurations in which the place of the user's ignore file may be set. -/
  | gitConfig {path : Path} (h : path ∈ Ignore.configPaths w) : LooksUp w o asked path
  /-- The user's ignore file. -/
  | userIgnore {path : Path} (h : Ignore.userPath? w = some path) : LooksUp w o asked path
  /-- Where a file leads that marks a work directory above or below the path to check. -/
  | repository {location : List Path} {entry : Entry} {path : Path}
      (hlocation : location <+: locationOf w.directory (w.absolute o.path)
        ∨ locationOf w.directory (w.absolute o.path) <+: location)
      (hentry : w.tree.entryAt? location = some entry)
      (h : Ignore.Refers w.tree w.directory location path) : LooksUp w o asked path

/-- Two workspaces that differ in nothing but lower candidates. -/
structure DifferBelow (w v : Workspace) (o : CheckOptions) (asked : Option Path)
    (gone : List Path → Bool) : Prop where
  /-- Without what is at some locations they are the same. -/
  same : w.without gone = v.without gone
  /-- At each of these locations there is a file, an empty directory or nothing, in both. -/
  slight : ∀ l entry, gone l = true →
    w.tree.entryAt? l = some entry ∨ v.tree.entryAt? l = some entry → entry.IsSlight
  /-- Each is that of a candidate of lower rank. -/
  lower : ∀ l, gone l = true → IsLower w o.path asked l
  /-- None is that of the chosen file. -/
  others : ∀ path, (choose w o.path asked).path? = some path →
    gone (locationOf w.directory path) = false

section Without

variable {w v : Workspace} {o : CheckOptions} {asked : Option Path}
  {gone : List Path → Bool}

theorem without_nothing (h : ∀ l, gone l = false) (w : Workspace) : w.without gone = w := by
  rw [Workspace.without, FileTree.without_nothing h]

/-- The candidates up to the chosen one are looked up on a way that avoids what is gone. -/
theorem avoids_of_split {before after : List Path} {name cwd directory : Path}
    (h : projectNames = before ++ name :: after) (hpath : Avoids gone cwd directory)
    (hgone : ∀ n ∈ before ++ [name], gone (locationOf cwd directory ++ [n]) = false) :
    ∀ n ∈ before ++ [name], Avoids gone cwd (Path.join directory n) := by
  intro n hn
  have hmem : n ∈ projectNames := by
    rw [h, List.append_cons]
    exact List.mem_append_left _ hn
  exact avoids_join_name hpath (List.mem_append_left _ hmem) (hgone n hn)

/-- The same choice is made without what is gone, and the same is read. -/
theorem choose_without (hlinks : w.tree.HasNoLinks)
    (hdecided : DecidedBefore w o.path gone asked)
    (hlooks : ∀ path, LooksUp w o asked path → Avoids gone w.directory path) :
    choose (w.without gone) o.path asked = choose w o.path asked
      ∧ (choose w o.path asked).load (w.without gone) = (choose w o.path asked).load w := by
  cases hdecided with
  | explicit path =>
    have hread : (w.without gone).readText path = w.readText path :=
      readText_without hlinks (hlooks path (.config rfl))
    refine ⟨rfl, ?_⟩
    rw [choose, load, load, path?]
    dsimp only
    rw [hread]
  | @project before after name h hbefore hname hgone =>
    have havoids := avoids_of_split h (hlooks _ .given) hgone
    have hfile : ∀ n ∈ before ++ [name],
        (w.without gone).isFile (Path.join o.path n) = w.isFile (Path.join o.path n) :=
      fun n hn => isFile_without hlinks (havoids n hn)
    have hlast : name ∈ before ++ [name] := by simp
    have hchosen := (choose_eq_project h hbefore hname).1
    have hleft : choose (w.without gone) o.path none = project (Path.join o.path name) :=
      (choose_eq_project h (fun n hn => by rw [hfile n (List.mem_append_left _ hn), hbefore n hn])
        (by rw [hfile name hlast, hname])).1
    have hread : (w.without gone).readText (Path.join o.path name) =
        w.readText (Path.join o.path name) := readText_without hlinks (havoids name hlast)
    rw [hchosen, hleft, load, load, path?]
    dsimp only
    exact ⟨rfl, by rw [hread]⟩
  | nothing h =>
    rw [without_nothing h]
    exact ⟨rfl, rfl⟩

theorem directory_eq_of_without (h : w.without gone = v.without gone) :
    v.directory = w.directory := by
  have hleft : (w.without gone).directory = (v.without gone).directory := congrArg _ h
  exact hleft.symm

/-- Where two workspaces are the same, the choice ends at the same point. -/
theorem DecidedBefore.congr (hdecided : DecidedBefore w o.path gone asked)
    (hsame : w.without gone = v.without gone) (hw : w.tree.HasNoLinks) (hv : v.tree.HasNoLinks)
    (hpath : Avoids gone w.directory o.path) : DecidedBefore v o.path gone asked := by
  have hdirectory := directory_eq_of_without hsame
  cases hdecided with
  | explicit path => exact .explicit path
  | @project before after name h hbefore hname hgone =>
    have hfile : ∀ n ∈ before ++ [name],
        v.isFile (Path.join o.path n) = w.isFile (Path.join o.path n) := by
      intro n hn
      have havoids := avoids_of_split h hpath hgone n hn
      have hleft : (w.without gone).isFile (Path.join o.path n) = w.isFile (Path.join o.path n) :=
        isFile_without hw havoids
      have havoidsv : Avoids gone v.directory (Path.join o.path n) := by rwa [hdirectory]
      have hright : (v.without gone).isFile (Path.join o.path n) = v.isFile (Path.join o.path n) :=
        isFile_without hv havoidsv
      rw [← hleft, ← hright, hsame]
    refine .project h (fun n hn => ?_) ?_ ?_
    · rw [hfile n (List.mem_append_left _ hn), hbefore n hn]
    · rw [hfile name (by simp), hname]
    · rwa [hdirectory]
  | nothing h => exact .nothing h

/-- **A check does not see what ranks below the file that it uses**, if no other path leads
there. -/
theorem check_without (hlinks : w.tree.HasNoLinks) (hwell : w.tree.IsWellNamed)
    (hdecided : DecidedBefore w o.path gone asked) (hbystanders : w.tree.AreBystanders gone)
    (hlooks : ∀ path, LooksUp w o asked path → Avoids gone w.directory path) :
    check (w.without gone) o asked = { check w o asked with workspace := w.without gone } := by
  obtain ⟨hchoose, hload⟩ := choose_without hlinks hdecided hlooks
  have hbypasses : Discovery.Bypasses w.tree gone w.directory (w.absolute o.path) :=
    { noLinks := hlinks
      wellNamed := hwell
      bystanders := hbystanders
      root := hlooks _ .root
      refers := fun location entry path hlocation hentry _ hrefers =>
        shown_of_avoids hlinks (hlooks path (.repository hlocation hentry hrefers)) }
  have huser : Ignore.userFile (w.without gone) = Ignore.userFile w := by
    refine Ignore.userFile_congr (fun config hconfig => ?_) fun path hpath => ?_
    · have hshown := shown_of_avoids hlinks (hlooks config (.gitConfig hconfig))
      rw [Ignore.pathSetIn?_eq, Ignore.pathSetIn?_eq]
      dsimp only
      rw [hshown]
    · exact shown_of_avoids hlinks (hlooks path (.userIgnore hpath))
  rw [check, check, hchoose, hload]
  cases (choose w o.path asked).load w with
  | error f => rfl
  | ok c =>
    dsimp only
    rw [checkWith_without hbypasses huser c]

theorem DifferBelow.areBystanders (h : DifferBelow w v o asked gone) :
    w.tree.AreBystanders gone ∧ v.tree.AreBystanders gone :=
  ⟨⟨fun l hl => (h.lower l hl).named, fun l e hl he => h.slight l e hl (.inl he)⟩,
    ⟨fun l hl => (h.lower l hl).named, fun l e hl he => h.slight l e hl (.inr he)⟩⟩

end Without

/-- What it means that a check depends on one configuration file and no other. -/
structure OneFileMatters (w : Workspace) (o : CheckOptions) (asked : Option Path) : Prop where
  /-- It is the file that is asked for, else the first candidate that is a file, else none. -/
  chosen : IsChosen w o.path asked (choose w o.path asked)
  /-- A file that is asked for and cannot be read is not replaced; the check fails. -/
  fails : ∀ path fault, asked = some path → w.readText path = .error fault →
    (check w o asked).exit = 1 ∧ (check w o asked).failure =
      some ⟨"Failed to load config: " ++ path.display, (ConfigFault.unreadable path fault).chain⟩
  /-- What is there of the lower candidates makes no difference to the status, to what is
  printed, logged and told as a failure, if no path that is looked up otherwise leads to one
  of those that differ, or through it. -/
  disregards : ∀ v gone, v.tree.HasNoLinks → v.tree.IsWellNamed → DifferBelow w v o asked gone →
    (∀ path, LooksUp w o asked path ∨ LooksUp v o asked path → Avoids gone w.directory path) →
    (check v o asked).exit = (check w o asked).exit
      ∧ (check v o asked).printed = (check w o asked).printed
      ∧ (check v o asked).failure = (check w o asked).failure
      ∧ (check v o asked).log = (check w o asked).log

/-- **Exactly one configuration file matters.**  For every workspace without links, every
path to check and every option. -/
theorem check_oneFileMatters (w : Workspace) (o : CheckOptions) (asked : Option Path)
    (hlinks : w.tree.HasNoLinks) (hwell : w.tree.IsWellNamed) : OneFileMatters w o asked where
  chosen := isChosen_iff.mpr rfl
  fails path fault hasked hread := by
    subst hasked
    have hload : (choose w o.path (some path)).load w = .error (.unreadable path fault) := by
      rw [choose, load, path?]
      dsimp only
      rw [hread]
    rw [check, hload]
    exact ⟨rfl, rfl⟩
  disregards v gone hvlinks hvwell hdiffer hlooks := by
    have hdirectory := directory_eq_of_without hdiffer.same
    have hdecided := decidedBefore_of_isLower hdiffer.lower
    have hdecidedv := hdecided.congr hdiffer.same hlinks hvlinks (hlooks _ (.inl .given))
    have hw := check_without hlinks hwell hdecided hdiffer.areBystanders.1
      fun path hpath => hlooks path (.inl hpath)
    have hv := check_without hvlinks hvwell hdecidedv hdiffer.areBystanders.2 fun path hpath => by
      rw [hdirectory]
      exact hlooks path (.inr hpath)
    rw [← hdiffer.same, hw] at hv
    exact ⟨(congrArg Outcome.exit hv).symm, (congrArg Outcome.printed hv).symm,
      (congrArg Outcome.failure hv).symm, (congrArg Outcome.log hv).symm⟩

/-- Beside the chosen file there is one of lower rank, which nobody could read as a
configuration; whether it is there makes no difference. -/
theorem check_oneFileMatters_of_two_candidates :
    let w : Workspace := { tree := ⟨
      [("aggregate-lint.toml", .file "".toUTF8), (".aggregate-lint.toml", .file "]".toUTF8)]⟩ }
    let v : Workspace := { w with tree := ⟨[("aggregate-lint.toml", .file "".toUTF8)]⟩ }
    let gone (l : List Path) : Bool := l = [Path.ofString ".aggregate-lint.toml"]
    (w.tree.HasNoLinks ∧ w.tree.IsWellNamed ∧ v.tree.HasNoLinks ∧ v.tree.IsWellNamed
        ∧ DifferBelow w v {} none gone
        ∧ ∀ path, LooksUp w {} none path ∨ LooksUp v {} none path → Avoids gone w.directory path)
      ∧ IsChosen w "." none (.project "./aggregate-lint.toml")
      ∧ (check v {} none).exit = (check w {} none).exit
      ∧ (check v {} none).printed = (check w {} none).printed := by
  intro w v gone
  have hlinks : w.tree.HasNoLinks ∧ v.tree.HasNoLinks := by decide
  have hwell : w.tree.IsWellNamed ∧ v.tree.IsWellNamed := by decide
  have hdiffer : DifferBelow w v {} none gone :=
    { same := rfl
      slight := by
        intro l entry hgone hentry
        rw [of_decide_eq_true hgone] at hentry
        rcases hentry with hentry | hentry
        · cases hentry
          exact .file _
        · cases hentry
      lower := by
        intro l hgone
        rw [of_decide_eq_true hgone]
        exact ⟨.project "./.aggregate-lint.toml", by decide +kernel, "./.aggregate-lint.toml", rfl,
          by decide⟩
      others := by
        intro path hpath
        have hchosen : choose w "." none = .project "./aggregate-lint.toml" := by decide +kernel
        rw [hchosen] at hpath
        cases hpath
        decide }
  have hlooks : ∀ u : Workspace, u = w ∨ u = v → ∀ path, LooksUp u {} none path →
      Avoids gone w.directory path := by
    intro u hu path hpath
    cases hpath with
    | given => decide
    | root =>
      rcases hu with rfl | rfl
      · decide
      · decide
    | config h => cases h
    | gitConfig h =>
      rcases hu with rfl | rfl
      · cases h
      · cases h
    | userIgnore h =>
      rcases hu with rfl | rfl
      · cases h
      · cases h
    | repository hlocation hentry hrefers =>
      exfalso
      rcases hu with rfl | rfl
      · exact hrefers.lookup_mark hlinks.1 hwell.1 hentry (by simp [w, Entry.isDirectory]) rfl
      · exact hrefers.lookup_mark hlinks.2 hwell.2 hentry (by simp [v, Entry.isDirectory]) rfl
  obtain ⟨hchosen, -, hdisregards⟩ := check_oneFileMatters w {} none hlinks.1 hwell.1
  obtain ⟨hexit, hprinted, -, -⟩ := hdisregards v gone hlinks.2 hwell.2 hdiffer
    fun path hpath => hpath.elim (hlooks w (.inl rfl) path) (hlooks v (.inr rfl) path)
  have hproject : choose w "." none = .project "./aggregate-lint.toml" := by decide +kernel
  exact ⟨⟨hlinks.1, hwell.1, hlinks.2, hwell.2, hdiffer, fun path hpath =>
      hpath.elim (hlooks w (.inl rfl) path) (hlooks v (.inr rfl) path)⟩,
    hproject ▸ hchosen, hexit, hprinted⟩

/-- A path that is asked for a configuration, and the file of lower rank beside it, which is
also the path to check: without it there is nothing to check, and with it there is.  So the
statuses differ, and what the paths avoid cannot be left out. -/
theorem exit_check_ne_of_checked_candidate :
    let w : Workspace := { tree := ⟨[("c.toml", .file "".toUTF8)]⟩, configDirectory := some "/" }
    let v : Workspace :=
      { w with tree := ⟨[("c.toml", .file "".toUTF8), ("config.toml", .file "".toUTF8)]⟩ }
    let o : CheckOptions := { path := "config.toml" }
    let gone (l : List Path) : Bool := l = [Path.ofString "config.toml"]
    (w.tree.HasNoLinks ∧ w.tree.IsWellNamed ∧ v.tree.HasNoLinks ∧ v.tree.IsWellNamed
        ∧ DifferBelow w v o (some "c.toml") gone)
      ∧ (check w o (some "c.toml")).exit = 1 ∧ (check v o (some "c.toml")).exit = 0 := by
  intro w v o gone
  have hlinks : w.tree.HasNoLinks ∧ v.tree.HasNoLinks := by decide
  have hwell : w.tree.IsWellNamed ∧ v.tree.IsWellNamed := by decide
  have hdiffer : DifferBelow w v o (some "c.toml") gone :=
    { same := rfl
      slight := by
        intro l entry hgone hentry
        rw [of_decide_eq_true hgone] at hentry
        rcases hentry with hentry | hentry
        · cases hentry
        · cases hentry
          exact .file _
      lower := by
        intro l hgone
        rw [of_decide_eq_true hgone]
        exact ⟨.user "/config.toml", by decide, "/config.toml", rfl, by decide⟩
      others := by
        intro path hpath
        cases hpath
        decide }
  refine ⟨⟨hlinks.1, hwell.1, hlinks.2, hwell.2, hdiffer⟩, ?_, ?_⟩
  · decide +kernel
  · decide +kernel

end Command
end AggregateAudit
