import AggregateAudit.Command.Check
import AggregateAudit.Proofs.PlainPaths
import AggregateAudit.Proofs.RuleIndependence
import AggregateAudit.Proofs.Unreadable

/-!
# Files that are no business of a check

A configuration file is no source file and no ignore file, so a walk passes it by; and the
same is true of an empty directory that has the name of one.  Such things are bystanders
(`FileTree.AreBystanders`).  One would think that a check does not see whether they are
there at all, and this file says when that is so.

A check does not only walk.  It looks up the path that it was given, and the ignore files of
a repository where a file says that they are, and the user's own ignore file.  Any of these
paths may be written so that it leads to a bystander, or through one and back, and then it
matters.  If none of them is (`Discovery.Bypasses`), then what is found is the same without
the bystanders (`Search.candidates_without_bystanders`), and so is the whole run, with its
log (`Analysis.run_without_bystanders`), and all that a check leaves behind
(`Command.checkWith_without`).

Nothing is assumed of links elsewhere: there are none.
-/

namespace AggregateAudit

/-! ## Bystanders -/

/-- The names that a configuration file has where it is not asked for. -/
def ConfigSource.fileNames : List Path := projectNames ++ [userName]

/-- Whether an entry is a file, which need not be one that can be opened, or an empty
directory. -/
inductive Entry.IsSlight : Entry → Prop
  | file (content : ByteArray) : IsSlight (.file content)
  | barred (why : Refusal) : IsSlight (.barred why)
  | directory : IsSlight (.directory [])

/-- What is at some locations of a tree has the name of a configuration file, and it is a
file, an empty directory, or nothing. -/
structure FileTree.AreBystanders (t : FileTree) (gone : List Path → Bool) : Prop where
  named : ∀ location, gone location = true →
    ∃ directory, ∃ name ∈ ConfigSource.fileNames, location = directory ++ [name]
  slight : ∀ location entry, gone location = true → t.entryAt? location = some entry →
    entry.IsSlight

theorem ConfigSource.not_isSourceFile {name : Path} (h : name ∈ fileNames) :
    isSourceFile name = false := by
  have hall : ∀ n ∈ fileNames, isSourceFile n = false := by decide
  exact hall name h

namespace FileTree

variable {t : FileTree} {gone : List Path → Bool}

namespace AreBystanders

variable (h : t.AreBystanders gone)

include h

theorem not_gone_concat (location : List Path) {name : Path}
    (hname : name ∉ ConfigSource.fileNames) : gone (location ++ [name]) = false := by
  rw [Bool.eq_false_iff]
  intro hgone
  obtain ⟨directory, n, hn, heq⟩ := h.named _ hgone
  obtain ⟨-, hlast⟩ := List.append_inj' heq rfl
  rw [List.cons.inj hlast |>.1] at hname
  exact hname hn

theorem not_gone_nil : gone [] = false := by
  rw [Bool.eq_false_iff]
  intro hgone
  obtain ⟨directory, n, -, heq⟩ := h.named _ hgone
  simp at heq

/-- Below a clear location other names stay clear. -/
theorem isClear_append {location row : List Path} (hlocation : IsClear gone location)
    (hrow : ∀ n ∈ row, n ∉ ConfigSource.fileNames) : IsClear gone (location ++ row) := by
  induction row using List.reverseRecOn with
  | nil => rwa [List.append_nil]
  | append_singleton row name ih =>
    obtain ⟨hrow, hname⟩ := List.forall_mem_append.mp hrow
    rw [← List.append_assoc]
    exact isClear_concat_iff.mpr
      ⟨ih hrow, h.not_gone_concat _ (hname name (List.mem_singleton_self name))⟩

end AreBystanders

/-- The names above something in a well-named tree are names. -/
theorem IsWellNamed.areNames (ht : t.IsWellNamed) {location : List Path} {entry : Entry}
    (h : t.entryAt? location = some entry) : ∀ n ∈ location, Path.IsName n := by
  induction location using List.reverseRecOn generalizing entry with
  | nil => exact fun n hn => absurd hn List.not_mem_nil
  | append_singleton above name ih =>
    obtain ⟨es, hes⟩ := exists_directory_of_entryAt? h
    rw [entryAt?_append hes] at h
    refine List.forall_mem_append.mpr ⟨ih hes, ?_⟩
    intro n hn
    rw [List.mem_singleton.mp hn]
    exact ((ht.entryAt hes).2.of_mem (Entry.mem_of_lookup h)).1

end FileTree

namespace Entry

variable (gone : List Path → Bool)

theorem sublist_allWithout (location : List Path) (entries : List (Path × Entry)) :
    ((allWithout gone location entries).map Prod.fst).Sublist (entries.map Prod.fst) := by
  induction entries with
  | nil => exact .slnil
  | cons first rest ih =>
    rw [allWithout, List.map_cons]
    split
    · exact ih.cons _
    · exact ih.cons_cons _

mutual

theorem isWellNamed_without (location : List Path) (entry : Entry) (h : entry.IsWellNamed) :
    (entry.without gone location).IsWellNamed := by
  match entry with
  | .file _ | .barred _ | .link _ => trivial
  | .directory entries =>
    exact ⟨h.1.sublist (sublist_allWithout gone location entries),
      areWellNamed_allWithout location entries h.2⟩

theorem areWellNamed_allWithout (location : List Path) (entries : List (Path × Entry))
    (h : AreWellNamed entries) : AreWellNamed (allWithout gone location entries) := by
  match entries with
  | [] => trivial
  | (name, entry) :: rest =>
    have hrest := areWellNamed_allWithout location rest h.2.2
    rw [allWithout]
    split
    · exact hrest
    · exact ⟨h.1, isWellNamed_without _ entry h.2.1, hrest⟩

end

end Entry

mutual

theorem Entry.without_nothing {gone : List Path → Bool} (h : ∀ location, gone location = false)
    (location : List Path) (entry : Entry) : entry.without gone location = entry := by
  match entry with
  | .file _ | .barred _ | .link _ => rfl
  | .directory entries => rw [Entry.without, Entry.allWithout_nothing h location entries]

theorem Entry.allWithout_nothing {gone : List Path → Bool}
    (h : ∀ location, gone location = false) (location : List Path)
    (entries : List (Path × Entry)) : Entry.allWithout gone location entries = entries := by
  match entries with
  | [] => rfl
  | (name, entry) :: rest =>
    rw [Entry.allWithout, h, if_neg Bool.false_ne_true, Entry.without_nothing h _ entry,
      Entry.allWithout_nothing h location rest]

end

/-- Without nothing, everything is as it was. -/
theorem FileTree.without_nothing {gone : List Path → Bool} (h : ∀ location, gone location = false)
    (t : FileTree) : t.without gone = t := by
  rw [FileTree.without, Entry.allWithout_nothing h]

theorem FileTree.IsWellNamed.without {t : FileTree} (h : t.IsWellNamed)
    (gone : List Path → Bool) : (t.without gone).IsWellNamed :=
  Entry.isWellNamed_without gone [] (.directory t.entries) h

/-! ## What is shown -/

namespace FileTree

variable {t : FileTree} {gone : List Path → Bool} {cwd path : Path} {content : ByteArray}

theorem entryOf_of_shown (h : t.shown cwd path = some (.file content)) :
    t.entryOf cwd path = .ok (.file content) := by
  rw [shown] at h
  rcases hentry : t.entryOf cwd path with _ | (_ | _ | _ | _)
  · rw [hentry] at h
    cases h
  · rw [hentry] at h
    cases h
    rfl
  all_goals
    rw [hentry] at h
    cases h

/-- What is shown at a path is at its end. -/
theorem HasNoLinks.entryAt?_of_shown (ht : t.HasNoLinks)
    (h : t.shown cwd path = some (.file content)) :
    t.entryAt? (locationOf cwd path) = some (.file content) := by
  obtain ⟨place, hlocate, hentry⟩ := exists_locate_of_entryOf (entryOf_of_shown h)
  rwa [(ht.locate_eq_ok hlocate).1] at hentry

/-- What a path avoids makes no difference to what it shows. -/
theorem shown_of_avoids (ht : t.HasNoLinks) (h : Avoids gone cwd path) :
    (t.without gone).shown cwd path = t.shown cwd path := by
  rw [shown, shown, entryOf_without ht h]
  rcases t.entryOf cwd path with _ | (_ | _ | _ | _) <;> rfl

end FileTree

/-! ## Ignore files -/

namespace Ignore

/-- The paths that a file which marks a work directory leads to. -/
inductive Refers (t : FileTree) (cwd : Path) (location : List Path) : (path : Path) → Prop
  /-- The file that may name the shared directory. -/
  | shared {content : ByteArray} {own : Path}
      (hfile : t.shown cwd (Path.join (FileTree.pathOf location) repositoryMark) =
        some (.file content))
      (hown : namedDirectory (Path.join (FileTree.pathOf location) repositoryMark) content =
        .ok own) :
      Refers t cwd location (Path.join own sharedName)
  /-- The ignore file in the shared directory. -/
  | excludes {content : ByteArray} {own directory : Path}
      (hfile : t.shown cwd (Path.join (FileTree.pathOf location) repositoryMark) =
        some (.file content))
      (hown : namedDirectory (Path.join (FileTree.pathOf location) repositoryMark) content =
        .ok own)
      (hshared : sharedDirectory t cwd own = .ok directory) :
      Refers t cwd location (Path.join directory excludesName)

/-- The ignore file of a repository is where a file leads, or at its place in the
directory. -/
theorem refers_or_of_excludesPath {t : FileTree} {cwd path : Path} {location : List Path}
    (h : excludesPath t cwd (FileTree.pathOf location) = .ok path) :
    Refers t cwd location path ∨
      path = Path.join (Path.join (FileTree.pathOf location) repositoryMark) excludesName := by
  rw [excludesPath, repositoryDirectory_eq] at h
  split at h
  · next content hfile =>
    left
    cases hown : namedDirectory (Path.join (FileTree.pathOf location) repositoryMark) content with
    | error f =>
      rw [hown] at h
      cases h
    | ok own =>
      rw [hown] at h
      change Except.map _ (sharedDirectory t cwd own) = _ at h
      cases hshared : sharedDirectory t cwd own with
      | error f =>
        rw [hshared] at h
        cases h
      | ok directory =>
        rw [hshared] at h
        cases h
        exact .excludes hfile hown hshared
  · cases h
  · right
    cases h
    rfl

/-- What leads somewhere is a file in the directory. -/
theorem Refers.exists_mark {t : FileTree} {cwd path : Path} {location : List Path}
    (h : Refers t cwd location path) (hlinks : t.HasNoLinks)
    (hnames : ∀ n ∈ location, Path.IsName n) :
    ∃ content, t.entryAt? (location ++ [repositoryMark]) = some (.file content) := by
  have hshown : ∃ content, t.shown cwd (Path.join (FileTree.pathOf location) repositoryMark) =
      some (.file content) := by
    cases h with
    | shared hfile => exact ⟨_, hfile⟩
    | excludes hfile => exact ⟨_, hfile⟩
  obtain ⟨content, hshown⟩ := hshown
  have hentry := hlinks.entryAt?_of_shown hshown
  rw [FileTree.locationOf_join cwd _ (by decide), FileTree.locationOf_pathOf hnames] at hentry
  exact ⟨content, hentry⟩

/-- In a tree without further directories it is in the root directory. -/
theorem Refers.lookup_mark {t : FileTree} {cwd path : Path} {location : List Path}
    {entry : Entry} (h : Refers t cwd location path) (hlinks : t.HasNoLinks)
    (hwell : t.IsWellNamed) (hentry : t.entryAt? location = some entry)
    (hflat : ∀ x ∈ t.entries, x.2.isDirectory = false) :
    Entry.lookup repositoryMark t.entries ≠ none := by
  obtain ⟨content, hmark⟩ := h.exists_mark hlinks (hwell.areNames hentry)
  cases location with
  | nil =>
    intro hnone
    cases hnone.symm.trans hmark
  | cons name rest =>
    -- the mark would be below a name that stands for a directory
    obtain ⟨es, hes⟩ := FileTree.exists_directory_of_entryAt? hmark
    have hrow : t.entryAt? ([name] ++ rest) = some (.directory es) := hes
    obtain ⟨inside, hinside⟩ := FileTree.exists_directory_of_append hrow
    cases hflat _ (Entry.mem_of_lookup hinside)

/-! ## The user's ignore file -/

theorem pathSetIn?_eq (w : Workspace) (config : Path) :
    pathSetIn? w config =
      match w.tree.shown w.directory config with
      | some (.file bytes) =>
        match setting? true bytes.data.toList with
        | none => none
        | some value => (Utf8.decode? value).map (expandHome w.home)
      | _ => none := by
  rw [pathSetIn?, Workspace.readBytes, FileTree.readBytes, FileTree.shown]
  rcases w.tree.entryOf w.directory config with _ | (_ | _ | _ | _) <;> rfl

theorem userFile_eq (w : Workspace) :
    userFile w =
      match (userPath? w).map (w.tree.shown w.directory) with
      | some (some (.file bytes)) => .ofBytes bytes
      | _ => {} := by
  rw [userFile]
  cases userPath? w with
  | none => rfl
  | some path =>
    rw [Option.map_some, Option.map_some, Workspace.readBytes, FileTree.readBytes, FileTree.shown]
    rcases w.tree.entryOf w.directory path with _ | (_ | _ | _ | _) <;> rfl

/-- The place of the user's ignore file depends on what sets it. -/
theorem userPath?_congr {w : Workspace} {t : FileTree}
    (hset : ∀ config ∈ configPaths w,
      pathSetIn? { w with tree := t } config = pathSetIn? w config) :
    userPath? { w with tree := t } = userPath? w := by
  have hfind : ∀ configs : List Path,
      (∀ c ∈ configs, pathSetIn? { w with tree := t } c = pathSetIn? w c) →
      configs.findSome? (pathSetIn? { w with tree := t }) = configs.findSome? (pathSetIn? w) := by
    intro configs h
    induction configs with
    | nil => rfl
    | cons c configs ih =>
      obtain ⟨hc, hrest⟩ := List.forall_mem_cons.mp h
      rw [List.findSome?_cons, List.findSome?_cons, hc, ih hrest]
  have hpaths := hfind (configPaths w) hset
  rw [userPath?, userPath?, show configPaths { w with tree := t } = configPaths w from rfl, hpaths]
  rfl

/-- **The user's ignore file depends on what sets its place, and on what is there.** -/
theorem userFile_congr {w : Workspace} {t : FileTree}
    (hset : ∀ config ∈ configPaths w,
      pathSetIn? { w with tree := t } config = pathSetIn? w config)
    (hshown : ∀ path, userPath? w = some path →
      t.shown w.directory path = w.tree.shown w.directory path) :
    userFile { w with tree := t } = userFile w := by
  rw [userFile_eq, userFile_eq, userPath?_congr hset]
  cases hsome : userPath? w with
  | none => rfl
  | some path =>
    rw [Option.map_some, Option.map_some]
    dsimp only
    rw [hshown path hsome]

end Ignore

namespace Discovery

open FileTree

/-- What a search of a path needs so that it does not see whether bystanders are there. -/
structure Bypasses (t : FileTree) (gone : List Path → Bool) (cwd path : Path) : Prop where
  noLinks : t.HasNoLinks
  wellNamed : t.IsWellNamed
  bystanders : t.AreBystanders gone
  /-- The path itself avoids them. -/
  root : Avoids gone cwd path
  /-- Files that mark work directories do not lead to them. -/
  refers : ∀ location entry path',
    (location <+: locationOf cwd path ∨ locationOf cwd path <+: location) →
    t.entryAt? location = some entry → IsClear gone location →
    Ignore.Refers t cwd location path' →
    (t.without gone).shown cwd path' = t.shown cwd path'

namespace Bypasses

variable {t : FileTree} {gone : List Path → Bool} {cwd path : Path}
  (h : Bypasses t gone cwd path)

include h

theorem isClear_root : IsClear gone (locationOf cwd path) :=
  h.root.isClear (locationOf_mem_stations cwd path)

/-- Everything that is looked up for the ignore files of a directory shows the same. -/
theorem shown_of_consults {location : List Path} {entry : Entry}
    (hlocation : location <+: locationOf cwd path ∨ locationOf cwd path <+: location)
    (hentry : t.entryAt? location = some entry) (hclear : IsClear gone location)
    (respect : Bool) (path' : Path)
    (hpath : Ignore.Scope.Consults ⟨t, cwd, respect⟩ location path') :
    (t.without gone).shown cwd path' = t.shown cwd path' := by
  have hnames := h.wellNamed.areNames hentry
  -- names beside the directory's own that are no names of configuration files
  have hinside : ∀ name : Path, Path.IsName name → name ∉ ConfigSource.fileNames →
      Path.isAbsolute name = false →
      Avoids gone cwd (Path.join (pathOf location) name) := by
    intro name hname hnot hrelative
    have hpieces := pieces_eq_of_isName hname
    refine avoids_join_pathOf hnames hrelative ?_ ?_ cwd
    · rw [hpieces]
      exact List.forall_mem_singleton.mpr hname
    · rw [hpieces]
      exact h.bystanders.isClear_append hclear (List.forall_mem_singleton.mpr hnot)
  cases hpath with
  | plain => exact shown_of_avoids h.noLinks (hinside _ (by decide) (by decide) (by decide))
  | git => exact shown_of_avoids h.noLinks (hinside _ (by decide) (by decide) (by decide))
  | mark => exact shown_of_avoids h.noLinks (hinside _ (by decide) (by decide) (by decide))
  | shared hfile hown =>
    exact h.refers location entry _ hlocation hentry hclear (.shared hfile hown)
  | excludes hexcludes =>
    rcases Ignore.refers_or_of_excludesPath hexcludes with hrefers | rfl
    · exact h.refers location entry _ hlocation hentry hclear hrefers
    · have hmark := hinside Ignore.repositoryMark (by decide) (by decide) (by decide)
      have hpieces : pieces Ignore.excludesName = ["info", "exclude"] := by decide
      have hend : locationOf cwd (Path.join (pathOf location) Ignore.repositoryMark) =
          location ++ [Ignore.repositoryMark] := by
        rw [locationOf_join cwd _ (by decide), locationOf_pathOf hnames]
        rfl
      refine shown_of_avoids h.noLinks (hmark.join_names (by decide) ?_ ?_)
      · rw [hpieces]
        decide
      · rw [hend, hpieces, List.append_assoc]
        exact h.bystanders.isClear_append hclear (by decide)

/-- The ignore files of a directory are the same. -/
theorem layer_eq {location : List Path} {entry : Entry}
    (hlocation : location <+: locationOf cwd path ∨ locationOf cwd path <+: location)
    (hentry : t.entryAt? location = some entry) (hclear : IsClear gone location)
    (respect : Bool) :
    Ignore.Scope.layer ⟨t.without gone, cwd, respect⟩ location =
      Ignore.Scope.layer ⟨t, cwd, respect⟩ location :=
  Ignore.layer_eq (h.shown_of_consults hlocation hentry hclear respect)

/-- Their faults are the same as well. -/
theorem messages_eq {location : List Path} {entry : Entry}
    (hlocation : location <+: locationOf cwd path ∨ locationOf cwd path <+: location)
    (hentry : t.entryAt? location = some entry) (hclear : IsClear gone location)
    (respect : Bool) :
    Ignore.Scope.messages ⟨t.without gone, cwd, respect⟩ location =
      Ignore.Scope.messages ⟨t, cwd, respect⟩ location := by
  have hshown := h.shown_of_consults hlocation hentry hclear respect
  rw [Ignore.Scope.messages, Ignore.Scope.messages, Ignore.layer_eq hshown]
  dsimp only
  rw [Ignore.excludesPath_eq hshown]

end Bypasses

/-! ## Walks -/

section Walk

variable {t : FileTree} {gone : List Path → Bool} {scope left : Ignore.Scope}
  (user : Bool → Path → Option Ignore.Verdict) (root : List Path)

/-- A walk finds nothing at a bystander. -/
theorem walk_bystander (h : t.AreBystanders gone) {location : List Path} {name : Path}
    {entry : Entry} (hgone : gone (location ++ [name]) = true)
    (hentry : t.entryAt? (location ++ [name]) = some entry)
    (directory : Path) (layers : List Ignore.Layer) :
    walk scope user location directory layers name entry = [] := by
  obtain ⟨above, n, hn, heq⟩ := h.named _ hgone
  obtain ⟨-, hlast⟩ := List.append_inj' heq rfl
  rw [← (List.cons.inj hlast).1] at hn
  cases h.slight _ _ hgone hentry with
  | file content =>
    rw [walk, ConfigSource.not_isSourceFile hn, Bool.and_false, if_neg Bool.false_ne_true]
  | barred why =>
    rw [walk, ConfigSource.not_isSourceFile hn, Bool.and_false, if_neg Bool.false_ne_true]
  | directory =>
    rw [walk]
    dsimp only
    split
    · rfl
    · rfl

mutual

theorem walk_without_bystanders (h : t.AreBystanders gone)
    (hlayer : ∀ location es, root <+: location → t.entryAt? location = some (.directory es) →
      IsClear gone location → left.layer location = scope.layer location)
    (location : List Path) (hroot : root <+: location)
    (directory : Path) (layers : List Ignore.Layer) (name : Path) (entry : Entry)
    (hwell : entry.IsWellNamed) (hentry : t.entryAt? (location ++ [name]) = some entry)
    (hclear : IsClear gone (location ++ [name])) :
    walk left user location directory layers name (entry.without gone (location ++ [name])) =
      walk scope user location directory layers name entry := by
  match entry with
  | .file _ | .barred _ | .link _ => rw [Entry.without, walk, walk]
  | .directory entries =>
    have hinside : root <+: location ++ [name] := hroot.trans (List.prefix_append _ _)
    rw [Entry.without, walk, walk]
    dsimp only
    rw [hlayer _ entries hinside hentry hclear,
      walkAll_without_bystanders h hlayer (location ++ [name]) hinside _ _ entries hwell.2
        (lists_of_entryAt? hentry hwell) hclear]

/-- **A walk does not see whether bystanders are there**, if the ignore files are the
same. -/
theorem walkAll_without_bystanders (h : t.AreBystanders gone)
    (hlayer : ∀ location es, root <+: location → t.entryAt? location = some (.directory es) →
      IsClear gone location → left.layer location = scope.layer location)
    (location : List Path) (hroot : root <+: location)
    (directory : Path) (layers : List Ignore.Layer) (entries : List (Path × Entry))
    (hwell : Entry.AreWellNamed entries) (hentries : t.Lists location entries)
    (hclear : IsClear gone location) :
    walkAll left user location directory layers (Entry.allWithout gone location entries) =
      walkAll scope user location directory layers entries := by
  match entries with
  | [] => rfl
  | (name, entry) :: rest =>
    have hentry := hentries _ List.mem_cons_self
    have hrest := walkAll_without_bystanders h hlayer location hroot directory layers rest hwell.2.2
      (fun x hx => hentries x (List.mem_cons_of_mem _ hx)) hclear
    rw [Entry.allWithout, walkAll]
    split
    · next hgone =>
      rw [walk_bystander user h hgone hentry, List.nil_append, hrest]
    · next hgone =>
      have hname := isClear_concat_iff.mpr ⟨hclear, Bool.eq_false_iff.mpr hgone⟩
      rw [walkAll, walk_without_bystanders h hlayer location hroot directory layers name entry
        hwell.2.1 hentry hname, hrest]

end

end Walk
end Discovery

/-! ## Searches -/

namespace Search

open Discovery FileTree

variable {s : Search} {t : FileTree} {gone : List Path → Bool} (h : Bypasses t gone s.cwd s.root)

include h

/-- Nothing is different about a path to a file that a walk hands out. -/
theorem avoids_join_of_isAt {path : Path}
    (hpath : IsAt (t.without gone) (locationOf s.cwd s.root) path) :
    Avoids gone s.cwd (Path.join s.root path) := by
  obtain ⟨entry, hentry, -⟩ := hpath.entry
  have hclear := isClear_of_entryAt?_without h.bystanders.not_gone_nil hentry
  by_cases hempty : path = ""
  · subst hempty
    refine h.root.join (by decide) ?_
    intro l hl
    have hstay : (pieces "").scanl stepFrom (locationOf s.cwd s.root) =
        [locationOf s.cwd s.root, locationOf s.cwd s.root] := rfl
    rw [hstay, List.mem_pair, or_self] at hl
    rw [hl]
    exact h.isClear_root.not_gone
  · have hnames := names_of_ne hempty
    rw [hnames] at hclear
    have hareNames := hpath.areNames
    rw [hnames] at hareNames
    exact h.root.join_names (hpath.not_isAbsolute hempty) hareNames hclear

theorem avoids_fullPath_of_isAt {path : Path}
    (hpath : IsAt (t.without gone) (locationOf s.cwd s.root) path) :
    Avoids gone s.cwd (s.fullPath path) := by
  rw [fullPath]
  split
  · exact h.root
  · exact avoids_join_of_isAt h hpath

/-- The ignore files of the directories above the root are the same, and so are their
faults. -/
theorem above_without_bystanders {es : List (Path × Entry)}
    (hes : t.entryAt? (locationOf s.cwd s.root) = some (.directory es)) :
    (s.scope (t.without gone)).layersAbove (locationOf s.cwd s.root) =
        (s.scope t).layersAbove (locationOf s.cwd s.root)
      ∧ (s.scope (t.without gone)).messagesAbove (locationOf s.cwd s.root) =
        (s.scope t).messagesAbove (locationOf s.cwd s.root) := by
  have habove : ∀ n, ∃ above,
      t.entryAt? ((locationOf s.cwd s.root).take n) = some (.directory above) := by
    intro n
    obtain ⟨more, hmore⟩ := List.take_prefix n (locationOf s.cwd s.root)
    rw [← hmore] at hes
    exact exists_directory_of_append hes
  have hclear : ∀ n, IsClear gone ((locationOf s.cwd s.root).take n) := fun n =>
    h.isClear_root.of_prefix (List.take_prefix n _)
  constructor
  · refine List.map_congr_left fun n _ => ?_
    obtain ⟨above, hentry⟩ := habove n
    exact h.layer_eq (.inl (List.take_prefix n _)) hentry (hclear n) s.respectGitignore
  · refine List.flatMap_congr fun n _ => ?_
    obtain ⟨above, hentry⟩ := habove n
    exact h.messages_eq (.inl (List.take_prefix n _)) hentry (hclear n) s.respectGitignore

/-- A walk hands out the same. -/
theorem walked_without_bystanders {es : List (Path × Entry)}
    (hes : t.entryAt? (locationOf s.cwd s.root) = some (.directory es)) :
    s.walked (t.without gone) (locationOf s.cwd s.root)
        (Entry.allWithout gone (locationOf s.cwd s.root) es) =
      s.walked t (locationOf s.cwd s.root) es := by
  have hwell := h.wellNamed.entryAt hes
  have hlayer : ∀ location es, locationOf s.cwd s.root <+: location →
      t.entryAt? location = some (.directory es) → IsClear gone location →
      (s.scope (t.without gone)).layer location = (s.scope t).layer location :=
    fun location es hprefix hentry hclear =>
      h.layer_eq (.inr hprefix) hentry hclear s.respectGitignore
  have hwalk := walkAll_without_bystanders s.userVerdict _ h.bystanders hlayer _
    (List.prefix_refl _) ""
    ((s.scope t).layer (locationOf s.cwd s.root) ::
      (s.scope t).layersAbove (locationOf s.cwd s.root))
    es hwell.2 (lists_of_entryAt? hes hwell) h.isClear_root
  rw [walked, walked, (above_without_bystanders h hes).1,
    hlayer _ es (List.prefix_refl _) hes h.isClear_root, hwalk]

/-- **A search does not see whether bystanders are there.** -/
theorem candidates_without_bystanders : s.candidates (t.without gone) = s.candidates t := by
  have hlocate := locate_without h.noLinks h.root
  cases hroot : t.locate s.cwd s.root with
  | error f => rw [candidates, candidates, hlocate, hroot]
  | ok root =>
    obtain rfl : root = locationOf s.cwd s.root := (h.noLinks.locate_eq_ok hroot).1
    have hentry := entryAt?_without_of_isClear (t := t) h.isClear_root
    rw [hroot] at hlocate
    cases hwhole : t.entryAt? (locationOf s.cwd s.root) with
    | none =>
      rw [hwhole] at hentry
      rw [candidates, candidates, hlocate, hroot]
      dsimp only
      rw [hentry, hwhole]
      rfl
    | some entry =>
      rw [hwhole] at hentry
      cases entry with
      | file | barred =>
        rw [candidates, candidates, hlocate, hroot]
        dsimp only
        rw [hentry, hwhole]
        rfl
      | link target => exact absurd hwhole (h.noLinks.not_link _ target)
      | directory es =>
        rw [candidates_eq_of_directory s hlocate hentry, candidates_eq_of_directory s hroot hwhole,
          (above_without_bystanders h hwhole).2]
        have hfilter : ((s.walked (t.without gone) (locationOf s.cwd s.root)
              (Entry.allWithout gone (locationOf s.cwd s.root) es)).filter fun path =>
                (t.without gone).isFile s.cwd (s.fullPath path)) =
            (s.walked t (locationOf s.cwd s.root) es).filter fun path =>
              t.isFile s.cwd (s.fullPath path) := by
          rw [← walked_without_bystanders h hwhole]
          refine List.filter_congr fun path hpath => ?_
          have hat := isAt_of_walked (h.wellNamed.without gone) hentry hpath
          exact isFile_without h.noLinks (avoids_fullPath_of_isAt h hat)
        rw [hfilter]

/-- What was found is read on a way without bystanders. -/
theorem avoids_of_candidates {found : List Path} (hfound : s.candidates t = .ok found)
    {path : Path} (hpath : path ∈ found) :
    Avoids gone s.cwd (s.fullPath path) ∧ Avoids gone s.cwd (Path.join s.root path) := by
  rw [← candidates_without_bystanders h] at hfound
  obtain ⟨root, entry, hroot, -⟩ := exists_root_of_candidates hfound
  have hlocate := hroot
  rw [locate_without h.noLinks h.root] at hlocate
  obtain rfl := (h.noLinks.locate_eq_ok hlocate).1
  have hat := isAt_of_candidates (h.wellNamed.without gone) hfound hroot hpath
  exact ⟨avoids_fullPath_of_isAt h hat, avoids_join_of_isAt h hat⟩

end Search

/-! ## Runs and checks -/

namespace Analysis

variable {a : Analysis} {t : FileTree}

/-- The findings of a run are in files that were found. -/
theorem file_mem_of_mem_findings (hplace : a.engine.ReportsInPlace) {found : List Path}
    (hfound : a.search.candidates t = .ok found) {r : Report} (hr : (a.run t).result = .ok r)
    {f : Finding} (hf : f ∈ r.findings) : f.location.file ∈ found := by
  obtain ⟨others, file, text, hothers, hfile, -, hf⟩ := exists_texts_of_mem hr hf
  rw [hfound] at hothers
  cases hothers
  rwa [Engine.file_of_mem_findingsInText hplace hf]

/-- **A run does not see whether bystanders are there**, and its log does not tell. -/
theorem run_without_bystanders {gone : List Path → Bool}
    (h : Discovery.Bypasses t gone a.search.cwd a.search.root) :
    a.run (t.without gone) = a.run t := by
  rw [run, run, Search.run_eq, Search.run_eq, Search.candidates_without_bystanders h]
  cases hfound : a.search.candidates t with
  | error f => rfl
  | ok found =>
    have hread : (a.search.ordered found).map (a.read (t.without gone)) =
        (a.search.ordered found).map (a.read t) := by
      refine List.map_congr_left fun path hpath => ?_
      have hmem := (Search.mem_ordered.mp hpath).1
      rw [read, read,
        FileTree.readText_without h.noLinks (Search.avoids_of_candidates h hfound hmem).1]
    simp only [Except.map, hread]

end Analysis

/-- A report is printed with the texts of the files of its findings, and no others. -/
theorem Report.pretty_congr {r : Report} {source other : Finding → Option String}
    (h : ∀ f ∈ r.findings, source f = other f) : r.pretty source = r.pretty other := by
  have hblocks : r.findings.flatMap (fun f => Frame.finding f (source f) ++ [""]) =
      r.findings.flatMap fun f => Frame.finding f (other f) ++ [""] :=
    List.flatMap_congr fun f hf => by rw [h f hf]
  rw [pretty, pretty, hblocks]

theorem Report.print_congr {r : Report} {source other : Finding → Option String}
    (h : ∀ f ∈ r.findings, source f = other f) (format : Format) :
    r.print format source = r.print format other := by
  cases format with
  | text | json | compact => rfl
  | pretty => rw [print, print, pretty_congr h]

/-- The workspace without what is at some locations. -/
def Workspace.without (w : Workspace) (gone : List Path → Bool) : Workspace :=
  { w with tree := w.tree.without gone }

namespace Command

/-- **A check with a configuration does not see whether bystanders are there**, if its path
avoids them, no repository leads to them, and the user's ignore file is the same. -/
theorem checkWith_without {w : Workspace} {gone : List Path → Bool} {o : CheckOptions}
    (h : Discovery.Bypasses w.tree gone w.directory (w.absolute o.path))
    (huser : Ignore.userFile (w.without gone) = Ignore.userFile w) (c : Config) :
    checkWith (w.without gone) o c = { checkWith w o c with workspace := w.without gone } := by
  have hanalysis : analysisOf (w.without gone) o c = analysisOf w o c := by
    rw [analysisOf, analysisOf, huser]
    rfl
  rw [checkWith, checkWith, hanalysis]
  cases ha : analysisOf w o c with
  | error f => rfl
  | ok a =>
    obtain ⟨-, hcwd, hroot⟩ := of_analysisOf_eq_ok ha
    have hsearch : Discovery.Bypasses w.tree gone a.search.cwd a.search.root := by
      rwa [hcwd, hroot]
    have hrun : a.run (w.without gone).tree = a.run w.tree :=
      Analysis.run_without_bystanders hsearch
    dsimp only
    rw [hrun]
    cases hresult : (a.run w.tree).result with
    | error f => rfl
    | ok r =>
      have hsource : ∀ f ∈ r.findings,
          sourceOf (w.without gone) a.search.root f = sourceOf w a.search.root f := by
        intro f hf
        cases hfound : a.search.candidates w.tree with
        | error fault =>
          rw [Analysis.run_result, Search.run_eq, hfound] at hresult
          cases hresult
        | ok found =>
          have hmem := Analysis.file_mem_of_mem_findings
            (Engine.reportsInPlace_of_catalogue (rules_mem_all ha)) hfound hresult hf
          have havoids := (Search.avoids_of_candidates hsearch hfound hmem).2
          rw [hcwd] at havoids
          exact FileTree.readText_without h.noLinks havoids
      have hprinted := Report.print_congr (r := r)
        (fun f hf => congrArg Except.toOption (hsource f hf)) o.format
      have hlog : sourceLog (w.without gone) a.search.root r = sourceLog w a.search.root r :=
        List.filterMap_congr fun f hf => by rw [hsource f hf]
      dsimp only
      rw [hprinted, hlog]
      cases r.print o.format fun f => (sourceOf w a.search.root f).toOption with
      | error f => rfl
      | ok printed => rfl

end Command
end AggregateAudit
