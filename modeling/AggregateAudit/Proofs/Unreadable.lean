import AggregateAudit.Proofs.Composition
import AggregateAudit.Proofs.Walking

/-!
# Files that cannot be read

A file cannot be read if the system does not open it or if it is no text.  A lenient analysis
leaves such a file out, and a strict one ends there.  Two things are said about that here.

A lenient run comes to what it would come to if the unreadable files were not there
(`Analysis.cleaned`).  That is less obvious than it looks, because a file is more than
something to analyse: a link may lead through it, and an ignore file may be such a link.
Links do no harm.  A link to an unreadable file is unreadable as well, so it goes with it,
and a readable file is reached without (`Analysis.readText_without`).  Ignore files do harm, for of
a file that is no text the first lines may still be read, so the statement asks that none
of them goes (`Search.KeepsIgnoreFiles`).

A strict run fails exactly if there is an unreadable file, with the first one in the order
of paths, and otherwise it is the lenient one.
-/

namespace AggregateAudit

/-! ## Ignore files that stay -/

/-- An entry without what is inside it. -/
def Entry.bare : Entry → Entry
  | .directory _ => .directory []
  | entry => entry

/-- What is at a path, without what is inside it. -/
def FileTree.shown (t : FileTree) (cwd path : Path) : Option Entry :=
  match t.entryOf cwd path with
  | .ok entry => some entry.bare
  | .error _ => none

namespace Ignore

/-- The paths at which something is looked for when the layer of a directory is made. -/
inductive Scope.Consults (s : Scope) (location : List Path) : (path : Path) → Prop
  | plain : Consults s location (Path.join (FileTree.pathOf location) plainName)
  | git (h : s.respectGit = true) :
      Consults s location (Path.join (FileTree.pathOf location) gitName)
  | mark : Consults s location (Path.join (FileTree.pathOf location) repositoryMark)
  /-- What marks the work directory is a file and names a directory. -/
  | shared {content : ByteArray} {own : Path}
      (hfile : s.tree.shown s.cwd (Path.join (FileTree.pathOf location) repositoryMark) =
        some (.file content))
      (hown : namedDirectory (Path.join (FileTree.pathOf location) repositoryMark) content =
        .ok own) :
      Consults s location (Path.join own sharedName)
  | excludes {path : Path}
      (h : excludesPath s.tree s.cwd (FileTree.pathOf location) = .ok path) :
      Consults s location path

theorem Scope.read_eq (s : Scope) (path : Path) :
    s.read path =
      match s.tree.shown s.cwd path with
      | some (.file content) => .ofBytes content
      | _ => {} := by
  rw [read, FileTree.readBytes, FileTree.shown]
  rcases s.tree.entryOf s.cwd path with _ | (_ | _ | _ | _) <;> rfl

theorem sharedDirectory_eq (t : FileTree) (cwd own : Path) :
    sharedDirectory t cwd own =
      match t.shown cwd (Path.join own sharedName) with
      | none => .error .unnamed
      | some (.file content) => do
        let line ← firstLine (Path.join own sharedName) content
        let name : Path := String.ofList line
        .ok (if line.head? = some '.' then Path.join own name else name)
      | some (.barred _) => .error .unnamed
      | some _ => .error (.unreadable (Path.join own sharedName) .isDirectory) := by
  delta sharedDirectory
  dsimp only
  rw [FileTree.shown]
  rcases t.entryOf cwd (Path.join own sharedName) with _ | (_ | _ | _ | _) <;> rfl

theorem repositoryDirectory_eq (t : FileTree) (cwd directory : Path) :
    repositoryDirectory t cwd directory =
      match t.shown cwd (Path.join directory repositoryMark) with
      | some (.file content) => do
        let own ← namedDirectory (Path.join directory repositoryMark) content
        sharedDirectory t cwd own
      | some (.barred why) =>
        .error (.unreadable (Path.join directory repositoryMark) (.refused why))
      | _ => .ok (Path.join directory repositoryMark) := by
  delta repositoryDirectory
  dsimp only
  rw [FileTree.shown]
  rcases t.entryOf cwd (Path.join directory repositoryMark) with _ | (_ | _ | _ | _) <;> rfl

section Layers

variable {t u : FileTree} {cwd : Path} {respect : Bool} {location : List Path}
  (h : ∀ path, Scope.Consults ⟨t, cwd, respect⟩ location path → u.shown cwd path = t.shown cwd path)

include h

theorem excludesPath_eq :
    excludesPath u cwd (FileTree.pathOf location)
      = excludesPath t cwd (FileTree.pathOf location) := by
  rw [excludesPath, excludesPath, repositoryDirectory_eq u, repositoryDirectory_eq t, h _ .mark]
  cases hmark : t.shown cwd (Path.join (FileTree.pathOf location) repositoryMark) with
  | none => dsimp only
  | some entry =>
    cases entry with
    | link | directory | barred => dsimp only
    | file content =>
      dsimp only
      cases hown : namedDirectory (Path.join (FileTree.pathOf location) repositoryMark) content with
      | error f => exact Eq.refl (Except.error f)
      | ok own =>
        have hshared := h _ (.shared hmark hown)
        show Except.map _ (sharedDirectory u cwd own) = Except.map _ (sharedDirectory t cwd own)
        rw [sharedDirectory_eq u, sharedDirectory_eq t, hshared]

/-- **Where everything that is looked for shows the same, the layer is the same.** -/
theorem layer_eq :
    Scope.layer ⟨u, cwd, respect⟩ location = Scope.layer ⟨t, cwd, respect⟩ location := by
  have hread : ∀ path, Scope.Consults ⟨t, cwd, respect⟩ location path →
      Scope.read ⟨u, cwd, respect⟩ path = Scope.read ⟨t, cwd, respect⟩ path := by
    intro path hpath
    rw [Scope.read_eq ⟨u, cwd, respect⟩, Scope.read_eq ⟨t, cwd, respect⟩]
    dsimp only
    rw [h path hpath]
  have hgit : (if respect then Scope.read ⟨u, cwd, respect⟩
        (Path.join (FileTree.pathOf location) gitName) else {}) =
      if respect then Scope.read ⟨t, cwd, respect⟩
        (Path.join (FileTree.pathOf location) gitName) else {} := by
    split
    · next hrespect => exact hread _ (.git hrespect)
    · exact Eq.refl _
  rw [Scope.layer, Scope.layer]
  dsimp only
  rw [hread _ .plain, excludesPath_eq h, hgit]
  cases hpath : excludesPath t cwd (FileTree.pathOf location) with
  | error f => dsimp only
  | ok path =>
    dsimp only
    rw [hread _ (.excludes hpath)]

end Layers

end Ignore

/-- Whether a tree still has everything that a search in another one looks for when it reads
ignore files, in the directories above and below its root. -/
def Search.KeepsIgnoreFiles (s : Search) (t u : FileTree) : Prop :=
  ∀ root location es path, t.locate s.cwd s.root = .ok root →
    (location <+: root ∨ root <+: location) → t.entryAt? location = some (.directory es) →
    Ignore.Scope.Consults ⟨t, s.cwd, s.respectGitignore⟩ location path →
    t.pathExists s.cwd path = true → u.pathExists s.cwd path = true

namespace FileTree

variable {t : FileTree} {gone : List Path → Bool}

/-- What is still there shows the same. -/
theorem shown_without (hgone : t.SparesDirectories gone) {cwd path : Path}
    (hkept : t.pathExists cwd path = true → (t.without gone).pathExists cwd path = true) :
    (t.without gone).shown cwd path = t.shown cwd path := by
  cases hleft : (t.without gone).entryOf cwd path with
  | ok left =>
    obtain ⟨location, entry, hentry, rfl⟩ := entryOf_of_entryOf_without hgone hleft
    rw [shown, shown, hleft, hentry]
    cases entry <;> rfl
  | error f =>
    cases hentry : t.entryOf cwd path with
    | ok entry =>
      rw [pathExists, pathExists, hentry, hleft] at hkept
      cases hkept rfl
    | error g => rw [shown, shown, hleft, hentry]

theorem isFile_of_isFile_without (hgone : t.SparesDirectories gone) {cwd path : Path}
    (h : (t.without gone).isFile cwd path = true) : t.isFile cwd path = true := by
  rw [isFile] at h
  split at h
  · next content hleft =>
    obtain ⟨location, entry, hentry, heq⟩ := entryOf_of_entryOf_without hgone hleft
    cases entry with
    | file content => rw [isFile, hentry]
    | barred | link | directory => cases heq
  · next why hleft =>
    obtain ⟨location, entry, hentry, heq⟩ := entryOf_of_entryOf_without hgone hleft
    cases entry with
    | barred why => rw [isFile, hentry]
    | file | link | directory => cases heq
  · cases h

end FileTree

/-! ## What is found when something is gone -/

theorem Entry.exists_eq_directory {entry : Entry} (h : entry.isDirectory = true) :
    ∃ es, entry = .directory es := by
  cases entry with
  | file | barred | link => cases h
  | directory es => exact ⟨es, rfl⟩

theorem Entry.without_of_leaf {entry : Entry} (h : entry.isDirectory = false)
    (gone : List Path → Bool) (location : List Path) :
    entry.without gone location = entry := by
  cases entry with
  | file | barred | link => rfl
  | directory es => cases h

namespace Search

open Discovery

/-- How a search in a tree looks for ignore files. -/
def scope (s : Search) (t : FileTree) : Ignore.Scope := ⟨t, s.cwd, s.respectGitignore⟩

/-- What the user's own ignore file says about a path below the root. -/
def userVerdict (s : Search) (isDirectory : Bool) (path : Path) : Option Ignore.Verdict :=
  Ignore.userVerdict s.userIgnore s.cwd isDirectory (s.fullPath path)

/-- What the walk of a search hands out in the directory at a location with these entries. -/
def walked (s : Search) (t : FileTree) (root : List Path) (es : List (Path × Entry)) :
    List Path :=
  walkAll (s.scope t) s.userVerdict root ""
    ((s.scope t).layer root :: (s.scope t).layersAbove root) es

variable {s : Search} {t : FileTree} {gone : List Path → Bool} {root : List Path}
  {found left : List Path}

/-- A search without a fault has something to look at. -/
theorem exists_root_of_candidates (h : s.candidates t = .ok found) :
    ∃ root entry, t.locate s.cwd s.root = .ok root ∧ t.entryAt? root = some entry := by
  cases hroot : t.locate s.cwd s.root with
  | error f =>
    rw [candidates, hroot] at h
    cases h
  | ok root =>
    obtain ⟨entry, hentry, -⟩ := FileTree.entryOf_eq_of_locate hroot
    exact ⟨root, entry, rfl, hentry⟩

/-- In a directory a search finds what is a file of what the walk hands out, unless an
ignore file above has a fault. -/
theorem candidates_eq_of_directory (s : Search) (hroot : t.locate s.cwd s.root = .ok root)
    {es : List (Path × Entry)} (hes : t.entryAt? root = some (.directory es)) :
    s.candidates t =
      match (s.scope t).messagesAbove root with
      | [] => .ok ((s.walked t root es).filter fun path => t.isFile s.cwd (s.fullPath path))
      | messages => .error (.ignoreFiles messages) := by
  rw [candidates, hroot]
  dsimp only
  rw [hes]
  rfl

theorem candidates_of_directory (h : s.candidates t = .ok found)
    (hroot : t.locate s.cwd s.root = .ok root) {es : List (Path × Entry)}
    (hes : t.entryAt? root = some (.directory es)) :
    found = (s.walked t root es).filter fun path => t.isFile s.cwd (s.fullPath path) := by
  rw [candidates_eq_of_directory s hroot hes] at h
  split at h
  · cases h
    rfl
  · cases h

/-- Elsewhere it finds the root itself. -/
theorem candidates_of_leaf (h : s.candidates t = .ok found)
    (hroot : t.locate s.cwd s.root = .ok root) {entry : Entry}
    (hentry : t.entryAt? root = some entry) (hleaf : entry.isDirectory = false) :
    found = if isSourceFile s.root then [Path.ofString ""] else [] := by
  rw [candidates, hroot] at h
  dsimp only at h
  rw [hentry] at h
  cases entry with
  | directory es => cases hleaf
  | file | barred | link =>
    cases h
    rfl

theorem eq_empty_of_mem_candidates (h : s.candidates t = .ok found)
    (hroot : t.locate s.cwd s.root = .ok root) {entry : Entry}
    (hentry : t.entryAt? root = some entry) (hleaf : entry.isDirectory = false) {path : Path}
    (hpath : path ∈ found) : path = "" := by
  rw [candidates_of_leaf h hroot hentry hleaf] at hpath
  split at hpath
  · exact List.mem_singleton.mp hpath
  · cases hpath

/-- The names of a path that the walk hands out lead to a file or a link. -/
theorem isAt_of_walked (ht : t.IsWellNamed) {es : List (Path × Entry)}
    (hes : t.entryAt? root = some (.directory es)) {path : Path}
    (hpath : path ∈ s.walked t root es) : IsAt t root path := by
  have hwell := ht.entryAt hes
  have hempty : root ++ names "" = root := List.append_nil root
  have hmem : path ∈ walkAll (s.scope t) s.userVerdict (root ++ names "") ""
      ((s.scope t).layer root :: (s.scope t).layersAbove root) es := by
    rwa [hempty]
  refine isAt_walkAll _ _ root "" _ es hwell.2 (fun n hn => absurd hn List.not_mem_nil) ?_ hmem
  rw [hempty]
  exact FileTree.lists_of_entryAt? hes hwell

/-- The names of a path that was found lead to a file or a link. -/
theorem isAt_of_candidates (ht : t.IsWellNamed) (h : s.candidates t = .ok found)
    (hroot : t.locate s.cwd s.root = .ok root) {path : Path} (hpath : path ∈ found) :
    IsAt t root path := by
  obtain ⟨entry, hentry, -⟩ := FileTree.entryOf_eq_of_locate hroot
  cases hleaf : entry.isDirectory with
  | true =>
    obtain ⟨es, rfl⟩ := Entry.exists_eq_directory hleaf
    rw [candidates_of_directory h hroot hentry] at hpath
    exact isAt_of_walked ht hentry (List.mem_filter.mp hpath).1
  | false =>
    obtain rfl := eq_empty_of_mem_candidates h hroot hentry hleaf hpath
    refine ⟨fun n hn => absurd hn List.not_mem_nil, entry, ?_, hleaf⟩
    rwa [show names "" = [] from rfl, List.append_nil]

/-- What is there of a layer stays, if ignore files do. -/
theorem layer_without (hgone : t.SparesDirectories gone)
    (hkeeps : s.KeepsIgnoreFiles t (t.without gone)) (hroot : t.locate s.cwd s.root = .ok root)
    {location : List Path} {es : List (Path × Entry)}
    (hlocation : location <+: root ∨ root <+: location)
    (hes : t.entryAt? location = some (.directory es)) :
    (s.scope (t.without gone)).layer location = (s.scope t).layer location :=
  Ignore.layer_eq fun path hpath =>
    FileTree.shown_without hgone (hkeeps root location es path hroot hlocation hes hpath)

/-- **A walk hands out what it did before, less what is gone.** -/
theorem walked_without (ht : t.IsWellNamed) (hgone : t.SparesDirectories gone)
    (hkeeps : s.KeepsIgnoreFiles t (t.without gone)) (hroot : t.locate s.cwd s.root = .ok root)
    {es : List (Path × Entry)} (hes : t.entryAt? root = some (.directory es)) :
    s.walked (t.without gone) root (Entry.allWithout gone root es) =
      (s.walked t root es).filter fun path => !gone (root ++ names path) := by
  have habove : (s.scope (t.without gone)).layersAbove root = (s.scope t).layersAbove root := by
    rw [Ignore.Scope.layersAbove, Ignore.Scope.layersAbove]
    refine List.map_congr_left ?_
    intro n _
    have hprefix : root.take n <+: root := List.take_prefix n root
    obtain ⟨more, hmore⟩ := hprefix
    rw [← hmore] at hes
    obtain ⟨above, habove⟩ := FileTree.exists_directory_of_append hes
    exact layer_without hgone hkeeps hroot (.inl (List.take_prefix n root)) habove
  have hwell := ht.entryAt hes
  have hempty : root ++ names "" = root := List.append_nil root
  have hlists : t.Lists (root ++ names "") es := by
    rw [hempty]
    exact FileTree.lists_of_entryAt? hes hwell
  have hlayer : ∀ location es, root <+: location → t.entryAt? location = some (.directory es) →
      (s.scope (t.without gone)).layer location = (s.scope t).layer location :=
    fun _ _ hprefix hes => layer_without hgone hkeeps hroot (.inr hprefix) hes
  have hwalk := walkAll_allWithout s.userVerdict root hgone hlayer ""
    ((s.scope t).layer root :: (s.scope t).layersAbove root) es hwell.2 hlists
  rw [hempty] at hwalk
  rw [walked, walked, habove, layer_without hgone hkeeps hroot (.inr (List.prefix_refl root)) hes,
    hwalk]

/-- **What is found in what is left is what was found and is still there.** -/
theorem candidates_without (ht : t.IsWellNamed) (hgone : t.SparesDirectories gone)
    (hkeeps : s.KeepsIgnoreFiles t (t.without gone)) (hroot : t.locate s.cwd s.root = .ok root)
    {es : List (Path × Entry)} (hes : t.entryAt? root = some (.directory es))
    (hfound : s.candidates t = .ok found) (hleft : s.candidates (t.without gone) = .ok left) :
    left = found.filter fun path =>
      !gone (root ++ names path) && (t.without gone).isFile s.cwd (s.fullPath path) := by
  obtain ⟨root', entry, hroot', -⟩ := exists_root_of_candidates hleft
  have hsame := FileTree.locate_of_locate_without hgone hroot'
  rw [hroot] at hsame
  cases hsame
  rw [candidates_of_directory hleft hroot' (FileTree.entryAt?_without_directory hgone hes),
    walked_without ht hgone hkeeps hroot hes, candidates_of_directory hfound hroot hes,
    List.filter_filter, List.filter_filter]
  refine List.filter_congr ?_
  intro path _
  cases hfile : (t.without gone).isFile s.cwd (s.fullPath path) with
  | false => simp
  | true => simp [FileTree.isFile_of_isFile_without hgone hfile]

end Search

/-! ## Trees without unreadable files -/

/-- A file that is to be analysed and cannot be read, and why. -/
structure Analysis.IsUnreadable (a : Analysis) (t : FileTree) (found : List Path)
    (path : Path) (fault : FileFault) : Prop where
  mem : path ∈ found
  notExcluded : a.search.isExcluded path = false
  fault : t.readText a.search.cwd (a.search.fullPath path) = .error fault

/-- The files to analyse that cannot be read, in the order of their paths. -/
def Analysis.unreadable (a : Analysis) (t : FileTree) (found : List Path) : List Path :=
  (a.search.ordered found).filter fun path =>
    !(t.readText a.search.cwd (a.search.fullPath path)).toBool

/-- Whether a location is that of a file to analyse that cannot be read. -/
def Analysis.isLost (a : Analysis) (t : FileTree) (found root location : List Path) : Bool :=
  (a.unreadable t found).any fun path => location = root ++ Discovery.names path

/-- The tree without the files to analyse that cannot be read. -/
def Analysis.cleaned (a : Analysis) (t : FileTree) (found : List Path) : FileTree :=
  match t.locate a.search.cwd a.search.root with
  | .ok root => t.without (a.isLost t found root)
  | .error _ => t

theorem Analysis.mem_unreadable {a : Analysis} {t : FileTree} {found : List Path}
    {path : Path} :
    path ∈ a.unreadable t found ↔ ∃ fault, a.IsUnreadable t found path fault := by
  rw [unreadable, List.mem_filter, Search.mem_ordered]
  constructor
  · rintro ⟨⟨hmem, hexcluded⟩, hread⟩
    cases hfault : t.readText a.search.cwd (a.search.fullPath path) with
    | ok text =>
      rw [hfault] at hread
      cases hread
    | error fault => exact ⟨fault, hmem, hexcluded, hfault⟩
  · rintro ⟨fault, h⟩
    exact ⟨⟨h.mem, h.notExcluded⟩, by rw [h.fault]; rfl⟩

namespace FileTree

variable {t : FileTree}

/-- A text is read from a file. -/
theorem exists_entryOf_of_readText {cwd path : Path} {text : String}
    (h : t.readText cwd path = .ok text) :
    ∃ content, t.entryOf cwd path = .ok (.file content)
      ∧ String.fromUTF8? content = some text := by
  rw [readText, readBytes] at h
  cases hentry : t.entryOf cwd path with
  | error f =>
    rw [hentry] at h
    cases h
  | ok entry =>
    rw [hentry] at h
    cases entry with
    | barred | link | directory => cases h
    | file content =>
      dsimp only at h
      cases htext : String.fromUTF8? content with
      | none =>
        rw [htext] at h
        cases h
      | some read =>
        rw [htext] at h
        cases h
        exact ⟨content, rfl, htext⟩

/-- What is read depends on the file alone. -/
theorem readText_of_entryOf {cwd path : Path} {text : String} {content : ByteArray}
    (h : t.entryOf cwd path = .ok (.file content)) (htext : String.fromUTF8? content = some text) :
    t.readText cwd path = .ok text := by
  rw [readText, readBytes, h]
  dsimp only
  rw [htext]

end FileTree

/-- Files with the same names are the same file. -/
theorem Search.eq_of_names_eq {found : List Path} (h : Discovery.AreFiles found)
    {p q : Path} (hp : p ∈ found) (hq : q ∈ found)
    (hnames : Discovery.names p = Discovery.names q) : p = q := by
  have hpieces : ∀ path : Path, FileTree.pieces path ≠ [] := by
    intro path
    rw [FileTree.pieces, Ne, List.map_eq_nil_iff]
    exact List.splitOn_ne_nil _ _
  by_cases hpe : p = ""
  · by_cases hqe : q = ""
    · rw [hpe, hqe]
    · rw [hpe, Discovery.names_of_ne hqe] at hnames
      exact absurd hnames.symm (hpieces q)
  · by_cases hqe : q = ""
    · rw [hqe, Discovery.names_of_ne hpe] at hnames
      exact absurd hnames (hpieces p)
    · rw [Discovery.names_of_ne hpe, Discovery.names_of_ne hqe, FileTree.pieces,
        FileTree.pieces] at hnames
      have hsame := List.map_injective_iff.mpr (fun _ _ h => congrArg Path.bytes h) hnames
      refine eq_of_components_eq h hp hq ?_
      rw [Path.components, Path.components, hsame]

namespace Analysis

open Discovery

section Cleaning

variable {a : Analysis} {t : FileTree} {found left root : List Path}

theorem isLost_iff {location : List Path} :
    a.isLost t found root location = true ↔
      ∃ path fault, a.IsUnreadable t found path fault ∧ location = root ++ names path := by
  simp only [isLost, List.any_eq_true, mem_unreadable, decide_eq_true_eq]
  constructor
  · rintro ⟨path, ⟨fault, h⟩, hlocation⟩
    exact ⟨path, fault, h, hlocation⟩
  · rintro ⟨path, fault, h, hlocation⟩
    exact ⟨path, ⟨fault, h⟩, hlocation⟩

theorem sparesDirectories_isLost (ht : t.IsWellNamed) (hfound : a.search.candidates t = .ok found)
    (hroot : t.locate a.search.cwd a.search.root = .ok root) :
    t.SparesDirectories (a.isLost t found root) := by
  intro location es hes
  rw [Bool.eq_false_iff]
  intro hlost
  obtain ⟨path, fault, h, rfl⟩ := isLost_iff.mp hlost
  obtain ⟨entry, hentry, hleaf⟩ := (Search.isAt_of_candidates ht hfound hroot h.mem).entry
  rw [hes] at hentry
  cases hentry
  cases hleaf

variable (ht : t.IsWellNamed) (hfound : a.search.candidates t = .ok found)
  (hroot : t.locate a.search.cwd a.search.root = .ok root) {es : List (Path × Entry)}
  (hes : t.entryAt? root = some (.directory es))

include ht hfound hroot hes

/-- What is lost leads to a file of which no text can be had, and not only by the way that was
taken. -/
theorem exists_leads_of_isLost {location : List Path}
    (h : a.isLost t found root location = true) :
    ∃ n parent name file entry, location = parent ++ [name]
      ∧ FileTree.Leads t n parent [name] file ∧ t.entryAt? file = some entry
      ∧ entry.isDirectory = false
      ∧ ∀ content, entry = .file content → String.fromUTF8? content = none := by
  obtain ⟨path, fault, hpath, rfl⟩ := isLost_iff.mp h
  have hat := Search.isAt_of_candidates ht hfound hroot hpath.mem
  have hfile : t.isFile a.search.cwd (a.search.fullPath path) = true := by
    have hmem := hpath.mem
    rw [Search.candidates_of_directory hfound hroot hes] at hmem
    exact (List.mem_filter.mp hmem).2
  have hends : ∀ {entry}, t.entryOf a.search.cwd (a.search.fullPath path) = .ok entry →
      ∃ n parent name file, root ++ names path = parent ++ [name]
        ∧ FileTree.Leads t n parent [name] file ∧ t.entryAt? file = some entry := by
    intro entry hentry
    obtain ⟨file, hlocate, hfileentry⟩ := FileTree.exists_locate_of_entryOf hentry
    obtain ⟨n, parent, name, hlocation, hway⟩ :=
      Search.exists_leads_of_isAt hroot hes hat hlocate
    exact ⟨n, parent, name, file, hlocation, hway, hfileentry⟩
  rw [FileTree.isFile] at hfile
  split at hfile
  · next content hcontent =>
    obtain ⟨n, parent, name, file, hlocation, hway, hentry⟩ := hends hcontent
    refine ⟨n, parent, name, file, _, hlocation, hway, hentry, rfl, ?_⟩
    intro other heq
    cases heq
    cases htext : String.fromUTF8? content with
    | none => rfl
    | some text =>
      have := hpath.fault
      rw [FileTree.readText_of_entryOf hcontent htext] at this
      cases this
  · next why hbarred =>
    obtain ⟨n, parent, name, file, hlocation, hway, hentry⟩ := hends hbarred
    exact ⟨n, parent, name, file, _, hlocation, hway, hentry, rfl, nofun⟩
  · cases hfile

/-- **A file that can be read is read without those that cannot**, for no link to it leads
through one of them. -/
theorem readText_without {path : Path} {text : String}
    (h : t.readText a.search.cwd path = .ok text) :
    (t.without (a.isLost t found root)).readText a.search.cwd path = .ok text := by
  have hspares := sparesDirectories_isLost ht hfound hroot
  obtain ⟨content, hcontent, htext⟩ := FileTree.exists_entryOf_of_readText h
  obtain ⟨location, hlocate, hentry⟩ := FileTree.exists_locate_of_entryOf hcontent
  obtain ⟨hpath, n, hn, hway⟩ := FileTree.locate_eq_ok_iff.mp hlocate
  rcases hway.without_or hspares with hway | ⟨k, parent, name, rest, hlost, hthrough⟩
  · obtain ⟨entry, hleft, hof⟩ :=
      FileTree.entryOf_eq_of_locate (FileTree.locate_eq_ok_iff.mpr ⟨hpath, n, hn, hway⟩)
    obtain ⟨whole, hwhole, rfl⟩ := FileTree.exists_of_entryAt?_without hspares hleft
    rw [hentry] at hwhole
    cases hwhole
    exact FileTree.readText_of_entryOf hof htext
  · -- the way goes on from a file that cannot be read, so it ends there
    exfalso
    obtain ⟨m, parent', name', file, entry, heq, hfile, hentry', hleaf, hnone⟩ :=
      exists_leads_of_isLost ht hfound hroot hes hlost
    obtain ⟨rfl, hname⟩ := List.append_inj' heq rfl
    cases hname
    obtain ⟨i, j, middle, hfront, hback⟩ :=
      FileTree.Leads.split (show FileTree.Leads t k parent ([name] ++ rest) location from hthrough)
    rw [hfront.unique hfile] at hback
    rw [hback.eq_of_not_directory hentry' hleaf, hentry'] at hentry
    rw [hnone content (Option.some.inj hentry)] at htext
    cases htext

/-- The texts of the readable files are found in what is left, and no others. -/
theorem mem_texts_without (hkeeps : a.search.KeepsIgnoreFiles t (t.without (a.isLost t found root)))
    (hleft : a.search.candidates (t.without (a.isLost t found root)) = .ok left)
    (p : Path) (text : String) :
    (p, text) ∈ a.texts (t.without (a.isLost t found root)) (a.search.ordered left) ↔
      (p, text) ∈ a.texts t (a.search.ordered found) := by
  have hspares := sparesDirectories_isLost ht hfound hroot
  rw [mem_texts, mem_texts, Search.mem_ordered, Search.mem_ordered,
    Search.candidates_without ht hspares hkeeps hroot hes hfound hleft, List.mem_filter]
  constructor
  · rintro ⟨⟨⟨hp, -⟩, hexcluded⟩, hread⟩
    refine ⟨⟨hp, hexcluded⟩, ?_⟩
    obtain ⟨content, hcontent, htext⟩ := FileTree.exists_entryOf_of_readText hread
    obtain ⟨location, entry, hentry, heq⟩ := FileTree.entryOf_of_entryOf_without hspares hcontent
    cases entry with
    | barred | link | directory => cases heq
    | file content =>
      cases heq
      exact FileTree.readText_of_entryOf hentry htext
  · rintro ⟨⟨hp, hexcluded⟩, hread⟩
    have hleftread := readText_without ht hfound hroot hes hread
    refine ⟨⟨⟨hp, ?_⟩, hexcluded⟩, hleftread⟩
    rw [Bool.and_eq_true, Bool.not_eq_true', Bool.eq_false_iff]
    constructor
    · intro hlost
      obtain ⟨q, fault, hq, hnames⟩ := isLost_iff.mp hlost
      have heq := Search.eq_of_names_eq (Search.candidates_areFiles ht hfound) hp hq.mem
        (List.append_cancel_left hnames)
      have hfault := hq.fault
      rw [← heq, hread] at hfault
      cases hfault
    · obtain ⟨content, hcontent, -⟩ := FileTree.exists_entryOf_of_readText hleftread
      rw [FileTree.isFile, hcontent]

end Cleaning

/-- **The readable files of a tree are those of the tree without the unreadable ones.** -/
theorem texts_cleaned {a : Analysis} {t : FileTree} {found left : List Path}
    (ht : t.IsWellNamed) (hfound : a.search.candidates t = .ok found)
    (hleft : a.search.candidates (a.cleaned t found) = .ok left)
    (hkeeps : a.search.KeepsIgnoreFiles t (a.cleaned t found)) :
    a.texts (a.cleaned t found) (a.search.ordered left) = a.texts t (a.search.ordered found) := by
  obtain ⟨root, entry, hroot, hentry⟩ := Search.exists_root_of_candidates hfound
  have hcleaned : a.cleaned t found = t.without (a.isLost t found root) := by rw [cleaned, hroot]
  rw [hcleaned] at hleft hkeeps ⊢
  have hspares := sparesDirectories_isLost ht hfound hroot
  cases hleaf : entry.isDirectory with
  | true =>
    obtain ⟨es, rfl⟩ := Entry.exists_eq_directory hleaf
    have hfiles := Search.candidates_areFiles ht hfound
    have hleftfiles : AreFiles left := by
      rw [Search.candidates_without ht hspares hkeeps hroot hentry hfound hleft]
      exact hfiles.filter _
    refine eq_of_increasing (pairwise_texts (Search.ordered_increasing hleftfiles))
      (pairwise_texts (Search.ordered_increasing hfiles)) ?_
    rintro ⟨p, text⟩
    exact mem_texts_without ht hfound hroot hentry hkeeps hleft p text
  | false =>
    obtain ⟨root', entry', hroot', hentry'⟩ := Search.exists_root_of_candidates hleft
    have hsame := FileTree.locate_of_locate_without hspares hroot'
    rw [hroot] at hsame
    cases hsame
    obtain ⟨whole, hwhole, rfl⟩ := FileTree.exists_of_entryAt?_without hspares hentry'
    rw [hentry] at hwhole
    cases hwhole
    rw [Entry.without_of_leaf hleaf] at hentry'
    have hread : (t.without (a.isLost t found root)).readText a.search.cwd a.search.root =
        t.readText a.search.cwd a.search.root := by
      simp only [FileTree.readText, FileTree.readBytes, FileTree.entryOf, hroot, hroot', hentry,
        hentry']
    have hfiles := Search.candidates_of_leaf hfound hroot hentry hleaf
    rw [Search.candidates_of_leaf hleft hroot' hentry' hleaf, ← hfiles]
    refine List.filterMap_congr ?_
    intro p hp
    have hempty : p = "" := by
      have hmem := (Search.mem_ordered.mp hp).1
      rw [hfiles] at hmem
      split at hmem
      · exact List.mem_singleton.mp hmem
      · cases hmem
    rw [hempty, show a.search.fullPath "" = a.search.root from rfl, hread]

end Analysis

/-! ## Strict and lenient runs -/

namespace Analysis

variable {a : Analysis} {t : FileTree} {found : List Path}

/-- The files that cannot be read are told with their full paths and the reasons. -/
theorem failures_read (a : Analysis) (t : FileTree) (files : List Path) :
    failures (files.map (a.read t)) = files.filterMap fun p =>
      match t.readText a.search.cwd (a.search.fullPath p) with
      | .ok _ => none
      | .error f => some (a.search.fullPath p, f) := by
  rw [failures, List.filterMap_map]
  refine List.filterMap_congr ?_
  intro p _
  rw [Function.comp_apply, read]
  cases t.readText a.search.cwd (a.search.fullPath p) <;> rfl

/-- Nothing is told exactly if every file can be read. -/
theorem failures_eq_nil_iff :
    failures ((a.search.ordered found).map (a.read t)) = [] ↔
      ¬∃ p fault, a.IsUnreadable t found p fault := by
  rw [failures_read, List.filterMap_eq_nil_iff]
  constructor
  · rintro h ⟨p, fault, hp⟩
    have hnone := h p (Search.mem_ordered.mpr ⟨hp.mem, hp.notExcluded⟩)
    rw [hp.fault] at hnone
    cases hnone
  · intro h p hp
    obtain ⟨hmem, hexcluded⟩ := Search.mem_ordered.mp hp
    cases hread : t.readText a.search.cwd (a.search.fullPath p) with
    | ok text => rfl
    | error fault => exact absurd ⟨p, fault, hmem, hexcluded, hread⟩ h

/-- **The file that is told first is the first one in the order of paths** that cannot be
read. -/
theorem exists_first_of_failures (hfiles : Discovery.AreFiles found) {path : Path}
    {fault : FileFault} {rest : List (Path × FileFault)}
    (h : failures ((a.search.ordered found).map (a.read t)) = (path, fault) :: rest) :
    ∃ p, a.IsUnreadable t found p fault ∧ path = a.search.fullPath p
      ∧ ∀ q other, a.IsUnreadable t found q other → q ≠ p →
        Path.compare (a.search.fullPath p) (a.search.fullPath q) = .lt := by
  rw [failures_read, List.filterMap_eq_cons_iff] at h
  obtain ⟨before, p, after, hordered, hbefore, hp, -⟩ := h
  have hpmem : p ∈ a.search.ordered found := by simp [hordered]
  obtain ⟨hmem, hexcluded⟩ := Search.mem_ordered.mp hpmem
  split at hp
  · cases hp
  · next f hfault =>
    cases hp
    refine ⟨p, ⟨hmem, hexcluded, hfault⟩, rfl, ?_⟩
    intro q other hq hne
    have hqmem : q ∈ before ++ p :: after := by
      rw [← hordered]
      exact Search.mem_ordered.mpr ⟨hq.mem, hq.notExcluded⟩
    have hincreasing := Search.ordered_increasing (s := a.search) hfiles
    rw [hordered] at hincreasing
    rw [a.search.compare_fullPath hfiles hmem hq.mem]
    rcases List.mem_append.mp hqmem with hqb | hqa
    · have hnone := hbefore q hqb
      rw [hq.fault] at hnone
      cases hnone
    · rcases List.mem_cons.mp hqa with rfl | hqa
      · exact absurd rfl hne
      · exact (List.pairwise_cons.mp (List.pairwise_append.mp hincreasing).2.1).1 q hqa

/-- What a strict run comes to: the first file that cannot be read, or what the lenient run
comes to. -/
theorem strict_run_result (hworkers : a.refusal? = none)
    (hfound : a.search.candidates t = .ok found) :
    ({ a with strict := true }.run t).result =
      match failures ((a.search.ordered found).map (a.read t)) with
      | (path, fault) :: _ => .error (.unreadable path fault)
      | [] => ({ a with strict := false }.run t).result := by
  have hstrict := run_result_of_candidates (a := { a with strict := true }) hworkers hfound
  have hlenient := run_result_of_candidates (a := { a with strict := false }) hworkers hfound
  rw [hstrict, hlenient, conclude_result, conclude_result]
  dsimp only
  have hread : ∀ b, { a with strict := b }.read t = a.read t := fun _ => rfl
  simp only [hread]
  cases failures ((a.search.ordered found).map (a.read t)) with
  | nil => rfl
  | cons fail fails => rfl

end Analysis

/-- What an analysis of a tree owes to the files that it cannot read. -/
structure Analysis.HandlesUnreadable (a : Analysis) (t : FileTree) (found : List Path)
    (report : Report) : Prop where
  /-- A lenient run succeeds. -/
  lenient : ({ a with strict := false }.run t).result = .ok report
  /-- It comes to what it comes to without these files. -/
  cleaned : ({ a with strict := false }.run (a.cleaned t found)).result = .ok report
  /-- A strict run fails exactly if there is such a file. -/
  fails_iff : (∃ fault, ({ a with strict := true }.run t).result = .error fault) ↔
    ∃ p fault, a.IsUnreadable t found p fault
  /-- It fails with the first one in the order of paths. -/
  first : ∀ e, ({ a with strict := true }.run t).result = .error e →
    ∃ p fault, a.IsUnreadable t found p fault ∧ e = .unreadable (a.search.fullPath p) fault
      ∧ ∀ q other, a.IsUnreadable t found q other → q ≠ p →
        Path.compare (a.search.fullPath p) (a.search.fullPath q) = .lt
  /-- Otherwise it is the lenient one. -/
  agrees : (¬∃ p fault, a.IsUnreadable t found p fault) →
    ({ a with strict := true }.run t).result = .ok report
  /-- None of this depends on the course that a run takes. -/
  course : ∀ strict, ∀ c : Course { a with strict := strict } t found,
    c.result = ({ a with strict := strict }.run t).result

/-- **Strict and lenient runs agree except on files that cannot be read**, because they cannot be
opened or because they are no text.  For every tree with names as they can be, every analysis
whose workers are started, and no fault of the walk on the tree or on the tree without the
unreadable files, if all ignore files stay. -/
theorem Analysis.exists_handlesUnreadable (a : Analysis) (t : FileTree) (found left : List Path)
    (ht : t.IsWellNamed) (hworkers : a.refusal? = none)
    (hfound : a.search.candidates t = .ok found)
    (hleft : a.search.candidates (a.cleaned t found) = .ok left)
    (hkeeps : a.search.KeepsIgnoreFiles t (a.cleaned t found)) :
    ∃ report, a.HandlesUnreadable t found report := by
  have hfiles := Search.candidates_areFiles ht hfound
  have hlenient := run_result_eq_texts (a := { a with strict := false }) rfl hworkers hfound
  have hcleaned := run_result_eq_texts (a := { a with strict := false }) rfl hworkers hleft
  have htexts : texts { a with strict := false } (a.cleaned t found) (a.search.ordered left) =
      texts { a with strict := false } t (a.search.ordered found) :=
    texts_cleaned ht hfound hleft hkeeps
  have hstrict := strict_run_result (a := a) hworkers hfound
  refine ⟨_, hlenient, ?_, ?_, ?_, ?_, ?_⟩
  · rw [hcleaned, htexts]
  · rw [← not_iff_not, ← failures_eq_nil_iff, hstrict, hlenient]
    cases failures ((a.search.ordered found).map (a.read t)) <;> simp
  · intro e he
    rw [hstrict, hlenient] at he
    cases hfailures : failures ((a.search.ordered found).map (a.read t)) with
    | nil =>
      rw [hfailures] at he
      cases he
    | cons fail fails =>
      rw [hfailures] at he
      cases he
      obtain ⟨p, hp, hpath, hfirst⟩ := exists_first_of_failures hfiles hfailures
      exact ⟨p, fail.2, hp, by rw [← hpath], hfirst⟩
  · intro hnone
    rw [hstrict, failures_eq_nil_iff.mpr hnone, hlenient]
  · intro strict c
    exact result_course (a := { a with strict := strict }) hfiles hworkers hfound c

/-! ## Two trees -/

/-- In the root directory some files are taken away. -/
theorem Analysis.cleaned_of_unreadable {a : Analysis} {t : FileTree} {found paths : List Path}
    (hroot : t.locate a.search.cwd a.search.root = .ok [])
    (h : ((found.filter fun p => !a.search.isExcluded p).filter fun p =>
      !(t.readText a.search.cwd (a.search.fullPath p)).toBool) = paths) :
    a.cleaned t found =
      t.without fun location => paths.any fun p => location = Discovery.names p := by
  have hperm : (a.unreadable t found).Perm paths := by
    rw [← h]
    exact (List.mergeSort_perm _ _).filter _
  have hlost : a.isLost t found [] =
      fun location => paths.any fun p => location = Discovery.names p := by
    funext location
    exact hperm.any_eq
  rw [cleaned, hroot, ← hlost]

/-- Files with violations: two that are analysed, one that is no text at its end, one that an
ignore file hides and one that is excluded; and one that cannot be opened. -/
theorem Analysis.exists_handlesUnreadable_of_barred_file :
    let text (name : String) : String :=
      "class " ++ name ++ " \x7b " ++ name ++ "() \x7b F(); \x7d \x7d"
    let t : FileTree :=
      ⟨[("good.cs", .file (text "AggregateG").toUTF8),
        ("barred.cs", .barred .permission),
        ("bytes.cs", .file ((text "AggregateB").toUTF8.push 255)),
        ("lost.cs", .file (text "AggregateL").toUTF8),
        ("out.cs", .file (text "AggregateO").toUTF8),
        ("also.cs", .file (text "AggregateA").toUTF8),
        (".gitignore", .file "lost.cs".toUTF8)]⟩
    let a : Analysis :=
      { search := { root := "/", exclusions := (Exclusion.parseAll ["out.*"]).toOption.getD [] },
        engine := { rules := Rule.all }, strict := false, parallelism := some 2 }
    let found : List Path := ["good.cs", "barred.cs", "bytes.cs", "out.cs", "also.cs"]
    let left : List Path := ["good.cs", "out.cs", "also.cs"]
    let inFile (file : Path) : List Finding :=
      [Rule.publicDefaultConstructor.info.finding ⟨file, 1, 20, 19, 21⟩,
        Rule.emptyConstructor.info.finding ⟨file, 1, 20, 19, 21⟩]
    (t.IsWellNamed ∧ a.refusal? = none ∧ a.search.candidates t = .ok found
        ∧ a.search.candidates (a.cleaned t found) = .ok left
        ∧ a.search.KeepsIgnoreFiles t (a.cleaned t found))
      ∧ (a.run t).result = .ok ⟨inFile "also.cs" ++ inFile "good.cs", 2⟩
      ∧ (a.run (a.cleaned t found)).result = .ok ⟨inFile "also.cs" ++ inFile "good.cs", 2⟩
      ∧ ({ a with strict := true }.run t).result =
        .error (.unreadable "/barred.cs" (.refused .permission)) := by
  intro text t a found left inFile
  have ht : t.IsWellNamed := by decide
  have hfound : a.search.candidates t = .ok found := by decide +kernel
  have hinput : a.IsInput t found
      [("also.cs", text "AggregateA"), ("good.cs", text "AggregateG")] :=
    isInput_of_perm (Search.candidates_areFiles ht hfound) (by decide +kernel) (by decide +kernel)
  have hrun : (a.run t).result = .ok ⟨inFile "also.cs" ++ inFile "good.cs", 2⟩ := by
    refine (hinput.run_result (Search.candidates_areFiles ht hfound)
      (Engine.reportsInPlace_of_catalogue fun _ hr => hr) rfl rfl hfound).trans ?_
    decide +kernel
  have hcleaned : a.cleaned t found =
      ⟨[("good.cs", .file (text "AggregateG").toUTF8),
        ("lost.cs", .file (text "AggregateL").toUTF8),
        ("out.cs", .file (text "AggregateO").toUTF8),
        ("also.cs", .file (text "AggregateA").toUTF8),
        (".gitignore", .file "lost.cs".toUTF8)]⟩ := by
    have hlost : ((found.filter fun p => !a.search.isExcluded p).filter fun p =>
        !(t.readText a.search.cwd (a.search.fullPath p)).toBool) =
          [Path.ofString "barred.cs", Path.ofString "bytes.cs"] := by decide +kernel
    rw [cleaned_of_unreadable (by decide +kernel) hlost]
    rfl
  have hleft : a.search.candidates (a.cleaned t found) = .ok left := by
    rw [hcleaned]
    decide +kernel
  have hkeeps : a.search.KeepsIgnoreFiles t (a.cleaned t found) := by
    intro root location es path _ _ hes hpath
    have hlocation : location = [] := by
      cases location with
      | nil => rfl
      | cons name rest =>
        have hbelow : t.entryAt? ([name] ++ rest) = some (.directory es) := hes
        obtain ⟨inside, hinside⟩ := FileTree.exists_directory_of_append hbelow
        have hmem : (name, Entry.directory inside) ∈ t.entries := Entry.mem_of_lookup hinside
        simp [t] at hmem
    subst hlocation
    rw [hcleaned]
    cases hpath with
    | plain | git | mark => decide +kernel
    | shared hfile =>
      have hnone : t.shown "/" (Path.join (FileTree.pathOf []) Ignore.repositoryMark) = none := by
        rw [FileTree.shown]
        rfl
      rw [show FileTree.shown _ _ _ = _ from hnone] at hfile
      cases hfile
    | excludes h =>
      have hpath : Ignore.excludesPath t "/" (FileTree.pathOf []) =
          .ok (Path.ofString "/.git/info/exclude") := by
        decide +kernel
      cases hpath.symm.trans h
      decide +kernel
  obtain ⟨report, hhandles⟩ := exists_handlesUnreadable a t found left ht rfl hfound hleft hkeeps
  obtain rfl := Except.ok.inj (hhandles.lenient.symm.trans hrun)
  refine ⟨⟨ht, rfl, hfound, hleft, hkeeps⟩, hrun, hhandles.cleaned, ?_⟩
  have hbarred : a.IsUnreadable t found "barred.cs" (.refused .permission) :=
    ⟨by decide, by decide +kernel, by decide +kernel⟩
  obtain ⟨e, he⟩ := hhandles.fails_iff.mpr ⟨_, _, hbarred⟩
  obtain ⟨p, fault, hp, rfl, hfirst⟩ := hhandles.first e he
  have hname : p = "barred.cs" := by
    by_contra hne
    have hlt := hfirst _ _ hbarred (Ne.symm hne)
    have hbefore : ∀ q ∈ found, Path.compare (a.search.fullPath q)
        (a.search.fullPath "barred.cs") = .lt → q = "also.cs" := by decide +kernel
    obtain rfl := hbefore p hp.mem hlt
    have hread : t.readText "/" (a.search.fullPath "also.cs") = .ok (text "AggregateA") := by
      decide +kernel
    cases hread.symm.trans hp.fault
  subst hname
  cases hp.fault.symm.trans hbarred.fault
  exact he

/-- An ignore file that is a link to a source file which is no text.  Its first line can be
read, and it hides another file; so without the source file that one is analysed, and the
two lenient runs differ.  A lenient run whose workers are not started fails. -/
theorem Analysis.run_cleaned_ne_of_linked_ignore_file :
    let t : FileTree :=
      ⟨[("bad.cs", .file ⟨#[120, 46, 99, 115, 10, 255]⟩),
        ("x.cs", .file "class AggregateX { AggregateX() { } }".toUTF8),
        (".gitignore", .link "bad.cs")]⟩
    let a : Analysis :=
      { search := { root := "/" }, engine := { rules := Rule.all }, strict := false }
    let refusal := "Resource temporarily unavailable (os error 11)"
    let refused : Analysis :=
      { a with parallelism := some 1, workerFault := fun _ => some refusal }
    (t.IsWellNamed ∧ a.search.candidates t = .ok ["bad.cs"]
        ∧ a.search.candidates (a.cleaned t ["bad.cs"]) = .ok ["x.cs"])
      ∧ (a.run t).result ≠ (a.run (a.cleaned t ["bad.cs"])).result
      ∧ (refused.run t).result = .error (.workers refusal) := by
  intro t a refusal refused
  have ht : t.IsWellNamed := by decide
  have hfound : a.search.candidates t = .ok ["bad.cs"] := by decide +kernel
  have hlost : (([Path.ofString "bad.cs"].filter fun p => !a.search.isExcluded p).filter fun p =>
      !(t.readText a.search.cwd (a.search.fullPath p)).toBool) = [Path.ofString "bad.cs"] := by
    decide +kernel
  have hcleaned : a.cleaned t ["bad.cs"] =
      ⟨[("x.cs", .file "class AggregateX { AggregateX() { } }".toUTF8),
        (".gitignore", .link "bad.cs")]⟩ := by
    rw [cleaned_of_unreadable (by decide +kernel) hlost]
    rfl
  have hleft : a.search.candidates (a.cleaned t ["bad.cs"]) = .ok ["x.cs"] := by
    rw [hcleaned]
    decide +kernel
  refine ⟨⟨ht, hfound, hleft⟩, ?_, ?_⟩
  · have hordered : ∀ p, a.search.ordered [p] = [p] := fun p => List.mergeSort_singleton p
    rw [run_result_eq_texts rfl rfl hfound, run_result_eq_texts rfl rfl hleft, hordered, hordered,
      hcleaned]
    intro h
    have hcount : (a.texts t ["bad.cs"]).length = (a.texts _ ["x.cs"]).length :=
      congrArg Report.filesChecked (Except.ok.inj h)
    revert hcount
    decide +kernel
  · have hcandidates : refused.search.candidates t = .ok ["bad.cs"] := hfound
    exact (run_result _ t).trans (by rw [Search.run_eq, hcandidates]; rfl)

end AggregateAudit
