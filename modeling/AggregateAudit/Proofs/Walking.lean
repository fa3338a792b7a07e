import AggregateAudit.Proofs.Resolution

/-!
# Where a walk finds files

A walk goes down through directories and hands out paths, and each path is read again
later, from the working directory and through links.  This file says that both look at the
same entry.  The names of a path that a walk hands out lead from the root down to a file or
a link (`Discovery.IsAt`, `isAt_walkAll`), and reading the full path comes to that entry and
goes on from there (`Search.exists_leads_of_isAt`).

It also says what a walk finds when something is gone that is no directory: what it found
before, less what is gone (`walkAll_allWithout`), provided that the ignore files still say
the same.
-/

namespace AggregateAudit

/-! ## Joined paths -/

namespace Path

theorem isAbsolute_append {base : Path} (hbase : base ≠ "") (p : Path) :
    isAbsolute (base ++ p) = isAbsolute base := by
  obtain ⟨c, cs, hcs⟩ := List.exists_cons_of_ne_nil fun h => hbase (eq_empty_iff.mpr h)
  simp [isAbsolute, hcs]

theorem separator_append (base : Path) {p : Path} (hp : p ≠ "") :
    separator (base ++ p) = separator p := by
  have hne : p.bytes ≠ [] := fun h => hp (eq_empty_iff.mpr h)
  simp only [separator, eq_empty_iff, bytes_append, List.append_eq_nil_iff, hne, and_false,
    false_or, List.getLast?_append, List.getLast?_eq_some_getLast hne, Option.some_or]

theorem separator_append_separator (base : Path) :
    separator (base ++ separator base) = "" := by
  by_cases h : base = "" ∨ base.bytes.getLast? = some slash
  · rw [separator.eq_def base, if_pos h, append_empty, separator, if_pos h]
  · rw [separator.eq_def base, if_neg h, separator_append base (by decide)]
    rfl

/-- A path below a path below a directory. -/
theorem join_join (cwd root : Path) {p : Path} (hp : isAbsolute p = false) :
    join cwd (join root p) = join (join cwd root) p := by
  cases hroot : isAbsolute root with
  | true =>
    have hne : root ≠ "" := by
      rintro rfl
      cases hroot
    have hjoin : isAbsolute (join root p) = true := by
      rw [join_of_relative root hp, append_assoc, isAbsolute_append hne, hroot]
    rw [join, if_pos hjoin, join.eq_def cwd root, if_pos hroot]
  | false =>
    have hjoin : isAbsolute (join root p) = false := by
      rw [join_of_relative root hp, append_assoc]
      by_cases hne : root = ""
      · rw [hne]
        exact hp
      · rw [isAbsolute_append hne, hroot]
    have hseparator : separator (cwd ++ separator cwd ++ root) = separator root := by
      by_cases hne : root = ""
      · rw [hne, append_empty, separator_append_separator]
        rfl
      · exact separator_append _ hne
    rw [join_of_relative cwd hjoin, join_of_relative root hp, join_of_relative cwd hroot,
      join_of_relative _ hp, hseparator]
    simp only [append_assoc]

end Path

namespace FileTree

theorem pieces_append_slash (base p : Path) :
    pieces (base ++ "/" ++ p) = pieces base ++ pieces p := by
  rw [pieces, Path.splitOn_append_slash, List.map_append]
  rfl

/-- Joining puts the pieces of the base in front, less an empty one at their end. -/
theorem pieces_join (base : Path) :
    ∃ front, (∀ {p : Path}, Path.isAbsolute p = false →
        pieces (Path.join base p) = front ++ pieces p)
      ∧ (pieces base = front ∨ pieces base = front ++ [Path.ofString ""]) := by
  by_cases hempty : base = ""
  · subst hempty
    refine ⟨[], fun hp => ?_, .inr (by decide)⟩
    rw [Path.join_of_relative _ hp, Path.separator, if_pos (.inl rfl)]
    rfl
  · by_cases hslash : base.bytes.getLast? = some Path.slash
    · obtain ⟨front, rfl⟩ := Path.exists_append_slash_of_getLast? hslash
      refine ⟨pieces front, fun {p} hp => ?_, .inr ?_⟩
      · rw [Path.join_of_relative _ hp, Path.separator, if_pos (.inr hslash), Path.append_empty,
          pieces_append_slash]
      · have hlast := pieces_append_slash front ""
        rwa [Path.append_empty] at hlast
    · refine ⟨pieces base, fun {p} hp => ?_, .inl rfl⟩
      rw [Path.join_of_relative _ hp, Path.separator, if_neg (not_or.mpr ⟨hempty, hslash⟩),
        pieces_append_slash]

end FileTree

/-! ## Names of paths -/

namespace Discovery

/-- The names that lead from the root to a path below it. -/
def names (path : Path) : List Path := if path = "" then [] else FileTree.pieces path

theorem names_of_ne {path : Path} (h : path ≠ "") : names path = FileTree.pieces path :=
  if_neg h

theorem names_below {name : Path} (h : Path.IsName name) (directory : Path) :
    names (below directory name) = names directory ++ [name] := by
  have hpieces : FileTree.pieces name = [name] := by
    rw [FileTree.pieces, h.splitOn_eq, List.map_singleton]
  by_cases hdirectory : directory = ""
  · rw [below, if_pos hdirectory, names_of_ne h.notEmpty, hpieces, hdirectory]
    rfl
  · have hne : directory ++ "/" ++ name ≠ "" := by simp [Path.eq_empty_iff]
    rw [below, if_neg hdirectory, names_of_ne hne, names_of_ne hdirectory,
      FileTree.pieces_append_slash, hpieces]

/-- Whether the names of a path lead from a root down to a file or a link. -/
structure IsAt (t : FileTree) (root : List Path) (path : Path) : Prop where
  areNames : ∀ n ∈ names path, Path.IsName n
  entry : ∃ e, t.entryAt? (root ++ names path) = some e ∧ e.isDirectory = false

/-- A path of names is not absolute. -/
theorem IsAt.not_isAbsolute {t : FileTree} {root : List Path} {path : Path}
    (h : IsAt t root path) (hpath : path ≠ "") : Path.isAbsolute path = false := by
  rw [Bool.eq_false_iff]
  intro habsolute
  -- a slash in front of everything has the empty piece in front of it
  obtain ⟨rest, rfl⟩ := Path.exists_slash_append_of_isAbsolute habsolute
  have hpieces := FileTree.pieces_append_slash "" rest
  rw [Path.empty_append] at hpieces
  have hempty : Path.ofString "" ∈ names ("/" ++ rest) := by
    rw [names_of_ne hpath, hpieces]
    exact List.mem_append_left _ (by decide)
  exact (h.areNames _ hempty).notEmpty rfl

end Discovery

/-- In a directory without repetitions a name stands for what is listed under it. -/
theorem Entry.lookup_of_mem {entries : List (Path × Entry)} {name : Path} {entry : Entry}
    (hnames : (entries.map Prod.fst).Nodup) (h : (name, entry) ∈ entries) :
    lookup name entries = some entry := by
  induction entries with
  | nil => cases h
  | cons first rest ih =>
    obtain ⟨n, e⟩ := first
    obtain ⟨hnew, hrest⟩ := List.nodup_cons.mp hnames
    rw [lookup]
    rcases List.mem_cons.mp h with heq | hmem
    · cases heq
      rw [if_pos rfl]
    · have hne : n ≠ name := by
        rintro rfl
        exact hnew (List.mem_map.mpr ⟨_, hmem, rfl⟩)
      rw [if_neg hne, ih hrest hmem]

/-- Entries of the directory at a location, as they are listed there. -/
def FileTree.Lists (t : FileTree) (location : List Path) (entries : List (Path × Entry)) :
    Prop :=
  ∀ x ∈ entries, t.entryAt? (location ++ [x.1]) = some x.2

/-- A directory of a well-named tree lists what is in it. -/
theorem FileTree.lists_of_entryAt? {t : FileTree} {location : List Path}
    {es : List (Path × Entry)} (h : t.entryAt? location = some (.directory es))
    (hwell : Entry.IsWellNamed (.directory es)) : t.Lists location es := by
  rintro ⟨name, entry⟩ hmem
  rw [entryAt?_append h]
  exact Entry.lookup_of_mem hwell.1 hmem

namespace Discovery

section Walk

variable {t : FileTree} (scope : Ignore.Scope) (user : Bool → Path → Option Ignore.Verdict)
  (root : List Path)

mutual

theorem isAt_walk (directory : Path) (layers : List Ignore.Layer) {name : Path}
    (hname : Path.IsName name) (entry : Entry) (h : entry.IsWellNamed)
    (hdirectory : ∀ n ∈ names directory, Path.IsName n)
    (hentry : t.entryAt? (root ++ names directory ++ [name]) = some entry) {path : Path}
    (hpath : path ∈ walk scope user (root ++ names directory) directory layers name entry) :
    IsAt t root path := by
  have hbelow : names (below directory name) = names directory ++ [name] :=
    names_below hname directory
  have hnames : ∀ n ∈ names (below directory name), Path.IsName n := by
    rw [hbelow]
    intro n hn
    rcases List.mem_append.mp hn with hn | hn
    · exact hdirectory n hn
    · rwa [List.mem_singleton.mp hn]
  rw [List.append_assoc, ← hbelow] at hentry
  match entry with
  | .file _ | .barred _ | .link _ =>
    rw [walk] at hpath
    split at hpath
    · rw [List.mem_singleton.mp hpath]
      exact ⟨hnames, _, hentry, rfl⟩
    · cases hpath
  | .directory entries =>
    rw [walk] at hpath
    dsimp only at hpath
    split at hpath
    · cases hpath
    · rw [List.append_assoc, ← hbelow] at hpath
      exact isAt_walkAll (below directory name) _ entries h.2 hnames
        (FileTree.lists_of_entryAt? hentry h) hpath

/-- **A walk hands out paths whose names lead to files and links.** -/
theorem isAt_walkAll (directory : Path) (layers : List Ignore.Layer)
    (entries : List (Path × Entry)) (h : Entry.AreWellNamed entries)
    (hdirectory : ∀ n ∈ names directory, Path.IsName n)
    (hentries : t.Lists (root ++ names directory) entries) {path : Path}
    (hpath : path ∈ walkAll scope user (root ++ names directory) directory layers entries) :
    IsAt t root path := by
  match entries with
  | [] => cases hpath
  | (name, entry) :: rest =>
    rw [walkAll, List.mem_append] at hpath
    rcases hpath with hpath | hpath
    · exact isAt_walk directory layers h.1 entry h.2.1 hdirectory
        (hentries _ List.mem_cons_self) hpath
    · exact isAt_walkAll directory layers rest h.2.2 hdirectory
        (fun x hx => hentries x (List.mem_cons_of_mem _ hx)) hpath

end

variable {scope} {left : Ignore.Scope} {gone : List Path → Bool}

mutual

theorem walk_without (hgone : t.SparesDirectories gone)
    (hlayer : ∀ location es, root <+: location → t.entryAt? location = some (.directory es) →
      left.layer location = scope.layer location)
    (directory : Path) (layers : List Ignore.Layer) {name : Path}
    (hname : Path.IsName name) (entry : Entry) (h : entry.IsWellNamed)
    (hentry : t.entryAt? (root ++ names directory ++ [name]) = some entry)
    (hkept : gone (root ++ names directory ++ [name]) = false) :
    walk left user (root ++ names directory) directory layers name
        (entry.without gone (root ++ names directory ++ [name])) =
      (walk scope user (root ++ names directory) directory layers name entry).filter fun path =>
        !gone (root ++ names path) := by
  have hbelow : root ++ names directory ++ [name] = root ++ names (below directory name) := by
    rw [names_below hname, List.append_assoc]
  rw [hbelow] at hentry hkept ⊢
  match entry with
  | .file _ | .barred _ | .link _ =>
    rw [Entry.without, walk, walk]
    split
    · simp [hkept]
    · rfl
  | .directory entries =>
    rw [Entry.without, walk, walk]
    dsimp only
    split
    · rfl
    · rw [hbelow, hlayer _ entries (List.prefix_append _ _) hentry]
      exact walkAll_allWithout hgone hlayer (below directory name) _ entries h.2
        (FileTree.lists_of_entryAt? hentry h)

/-- **A walk finds what is left of what it found**, if the ignore files of the directories
that it goes through are as they were. -/
theorem walkAll_allWithout (hgone : t.SparesDirectories gone)
    (hlayer : ∀ location es, root <+: location → t.entryAt? location = some (.directory es) →
      left.layer location = scope.layer location)
    (directory : Path) (layers : List Ignore.Layer)
    (entries : List (Path × Entry)) (h : Entry.AreWellNamed entries)
    (hentries : t.Lists (root ++ names directory) entries) :
    walkAll left user (root ++ names directory) directory layers
        (Entry.allWithout gone (root ++ names directory) entries) =
      (walkAll scope user (root ++ names directory) directory layers entries).filter fun path =>
        !gone (root ++ names path) := by
  match entries with
  | [] => rfl
  | (name, entry) :: rest =>
    have hentry := hentries _ List.mem_cons_self
    have hrest := walkAll_allWithout hgone hlayer directory layers rest h.2.2
      fun x hx => hentries x (List.mem_cons_of_mem _ hx)
    rw [Entry.allWithout, walkAll, List.filter_append, ← hrest]
    split
    · next hpart =>
      -- what is gone is no directory, so the walk found it or nothing
      have hnone : (walk scope user (root ++ names directory) directory layers name entry).filter
          (fun path => !gone (root ++ names path)) = [] := by
        rw [List.append_assoc, ← names_below h.1] at hpart
        match entry with
        | .file _ | .barred _ | .link _ =>
          rw [walk]
          split
          · simp [hpart]
          · rfl
        | .directory inside =>
          rw [List.append_assoc, ← names_below h.1] at hentry
          rw [hgone _ inside hentry] at hpart
          cases hpart
      rw [hnone, List.nil_append]
    · next hpart =>
      rw [walkAll, walk_without hgone hlayer directory layers h.1 entry h.2.1 hentry
        (Bool.eq_false_iff.mpr hpart)]

end

end Walk

end Discovery

/-! ## Reading what a walk has found -/

namespace FileTree

variable {t : FileTree}

/-- Names of directories lead down through them. -/
theorem Leads.past_names {n : Nat} {here row more location : List Path}
    {es : List (Path × Entry)} (h : Leads t n here (row ++ more) location)
    (hrow : ∀ name ∈ row, Path.IsName name)
    (hdirectory : t.entryAt? (here ++ row) = some (.directory es)) :
    Leads t n (here ++ row) more location := by
  induction row generalizing here with
  | nil => rwa [List.append_nil]
  | cons name row ih =>
    rw [List.append_cons] at hdirectory ⊢
    obtain ⟨inside, hinside⟩ := exists_directory_of_append hdirectory
    have hname := hrow name List.mem_cons_self
    have hrest := fun m hm => hrow m (List.mem_cons_of_mem _ hm)
    cases h with
    | stay _ hpiece => exact absurd hpiece (not_or.mpr ⟨hname.notEmpty, hname.notHere⟩)
    | up _ hpiece => exact absurd hpiece hname.notParent
    | down _ _ _ _ h => exact ih h hrest hdirectory
    | jump hhere _ hlink =>
      rw [entryAt?_append hhere, hlink] at hinside
      cases hinside

/-- The empty piece leads nowhere else. -/
theorem Leads.eq_of_empty {n : Nat} {here location : List Path}
    (h : Leads t n here [""] location) : here = location := by
  cases h with
  | stay _ _ h =>
    cases h
    rfl
  | up _ hpiece => exact absurd hpiece (by decide)
  | down _ hpiece | jump _ hpiece => exact absurd (.inl rfl) hpiece.notBlank

/-- A path below a directory leads from the directory to where the path leads. -/
theorem exists_leads_of_locate_join {cwd base path : Path} {here location : List Path}
    (hbase : t.locate cwd base = .ok here) (hpath : Path.isAbsolute path = false)
    (h : t.locate cwd (Path.join base path) = .ok location) :
    ∃ n, Leads t n here (pieces path) location := by
  obtain ⟨-, m, -, hhere⟩ := locate_eq_ok_iff.mp hbase
  obtain ⟨-, n, -, hlocation⟩ := locate_eq_ok_iff.mp h
  rw [Path.join_join cwd base hpath] at hlocation
  obtain ⟨front, hfront, hpieces⟩ := pieces_join (Path.join cwd base)
  rw [hfront hpath] at hlocation
  obtain ⟨k, l, middle, hmiddle, hrest⟩ := hlocation.split
  suffices middle = here from ⟨l, this ▸ hrest⟩
  rcases hpieces with hpieces | hpieces
  · rw [hpieces] at hhere
    exact hmiddle.unique hhere
  · rw [hpieces] at hhere
    obtain ⟨k', l', middle', hmiddle', hempty⟩ := hhere.split
    rw [hmiddle.unique hmiddle', hempty.eq_of_empty]

end FileTree

/-- **Reading a path that a walk has found comes to the entry that the walk has seen**, and
goes on from there. -/
theorem Search.exists_leads_of_isAt {s : Search} {t : FileTree} {root location : List Path}
    {path : Path} {es : List (Path × Entry)} (hroot : t.locate s.cwd s.root = .ok root)
    (hentries : t.entryAt? root = some (.directory es)) (hat : Discovery.IsAt t root path)
    (h : t.locate s.cwd (s.fullPath path) = .ok location) :
    ∃ n parent name, root ++ Discovery.names path = parent ++ [name]
      ∧ FileTree.Leads t n parent [name] location := by
  obtain ⟨entry, hentry, hleaf⟩ := hat.entry
  have hpath : path ≠ "" := by
    rintro rfl
    rw [show Discovery.names "" = [] from rfl, List.append_nil, hentries] at hentry
    cases hentry
    cases hleaf
  have hnames := Discovery.names_of_ne hpath
  have hrelative := hat.not_isAbsolute hpath
  rw [fullPath, if_neg hpath] at h
  obtain ⟨n, hway⟩ := FileTree.exists_leads_of_locate_join hroot hrelative h
  rw [← hnames] at hway
  rcases List.eq_nil_or_concat (Discovery.names path) with hnil | ⟨row, name, hrow⟩
  · rw [hnil, List.append_nil, hentries] at hentry
    cases hentry
    cases hleaf
  · rw [List.concat_eq_append] at hrow
    rw [hrow, ← List.append_assoc] at hentry
    obtain ⟨inside, hinside⟩ := FileTree.exists_directory_of_entryAt? hentry
    rw [hrow] at hway
    refine ⟨n, root ++ row, name, by rw [hrow, List.append_assoc], ?_⟩
    refine hway.past_names (fun m hm => hat.areNames m ?_) hinside
    rw [hrow]
    exact List.mem_append_left _ hm

end AggregateAudit
