import AggregateAudit.Proofs.PlainPaths

/-!
# Putting something into a tree

`FileTree.insert` puts an entry at a location.  Then it is there (`entryAt?_insert`), putting
it there once more changes nothing (`insert_insert`), and apart from that location the tree is
what it was (`insert_without`), provided that there is a directory to put it in, since
otherwise directories are made on the way.  Trees with names as they can be and trees without
links stay such trees.

The one place where something is put is the working directory.  A name in it is resolved there
(`IsWorkingDirectory.resolve_eq`), and it stays the working directory when a file is put into
it (`IsWorkingDirectory.insert`).
-/

namespace AggregateAudit

/-! ## Rows of entries -/

namespace Entry

theorem lookup_insert (name : Path) (entry : Entry) (entries : List (Path × Entry)) :
    lookup name (insert name entry entries) = some entry := by
  induction entries with
  | nil => rw [insert_nil, lookup, if_pos rfl]
  | cons first rest ih =>
    obtain ⟨n, e⟩ := first
    rw [insert_cons]
    split
    · next hn => rw [lookup, if_pos hn]
    · next hn => rw [lookup, if_neg hn, ih]

theorem insert_insert (name : Path) (entry : Entry) (entries : List (Path × Entry)) :
    insert name entry (insert name entry entries) = insert name entry entries := by
  induction entries with
  | nil => rw [insert_nil, insert_cons, if_pos rfl]
  | cons first rest ih =>
    obtain ⟨n, e⟩ := first
    rw [insert_cons]
    split
    · next hn => rw [insert_cons, if_pos hn]
    · next hn => rw [insert_cons, if_neg hn, ih]

/-- A name of the row is that of an entry before, or the new one. -/
theorem mem_names_of_insert {name n : Path} {entry : Entry} {entries : List (Path × Entry)}
    (h : n ∈ (insert name entry entries).map Prod.fst) :
    n ∈ entries.map Prod.fst ∨ n = name := by
  induction entries with
  | nil => exact .inr (List.mem_singleton.mp h)
  | cons first rest ih =>
    obtain ⟨m, e⟩ := first
    rw [insert_cons] at h
    split at h
    · exact .inl h
    · rcases List.mem_cons.mp h with rfl | h
      · exact .inl List.mem_cons_self
      · exact (ih h).imp_left (List.mem_cons_of_mem _)

theorem nodup_insert {name : Path} (entry : Entry) {entries : List (Path × Entry)}
    (h : (entries.map Prod.fst).Nodup) : ((insert name entry entries).map Prod.fst).Nodup := by
  induction entries with
  | nil => exact List.pairwise_singleton _ _
  | cons first rest ih =>
    obtain ⟨n, e⟩ := first
    rw [insert_cons]
    split
    · exact h
    · next hn =>
      obtain ⟨hnew, hrest⟩ := List.nodup_cons.mp h
      refine List.nodup_cons.mpr ⟨fun hmem => ?_, ih hrest⟩
      exact (mem_names_of_insert hmem).elim hnew hn

theorem areWellNamed_insert {name : Path} {entry : Entry} {entries : List (Path × Entry)}
    (h : AreWellNamed entries) (hname : Path.IsName name) (hentry : entry.IsWellNamed) :
    AreWellNamed (insert name entry entries) := by
  induction entries with
  | nil => exact ⟨hname, hentry, trivial⟩
  | cons first rest ih =>
    obtain ⟨n, e⟩ := first
    rw [insert_cons]
    split
    · exact ⟨h.1, hentry, h.2.2⟩
    · exact ⟨h.1, h.2.1, ih h.2.2⟩

theorem areLinkFree_insert {name : Path} {entry : Entry} {entries : List (Path × Entry)}
    (h : AreLinkFree entries) (hentry : entry.IsLinkFree) :
    AreLinkFree (insert name entry entries) := by
  induction entries with
  | nil => exact ⟨hentry, trivial⟩
  | cons first rest ih =>
    obtain ⟨n, e⟩ := first
    rw [insert_cons]
    split
    · exact ⟨hentry, h.2⟩
    · exact ⟨h.1, ih h.2⟩

/-- The entries that a name stands for, if it is a directory. -/
theorem isWellNamed_entries_lookup {entries : List (Path × Entry)} (h : AreWellNamed entries)
    (name : Path) : IsWellNamed (.directory (Entry.entries (lookup name entries))) := by
  cases hlookup : lookup name entries with
  | none => exact ⟨List.nodup_nil, trivial⟩
  | some entry =>
    cases entry with
    | file | barred | link => exact ⟨List.nodup_nil, trivial⟩
    | directory inside => exact (h.of_mem (mem_of_lookup hlookup)).2

theorem areLinkFree_entries_lookup {entries : List (Path × Entry)} (h : AreLinkFree entries)
    (name : Path) : AreLinkFree (Entry.entries (lookup name entries)) := by
  cases hlookup : lookup name entries with
  | none => trivial
  | some entry =>
    cases entry with
    | file | barred | link => trivial
    | directory inside => exact h.lookup hlookup

variable {gone : List Path → Bool} {base : List Path} {name : Path}

/-- What is put where everything is gone leaves no trace. -/
theorem allWithout_insert_of_gone (h : gone (base ++ [name]) = true) (entry : Entry)
    (entries : List (Path × Entry)) :
    allWithout gone base (insert name entry entries) = allWithout gone base entries := by
  induction entries with
  | nil => simp [insert_nil, allWithout, h]
  | cons first rest ih =>
    obtain ⟨n, e⟩ := first
    rw [insert_cons]
    split
    · next hn => rw [allWithout, allWithout, hn, if_pos h, if_pos h]
    · rw [allWithout, allWithout, ih]

/-- What is put in the place of something that is the same without what is gone leaves no
trace either. -/
theorem allWithout_insert_of_eq {entry old : Entry} {entries : List (Path × Entry)}
    (hold : lookup name entries = some old)
    (h : entry.without gone (base ++ [name]) = old.without gone (base ++ [name])) :
    allWithout gone base (insert name entry entries) = allWithout gone base entries := by
  induction entries with
  | nil => cases hold
  | cons first rest ih =>
    obtain ⟨n, e⟩ := first
    rw [lookup] at hold
    rw [insert_cons]
    split at hold
    · next hn =>
      cases hold
      subst hn
      rw [if_pos rfl, allWithout, allWithout, h]
    · next hn => rw [if_neg hn, allWithout, allWithout, ih hold]

end Entry

/-! ## Trees -/

namespace FileTree

theorem lookupAll_insertAll {location : List Path} (h : location ≠ [])
    (entries : List (Path × Entry)) (entry : Entry) :
    lookupAll (insertAll entries location entry) location = some entry := by
  fun_induction insertAll entries location entry with
  | case1 => exact absurd rfl h
  | case2 es name entry => exact Entry.lookup_insert name entry es
  | case3 es name rest entry hrest ih =>
    rw [lookupAll_cons (Entry.lookup_insert name _ es)]
    exact ih hrest

theorem insertAll_insertAll (location : List Path) (entries : List (Path × Entry))
    (entry : Entry) :
    insertAll (insertAll entries location entry) location entry =
      insertAll entries location entry := by
  fun_induction insertAll entries location entry with
  | case1 => rfl
  | case2 es name entry => exact Entry.insert_insert name entry es
  | case3 es name rest entry hrest ih =>
    rw [insertAll, Entry.lookup_insert, Entry.entries, ih, Entry.insert_insert]
    exact hrest

theorem isWellNamed_insertAll {location : List Path} {entry : Entry}
    {entries : List (Path × Entry)} (h : Entry.IsWellNamed (.directory entries))
    (hnames : ∀ n ∈ location, Path.IsName n) (hentry : entry.IsWellNamed) :
    Entry.IsWellNamed (.directory (insertAll entries location entry)) := by
  fun_induction insertAll entries location entry with
  | case1 => exact h
  | case2 es name entry =>
    exact ⟨Entry.nodup_insert entry h.1,
      Entry.areWellNamed_insert h.2 (hnames name (List.mem_singleton_self name)) hentry⟩
  | case3 es name rest entry _ ih =>
    obtain ⟨hname, hrest⟩ := List.forall_mem_cons.mp hnames
    have hinside := ih (Entry.isWellNamed_entries_lookup h.2 name) hrest hentry
    exact ⟨Entry.nodup_insert _ h.1, Entry.areWellNamed_insert h.2 hname hinside⟩

theorem areLinkFree_insertAll {location : List Path} {entry : Entry}
    {entries : List (Path × Entry)} (h : Entry.AreLinkFree entries) (hentry : entry.IsLinkFree) :
    Entry.AreLinkFree (insertAll entries location entry) := by
  fun_induction insertAll entries location entry with
  | case1 => exact h
  | case2 es name entry => exact Entry.areLinkFree_insert h hentry
  | case3 es name rest entry _ ih =>
    exact Entry.areLinkFree_insert h (ih (Entry.areLinkFree_entries_lookup h name) hentry)

/-- Below a directory only the one location changes. -/
theorem allWithout_insertAll {gone : List Path → Bool} {name : Path} (entry : Entry)
    (parent base : List Path) {entries inside : List (Path × Entry)}
    (h : lookupAll entries parent = some (.directory inside))
    (hgone : gone (base ++ parent ++ [name]) = true) :
    Entry.allWithout gone base (insertAll entries (parent ++ [name]) entry) =
      Entry.allWithout gone base entries := by
  induction parent generalizing entries base with
  | nil =>
    rw [List.append_nil] at hgone
    exact Entry.allWithout_insert_of_gone hgone entry entries
  | cons first rest ih =>
    have hrow : FileTree.entryAt? ⟨entries⟩ ([first] ++ rest) = some (.directory inside) := h
    obtain ⟨below, hbelow⟩ := exists_directory_of_append hrow
    have hlookup : Entry.lookup first entries = some (.directory below) := hbelow
    rw [lookupAll_cons hlookup] at h
    have hrest := ih (base ++ [first]) h (by simpa using hgone)
    have hinsert : insertAll entries (first :: rest ++ [name]) entry =
        Entry.insert first (.directory (insertAll below (rest ++ [name]) entry)) entries := by
      rw [List.cons_append, insertAll, hlookup, Entry.entries]
      simp
    rw [hinsert]
    exact Entry.allWithout_insert_of_eq hlookup (congrArg Entry.directory hrest)

section Insert

variable {t : FileTree} {location : List Path}

theorem entryAt?_insert (h : location ≠ []) (t : FileTree) (entry : Entry) :
    (t.insert location entry).entryAt? location = some entry :=
  lookupAll_insertAll h t.entries entry

theorem insert_insert (t : FileTree) (location : List Path) (entry : Entry) :
    (t.insert location entry).insert location entry = t.insert location entry := by
  rw [insert, insert, insertAll_insertAll]

theorem IsWellNamed.insert (h : t.IsWellNamed) (hnames : ∀ n ∈ location, Path.IsName n)
    {entry : Entry} (hentry : entry.IsWellNamed) : (t.insert location entry).IsWellNamed :=
  isWellNamed_insertAll h hnames hentry

theorem HasNoLinks.insert (h : t.HasNoLinks) {entry : Entry} (hentry : entry.IsLinkFree) :
    (t.insert location entry).HasNoLinks :=
  areLinkFree_insertAll h hentry

/-- **Apart from the one location the tree is what it was.** -/
theorem insert_without {parent : List Path} {es : List (Path × Entry)}
    (h : t.entryAt? parent = some (.directory es)) {name : Path} (entry : Entry)
    {gone : List Path → Bool} (hgone : gone (parent ++ [name]) = true) :
    (t.insert (parent ++ [name]) entry).without gone = t.without gone := by
  rw [without, without, insert, allWithout_insertAll entry parent [] h (by simpa using hgone)]

end Insert

/-! ## Files in the working directory -/

/-- The location of the working directory, as the beginning of the paths that are seen from
it. -/
structure IsWorkingDirectory (t : FileTree) (cwd : Path) (front here : List Path) :
    Prop where
  pieces_eq : ∀ {p : Path}, Path.isAbsolute p = false →
    pieces (Path.join cwd p) = front ++ pieces p
  follow : t.follow linkLimit [] front = .ok (.existing here)
  directory : ∃ es, t.entryAt? here = some (.directory es)

/-- Whether a path from the working directory is that of a name in it. -/
structure IsLocal (name path : Path) : Prop where
  isName : Path.IsName name
  fits : ¬nameLimit < name.bytes.length
  isPath : IsPath path
  relative : Path.isAbsolute path = false
  pieces_eq : pieces path = [name] ∨ pieces path = [Path.ofString ".", name]

variable {t : FileTree} {cwd name path : Path} {front here : List Path}

/-- In a directory a name leads to what it stands for. -/
theorem HasNoLinks.follow_name (ht : t.HasNoLinks) (hname : Path.IsName name)
    (hfits : ¬nameLimit < name.bytes.length) {es : List (Path × Entry)}
    (hes : t.entryAt? here = some (.directory es)) (n : Nat) :
    t.follow n here [name] =
      .ok (if (t.entryAt? (here ++ [name])).isSome then .existing (here ++ [name])
        else .missing (here ++ [name])) := by
  have hspecial : ¬((name = "" ∨ name = ".") ∨ name = "..") :=
    not_or.mpr ⟨not_or.mpr ⟨hname.notEmpty, hname.notHere⟩, hname.notParent⟩
  rw [ht.follow_cons, lookUp, hes]
  dsimp only
  rw [if_neg hspecial, if_neg hfits, entryAt?_append hes, stepFrom_of_isName hname, follow_nil]
  cases Entry.lookup name es with
  | none => rfl
  | some entry => rfl

/-- What can be resolved is in a working directory. -/
theorem HasNoLinks.exists_isWorkingDirectory (ht : t.HasNoLinks) (hlocal : IsLocal name path)
    {place : Place} (h : t.resolve cwd path = .ok place) :
    ∃ front here, t.IsWorkingDirectory cwd front here := by
  obtain ⟨front, hfront, -⟩ := pieces_join cwd
  have hfollow : t.follow linkLimit [] (front ++ pieces path) = .ok place := by
    rwa [resolve, if_neg hlocal.isPath.noNul, if_neg hlocal.isPath.fits,
      hfront hlocal.relative] at h
  have hsome : pieces path ≠ [] := by
    rcases hlocal.pieces_eq with hpieces | hpieces
    · simp [hpieces]
    · simp [hpieces]
  rw [ht.follow_append _ _ _ hsome] at hfollow
  split at hfollow
  · cases hfollow
  · cases hfollow
  · next here hhere =>
    refine ⟨front, here, hfront, hhere, ?_⟩
    rcases hlocal.pieces_eq with hpieces | hpieces
    · rw [hpieces] at hfollow
      exact (ht.follow_cons_eq_ok hfollow).1
    · rw [hpieces] at hfollow
      exact (ht.follow_cons_eq_ok hfollow).1

namespace IsWorkingDirectory

variable (h : t.IsWorkingDirectory cwd front here) (ht : t.HasNoLinks)

include h ht

theorem here_eq : here = front.foldl stepFrom [] := by
  rcases ht.place_of_follow h.follow with hplace | hplace
  · exact Place.existing.inj hplace
  · cases hplace

theorem locationOf_eq (hlocal : IsLocal name path) : locationOf cwd path = here ++ [name] := by
  rw [locationOf, h.pieces_eq hlocal.relative, List.foldl_append, ← h.here_eq ht]
  rcases hlocal.pieces_eq with hpieces | hpieces
  · rw [hpieces]
    exact stepFrom_of_isName hlocal.isName here
  · rw [hpieces]
    exact stepFrom_of_isName hlocal.isName here

/-- **A name in the working directory is resolved there.** -/
theorem resolve_eq (hlocal : IsLocal name path) :
    t.resolve cwd path =
      .ok (if (t.entryAt? (here ++ [name])).isSome then .existing (here ++ [name])
        else .missing (here ++ [name])) := by
  obtain ⟨es, hes⟩ := h.directory
  have hfollow := ht.follow_name hlocal.isName hlocal.fits hes linkLimit
  rw [resolve, if_neg hlocal.isPath.noNul, if_neg hlocal.isPath.fits, h.pieces_eq hlocal.relative]
  rcases hlocal.pieces_eq with hpieces | hpieces
  · rw [hpieces, ht.follow_append _ _ _ (List.cons_ne_nil _ _), h.follow]
    exact hfollow
  · have hdot : t.lookUp here "." = .ok true := by
      rw [lookUp, hes]
      rfl
    rw [hpieces, ht.follow_append _ _ _ (List.cons_ne_nil _ _), h.follow]
    dsimp only
    rw [ht.follow_cons, hdot]
    exact hfollow

theorem entryOf_eq (hlocal : IsLocal name path) {entry : Entry}
    (hentry : t.entryAt? (here ++ [name]) = some entry) : t.entryOf cwd path = .ok entry := by
  have hlocate : t.locate cwd path = .ok (here ++ [name]) := by
    rw [locate, h.resolve_eq ht hlocal, hentry]
    rfl
  rw [entryOf, hlocate]
  dsimp only
  rw [hentry]

/-- The way to the working directory goes through directories, so not through a location
inside it where there is none. -/
theorem not_mem_front {l : List Path}
    (hl : ∀ inside, t.entryAt? (here ++ [name]) ≠ some (.directory inside))
    (hmem : l ∈ front.scanl stepFrom []) : l ≠ here ++ [name] := by
  rintro rfl
  rcases ht.directory_of_follow h.follow _ hmem with heq | ⟨es, hes⟩
  · rw [← h.here_eq ht] at heq
    simp at heq
  · exact hl es hes

/-- A file that is put into the working directory leaves it the working directory. -/
theorem insert (hname : ∀ inside, t.entryAt? (here ++ [name]) ≠ some (.directory inside))
    (content : ByteArray) :
    (t.insert (here ++ [name]) (.file content)).IsWorkingDirectory cwd front here := by
  have hinserted : (t.insert (here ++ [name]) (.file content)).HasNoLinks := ht.insert trivial
  have hclear : IsClear (fun l => decide (l = here ++ [name])) [] := by
    intro above habove
    rw [List.prefix_nil.mp habove]
    exact decide_eq_false (by simp)
  have hrow : ∀ l ∈ front.scanl stepFrom [], decide (l = here ++ [name]) = false :=
    fun l hl => decide_eq_false (h.not_mem_front ht hname hl)
  obtain ⟨es, hes⟩ := h.directory
  refine ⟨h.pieces_eq, ?_, ?_⟩
  · rw [← follow_without hinserted hclear hrow, insert_without hes _ (decide_eq_true rfl),
      follow_without ht hclear hrow, h.follow]
  · exact exists_directory_of_entryAt? (entryAt?_insert (by simp) t (.file content))

end IsWorkingDirectory

end FileTree
end AggregateAudit
