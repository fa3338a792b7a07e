import AggregateAudit.Proofs.Walking

/-!
# Paths in trees without links

Where there are no links a path leads where its text says.  The text alone gives the
stations of its way (`FileTree.stations`), each of which is one step from the one before,
and its end (`FileTree.locationOf`).  If a tree without links resolves the path, then to that
end, and all other stations are directories (`resolve_eq_ok`).

A path *avoids* some locations if none of them is a station of its way.  Then it makes no
difference what is at them, be it files or directories, or nothing: without them the tree
answers the same, even in its faults (`resolve_without`, `entryOf_without`).  Where links
are allowed less can be said, because then the text does not show the way.

Most paths that an analysis looks up are put together, and so are their ways
(`Avoids.join_names`, `avoids_join_pathOf`).
-/

namespace AggregateAudit
namespace FileTree

/-! ## Ways -/

/-- Where a piece of a path leads from a location, if it is not the name of a link. -/
def stepFrom (here : List Path) (piece : Path) : List Path :=
  if piece = "" ∨ piece = "." then here
  else if piece = ".." then here.dropLast
  else here ++ [piece]

/-- The locations that the text of a path leads through, from the root directory to its
end. -/
def stations (cwd path : Path) : List (List Path) :=
  (pieces (Path.join cwd path)).scanl stepFrom []

/-- Where the text of a path leads. -/
def locationOf (cwd path : Path) : List Path :=
  (pieces (Path.join cwd path)).foldl stepFrom []

/-- Whether the way of a path goes through none of the locations that are gone. -/
def Avoids (gone : List Path → Bool) (cwd path : Path) : Prop :=
  ∀ location ∈ stations cwd path, gone location = false

instance (gone : List Path → Bool) (cwd path : Path) : Decidable (Avoids gone cwd path) :=
  inferInstanceAs (Decidable (∀ location ∈ stations cwd path, gone location = false))

/-- Whether neither a location nor anything above it is gone. -/
def IsClear (gone : List Path → Bool) (location : List Path) : Prop :=
  ∀ above, above <+: location → gone above = false

theorem locationOf_mem_stations (cwd path : Path) :
    locationOf cwd path ∈ stations cwd path :=
  List.mem_of_getLast? List.getLast?_scanl

theorem stepFrom_of_blank {piece : Path} (h : piece = "" ∨ piece = ".") (here : List Path) :
    stepFrom here piece = here := if_pos h

theorem stepFrom_parent (here : List Path) : stepFrom here ".." = here.dropLast := rfl

theorem stepFrom_of_ne {piece : Path} (hblank : ¬(piece = "" ∨ piece = "."))
    (hparent : piece ≠ "..") (here : List Path) : stepFrom here piece = here ++ [piece] := by
  rw [stepFrom, if_neg hblank, if_neg hparent]

theorem stepFrom_of_isName {name : Path} (h : Path.IsName name) (here : List Path) :
    stepFrom here name = here ++ [name] :=
  stepFrom_of_ne (not_or.mpr ⟨h.notEmpty, h.notHere⟩) h.notParent here

/-- Names go down one after the other. -/
theorem foldl_stepFrom_names {row : List Path} (h : ∀ n ∈ row, Path.IsName n)
    (here : List Path) : row.foldl stepFrom here = here ++ row := by
  induction row generalizing here with
  | nil => simp
  | cons name row ih =>
    obtain ⟨hname, hrow⟩ := List.forall_mem_cons.mp h
    rw [List.foldl_cons, ih hrow, stepFrom_of_isName hname, List.append_assoc]
    rfl

/-- The stations of names are what is above their end. -/
theorem prefix_of_mem_scanl_names {row here location : List Path}
    (h : ∀ n ∈ row, Path.IsName n) (hlocation : location ∈ row.scanl stepFrom here) :
    location <+: here ++ row := by
  induction row generalizing here with
  | nil => simp_all
  | cons name row ih =>
    obtain ⟨hname, hrow⟩ := List.forall_mem_cons.mp h
    rw [List.scanl_cons, stepFrom_of_isName hname] at hlocation
    rcases List.mem_cons.mp hlocation with rfl | hlocation
    · exact List.prefix_append _ _
    · simpa using ih hrow hlocation

section Clear

variable {gone : List Path → Bool}

theorem IsClear.not_gone {location : List Path} (h : IsClear gone location) :
    gone location = false :=
  h location (List.prefix_refl location)

theorem IsClear.of_prefix {above location : List Path} (h : IsClear gone location)
    (habove : above <+: location) : IsClear gone above :=
  fun _ hle => h _ (hle.trans habove)

theorem isClear_concat_iff {location : List Path} {name : Path} :
    IsClear gone (location ++ [name]) ↔
      IsClear gone location ∧ gone (location ++ [name]) = false := by
  constructor
  · exact fun h => ⟨h.of_prefix (List.prefix_append _ _), h.not_gone⟩
  · rintro ⟨habove, hlast⟩ above hle
    rcases List.prefix_concat_iff.mp hle with rfl | hle
    · exact hlast
    · exact habove above hle

theorem IsClear.stepFrom {here : List Path} (h : IsClear gone here) {piece : Path}
    (hnext : gone (stepFrom here piece) = false) : IsClear gone (stepFrom here piece) := by
  by_cases hblank : piece = "" ∨ piece = "."
  · rwa [stepFrom_of_blank hblank]
  · by_cases hparent : piece = ".."
    · rw [hparent, stepFrom_parent]
      exact h.of_prefix (List.dropLast_prefix here)
    · rw [stepFrom_of_ne hblank hparent] at hnext ⊢
      exact isClear_concat_iff.mpr ⟨h, hnext⟩

/-- A way that goes through nothing that is gone stays clear of it. -/
theorem isClear_of_mem_scanl {row here : List Path} (hhere : IsClear gone here)
    (hrow : ∀ l ∈ row.scanl FileTree.stepFrom here, gone l = false) :
    ∀ l ∈ row.scanl FileTree.stepFrom here, IsClear gone l := by
  induction row generalizing here with
  | nil => simpa using hhere
  | cons piece row ih =>
    rw [List.scanl_cons] at hrow ⊢
    have hrest := (List.forall_mem_cons.mp hrow).2
    have hnext : gone (FileTree.stepFrom here piece) = false := by
      refine hrest _ ?_
      cases row <;> simp [List.scanl_cons]
    exact List.forall_mem_cons.mpr ⟨hhere, ih (hhere.stepFrom hnext) hrest⟩

/-- The root directory is a station of every way. -/
theorem Avoids.isClear_nil {cwd path : Path} (h : Avoids gone cwd path) : IsClear gone [] := by
  have hmem : [] ∈ stations cwd path := by
    rw [stations]
    cases pieces (Path.join cwd path) <;> simp [List.scanl_cons]
  intro above habove
  rw [List.prefix_nil.mp habove]
  exact h _ hmem

theorem Avoids.isClear {cwd path : Path} (h : Avoids gone cwd path) {location : List Path}
    (hlocation : location ∈ stations cwd path) : IsClear gone location :=
  isClear_of_mem_scanl h.isClear_nil h location hlocation

end Clear

/-! ## Ways of joined paths -/

section Joined

variable {gone : List Path → Bool} {cwd base p : Path}

/-- Paths below a path begin with one row of pieces, which leads where that leads. -/
theorem exists_front (cwd base : Path) :
    ∃ front : List Path, front.foldl stepFrom [] = locationOf cwd base
      ∧ (∀ l ∈ front.scanl stepFrom [], l ∈ stations cwd base)
      ∧ ∀ {p : Path}, Path.isAbsolute p = false →
        pieces (Path.join cwd (Path.join base p)) = front ++ pieces p := by
  obtain ⟨front, hjoin, hbase⟩ := pieces_join (Path.join cwd base)
  refine ⟨front, ?_, ?_, fun hp => (Path.join_join cwd base hp).symm ▸ hjoin hp⟩
  · rw [locationOf]
    rcases hbase with hbase | hbase
    · rw [hbase]
    · rw [hbase, List.foldl_append]
      rfl
  · intro l hl
    rw [stations]
    rcases hbase with hbase | hbase
    · rwa [hbase]
    · rw [hbase, List.scanl_append]
      exact List.mem_append_left _ hl

/-- A path below a path leads on from where that leads. -/
theorem locationOf_join (cwd base : Path) (hp : Path.isAbsolute p = false) :
    locationOf cwd (Path.join base p) = (pieces p).foldl stepFrom (locationOf cwd base) := by
  obtain ⟨front, hfront, -, hjoin⟩ := exists_front cwd base
  rw [← hfront, locationOf, hjoin hp, List.foldl_append]

/-- Below a path that avoids what is gone, so does what avoids it on from there. -/
theorem Avoids.join (h : Avoids gone cwd base) (hp : Path.isAbsolute p = false)
    (hrest : ∀ l ∈ (pieces p).scanl stepFrom (locationOf cwd base), gone l = false) :
    Avoids gone cwd (Path.join base p) := by
  obtain ⟨front, hfront, hstations, hjoin⟩ := exists_front cwd base
  intro l hl
  rw [stations, hjoin hp, List.scanl_append, hfront] at hl
  rcases List.mem_append.mp hl with hl | hl
  · exact h l (hstations l hl)
  · exact hrest l (List.mem_of_mem_tail hl)

/-- Below a path that avoids what is gone, so do names of what is not gone. -/
theorem Avoids.join_names (h : Avoids gone cwd base) (hp : Path.isAbsolute p = false)
    (hnames : ∀ n ∈ pieces p, Path.IsName n)
    (hclear : IsClear gone (locationOf cwd base ++ pieces p)) :
    Avoids gone cwd (Path.join base p) :=
  h.join hp fun l hl => hclear l (prefix_of_mem_scanl_names hnames hl)

end Joined

/-! ## Paths of locations -/

section Locations

variable {gone : List Path → Bool} {location : List Path}

theorem isAbsolute_pathOf (location : List Path) : Path.isAbsolute (pathOf location) = true := by
  cases location with
  | nil => rfl
  | cons name rest => simp [pathOf, Path.isAbsolute]

theorem pieces_eq_of_isName {name : Path} (h : Path.IsName name) : pieces name = [name] := by
  rw [pieces, h.splitOn_eq, List.map_singleton]

/-- Behind the slash that it begins with, the path of a location is its names. -/
theorem pieces_pathOf (h : ∀ n ∈ location, Path.IsName n) (hne : location ≠ []) :
    pieces (pathOf location) = Path.ofString "" :: location := by
  rw [pathOf, if_neg (by simpa using hne)]
  clear hne
  induction location using List.reverseRecOn with
  | nil => decide
  | append_singleton above name ih =>
    obtain ⟨habove, hname⟩ := List.forall_mem_append.mp h
    have hlast := pieces_eq_of_isName (hname name (List.mem_singleton_self name))
    let front : Path := ⟨above.flatMap fun n => Path.slash :: n.bytes⟩
    have hsplit : (⟨(above ++ [name]).flatMap fun n => Path.slash :: n.bytes⟩ : Path) =
        front ++ "/" ++ name := Path.ext (by simp [front])
    rw [hsplit, pieces_append_slash, ih habove, hlast, List.cons_append]

theorem locationOf_pathOf (h : ∀ n ∈ location, Path.IsName n) (cwd : Path) :
    locationOf cwd (pathOf location) = location := by
  rw [locationOf, Path.join, if_pos (isAbsolute_pathOf location)]
  by_cases hne : location = []
  · subst hne
    rfl
  · rw [pieces_pathOf h hne, List.foldl_cons]
    exact foldl_stepFrom_names h []

/-- The path of a location avoids what is gone if neither the location nor anything above it
is. -/
theorem avoids_pathOf (h : ∀ n ∈ location, Path.IsName n) (hclear : IsClear gone location)
    (cwd : Path) : Avoids gone cwd (pathOf location) := by
  rw [Avoids, stations, Path.join, if_pos (isAbsolute_pathOf location)]
  by_cases hne : location = []
  · subst hne
    intro l hl
    refine hclear l ?_
    have hroot : (pieces (pathOf [])).scanl stepFrom [] = [[], [], []] := rfl
    rw [hroot] at hl
    simp_all
  · rw [pieces_pathOf h hne, List.scanl_cons]
    refine List.forall_mem_cons.mpr ⟨hclear [] List.nil_prefix, fun l hl => ?_⟩
    exact hclear l (prefix_of_mem_scanl_names h hl)

theorem avoids_join_pathOf {p : Path} (h : ∀ n ∈ location, Path.IsName n)
    (hp : Path.isAbsolute p = false) (hnames : ∀ n ∈ pieces p, Path.IsName n)
    (hclear : IsClear gone (location ++ pieces p)) (cwd : Path) :
    Avoids gone cwd (Path.join (pathOf location) p) :=
  (avoids_pathOf h (hclear.of_prefix (List.prefix_append _ _)) cwd).join_names hp hnames
    (by rwa [locationOf_pathOf h])

end Locations

end FileTree

/-! ## Trees without links -/

mutual

/-- Whether an entry is no link and holds none. -/
def Entry.IsLinkFree : Entry → Prop
  | .file _ | .barred _ => True
  | .link _ => False
  | .directory entries => Entry.AreLinkFree entries

/-- Whether the entries of a row are no links and hold none. -/
def Entry.AreLinkFree : List (Path × Entry) → Prop
  | [] => True
  | (_, entry) :: rest => Entry.IsLinkFree entry ∧ Entry.AreLinkFree rest

end

/-- Whether there is no link in a tree. -/
def FileTree.HasNoLinks (t : FileTree) : Prop := Entry.IsLinkFree (.directory t.entries)

mutual

/-- It can be computed whether an entry is free of links. -/
def Entry.decideLinkFree : (entry : Entry) → Decidable entry.IsLinkFree
  | .file _ | .barred _ => .isTrue trivial
  | .link _ => .isFalse id
  | .directory entries => Entry.decideAllLinkFree entries

def Entry.decideAllLinkFree :
    (entries : List (Path × Entry)) → Decidable (Entry.AreLinkFree entries)
  | [] => .isTrue trivial
  | (_, entry) :: rest =>
    have := Entry.decideLinkFree entry
    have := Entry.decideAllLinkFree rest
    inferInstanceAs (Decidable (Entry.IsLinkFree entry ∧ Entry.AreLinkFree rest))

end

instance (t : FileTree) : Decidable t.HasNoLinks := Entry.decideLinkFree (.directory t.entries)

theorem Entry.AreLinkFree.lookup {entries : List (Path × Entry)} (h : AreLinkFree entries)
    {name : Path} {entry : Entry} (hentry : Entry.lookup name entries = some entry) :
    entry.IsLinkFree := by
  induction entries with
  | nil => cases hentry
  | cons first rest ih =>
    obtain ⟨n, e⟩ := first
    rw [Entry.lookup] at hentry
    split at hentry
    · cases hentry
      exact h.1
    · exact ih h.2 hentry

namespace FileTree

theorem isLinkFree_of_lookupAll {entries : List (Path × Entry)} {location : List Path}
    {entry : Entry} (h : Entry.IsLinkFree (.directory entries))
    (hentry : lookupAll entries location = some entry) : entry.IsLinkFree := by
  fun_induction lookupAll entries location with
  | case1 es =>
    cases hentry
    exact h
  | case2 es name => exact Entry.AreLinkFree.lookup h hentry
  | case3 es name rest below _ hlookup ih => exact ih (Entry.AreLinkFree.lookup h hlookup) hentry
  | case4 => cases hentry

theorem HasNoLinks.not_link {t : FileTree} (h : t.HasNoLinks) (location : List Path)
    (target : Path) : t.entryAt? location ≠ some (.link target) :=
  fun hentry => isLinkFree_of_lookupAll h hentry

/-! ## Where paths lead -/

/-- What looking up one piece of a path comes to where there are no links: a fault, or
whether there is something. -/
def lookUp (t : FileTree) (here : List Path) (piece : Path) : Except FileFault Bool :=
  match t.entryAt? here with
  | none => .error .notFound
  | some (.file _) => .error .notDirectory
  | some (.barred _) => .error .notDirectory
  | some (.link _) => .error .notDirectory
  | some (.directory es) =>
    if (piece = "" ∨ piece = ".") ∨ piece = ".." then .ok true
    else if nameLimit < piece.bytes.length then .error .nameTooLong
    else .ok (Entry.lookup piece es).isSome

/-- What is looked up is looked up in a directory. -/
theorem exists_directory_of_lookUp {t : FileTree} {here : List Path} {piece : Path} {b : Bool}
    (h : t.lookUp here piece = .ok b) : ∃ es, t.entryAt? here = some (.directory es) := by
  rw [lookUp] at h
  split at h
  · cases h
  · cases h
  · cases h
  · cases h
  · next es hes => exact ⟨es, hes⟩

section NoLinks

variable {t : FileTree} (ht : t.HasNoLinks)

include ht

/-- **Without links, following a row takes one step for each piece.** -/
theorem HasNoLinks.follow_cons (n : Nat) (here : List Path) (piece : Path)
    (rest : List Path) :
    t.follow n here (piece :: rest) =
      match t.lookUp here piece with
      | .error f => .error f
      | .ok false => if rest.isEmpty then .ok (.missing (stepFrom here piece)) else .error .notFound
      | .ok true => t.follow n (stepFrom here piece) rest := by
  rw [FileTree.follow_cons, lookUp]
  cases hhere : t.entryAt? here with
  | none => rfl
  | some entry =>
    cases entry with
    | file | barred | link => rfl
    | directory es =>
      dsimp only
      by_cases hblank : piece = "" ∨ piece = "."
      · rw [if_pos hblank, if_pos (.inl hblank), stepFrom_of_blank hblank]
      · by_cases hparent : piece = ".."
        · rw [if_neg hblank, if_pos hparent, if_pos (.inr hparent), hparent, stepFrom_parent]
        · rw [if_neg hblank, if_neg hparent, if_neg (not_or.mpr ⟨hblank, hparent⟩),
            stepFrom_of_ne hblank hparent]
          split
          · rfl
          · cases hentry : Entry.lookup piece es with
            | none => rfl
            | some inside =>
              cases inside with
              | file | barred | directory => rfl
              | link target =>
                exact absurd ((entryAt?_append hhere piece).trans hentry) (ht.not_link _ target)

/-- A row that leads somewhere can be followed further from there. -/
theorem HasNoLinks.follow_append (n : Nat) (here row : List Path) {more : List Path}
    (hmore : more ≠ []) :
    t.follow n here (row ++ more) =
      match t.follow n here row with
      | .error f => .error f
      | .ok (.missing _) => .error .notFound
      | .ok (.existing location) => t.follow n location more := by
  induction row generalizing here with
  | nil => rw [follow_nil, List.nil_append]
  | cons piece row ih =>
    rw [List.cons_append, ht.follow_cons, ht.follow_cons]
    cases t.lookUp here piece with
    | error f => rfl
    | ok found =>
      cases found with
      | true => exact ih (stepFrom here piece)
      | false =>
        have hempty : (row ++ more).isEmpty = false := by simp [hmore]
        dsimp only
        rw [hempty, if_neg Bool.false_ne_true]
        cases row.isEmpty with
        | true => rfl
        | false => rfl

/-- What is followed further is a directory, and the next piece says how. -/
theorem HasNoLinks.follow_cons_eq_ok {n : Nat} {here rest : List Path} {piece : Path}
    {place : Place} (h : t.follow n here (piece :: rest) = .ok place) :
    (∃ es, t.entryAt? here = some (.directory es))
      ∧ (t.follow n (stepFrom here piece) rest = .ok place
        ∨ rest = [] ∧ place = .missing (stepFrom here piece)) := by
  rw [ht.follow_cons] at h
  split at h
  · cases h
  · next hlookUp =>
    refine ⟨exists_directory_of_lookUp hlookUp, ?_⟩
    split at h
    · next hrest =>
      cases h
      exact .inr ⟨List.isEmpty_iff.mp hrest, rfl⟩
    · cases h
  · next hlookUp => exact ⟨exists_directory_of_lookUp hlookUp, .inl h⟩

theorem HasNoLinks.place_of_follow {n : Nat} {here row : List Path} {place : Place}
    (h : t.follow n here row = .ok place) :
    place = .existing (row.foldl stepFrom here) ∨ place = .missing (row.foldl stepFrom here) := by
  induction row generalizing here with
  | nil =>
    rw [follow_nil] at h
    cases h
    exact .inl rfl
  | cons piece rest ih =>
    obtain ⟨-, hrest | ⟨rfl, rfl⟩⟩ := ht.follow_cons_eq_ok h
    · exact ih hrest
    · exact .inr rfl

/-- On the way there are directories. -/
theorem HasNoLinks.directory_of_follow {n : Nat} {here row : List Path} {place : Place}
    (h : t.follow n here row = .ok place) :
    ∀ l ∈ row.scanl stepFrom here,
      l = row.foldl stepFrom here ∨ ∃ es, t.entryAt? l = some (.directory es) := by
  induction row generalizing here with
  | nil => simp
  | cons piece rest ih =>
    obtain ⟨hhere, hrest⟩ := ht.follow_cons_eq_ok h
    rw [List.scanl_cons]
    refine List.forall_mem_cons.mpr ⟨.inr hhere, ?_⟩
    rcases hrest with hrest | ⟨rfl, -⟩
    · exact ih hrest
    · simp

/-- **In a tree without links a path leads where its text says**, through directories. -/
theorem HasNoLinks.resolve_eq_ok {cwd path : Path} {place : Place}
    (h : t.resolve cwd path = .ok place) :
    (place = .existing (locationOf cwd path) ∨ place = .missing (locationOf cwd path))
      ∧ ∀ l ∈ stations cwd path,
        l = locationOf cwd path ∨ ∃ es, t.entryAt? l = some (.directory es) := by
  rw [resolve] at h
  split at h
  · cases h
  · split at h
    · cases h
    · exact ⟨ht.place_of_follow h, ht.directory_of_follow h⟩

theorem HasNoLinks.locate_eq_ok {cwd path : Path} {location : List Path}
    (h : t.locate cwd path = .ok location) :
    location = locationOf cwd path ∧ ∀ l ∈ stations cwd path,
      l = locationOf cwd path ∨ ∃ es, t.entryAt? l = some (.directory es) := by
  rw [locate] at h
  split at h
  · next hresolve =>
    cases h
    obtain ⟨hplace, hdirectory⟩ := ht.resolve_eq_ok hresolve
    refine ⟨?_, hdirectory⟩
    rcases hplace with hplace | hplace
    · exact Place.existing.inj hplace
    · cases hplace
  · cases h
  · cases h

end NoLinks

end FileTree

/-! ## Without what a path avoids -/

mutual

theorem Entry.IsLinkFree.without (gone : List Path → Bool) (location : List Path)
    {entry : Entry} (h : entry.IsLinkFree) : (entry.without gone location).IsLinkFree := by
  match entry, h with
  | .file _, _ | .barred _, _ => trivial
  | .directory _, h => exact Entry.AreLinkFree.without gone location h

theorem Entry.AreLinkFree.without (gone : List Path → Bool) (location : List Path)
    {entries : List (Path × Entry)} (h : Entry.AreLinkFree entries) :
    Entry.AreLinkFree (Entry.allWithout gone location entries) := by
  match entries, h with
  | [], _ => trivial
  | (name, entry) :: rest, h =>
    have hrest := Entry.AreLinkFree.without gone location h.2
    rw [Entry.allWithout]
    split
    · exact hrest
    · exact ⟨Entry.IsLinkFree.without gone _ h.1, hrest⟩

end

namespace FileTree

theorem HasNoLinks.without {t : FileTree} (h : t.HasNoLinks) (gone : List Path → Bool) :
    (t.without gone).HasNoLinks :=
  Entry.AreLinkFree.without gone [] h

section Without

variable {t : FileTree} {gone : List Path → Bool}

/-- At a clear location there is what was there, without what is gone. -/
theorem entryAt?_without_of_isClear {location : List Path} (h : IsClear gone location) :
    (t.without gone).entryAt? location =
      (t.entryAt? location).map (Entry.without gone location) := by
  induction location using List.reverseRecOn with
  | nil => rfl
  | append_singleton above name ih =>
    obtain ⟨habove, hname⟩ := isClear_concat_iff.mp h
    have habove := ih habove
    -- without a directory above there is nothing, before and after
    have hnone : ∀ u : FileTree, (∀ es, u.entryAt? above ≠ some (.directory es)) →
        u.entryAt? (above ++ [name]) = none := by
      intro u hu
      cases hentry : u.entryAt? (above ++ [name]) with
      | none => rfl
      | some entry =>
        obtain ⟨es, hes⟩ := exists_directory_of_entryAt? hentry
        exact absurd hes (hu es)
    cases hentry : t.entryAt? above with
    | none =>
      rw [hnone t (by simp [hentry]), hnone _ (by simp [habove, hentry])]
      rfl
    | some entry =>
      cases entry with
      | file | barred | link =>
        rw [hnone t (by simp [hentry]), hnone _ (by simp [habove, hentry, Entry.without])]
        rfl
      | directory es =>
        rw [hentry] at habove
        rw [entryAt?_append habove, entryAt?_append hentry, Entry.lookup_allWithout, hname]
        rfl

/-- What is left somewhere is clear of what is gone. -/
theorem isClear_of_entryAt?_without (hroot : gone [] = false) {location : List Path}
    {entry : Entry} (h : (t.without gone).entryAt? location = some entry) :
    IsClear gone location := by
  induction location using List.reverseRecOn generalizing entry with
  | nil =>
    intro above habove
    rwa [List.prefix_nil.mp habove]
  | append_singleton above name ih =>
    obtain ⟨left, hleft⟩ := exists_directory_of_entryAt? h
    have habove := ih hleft
    refine isClear_concat_iff.mpr ⟨habove, ?_⟩
    rw [entryAt?_append hleft] at h
    rw [entryAt?_without_of_isClear habove] at hleft
    obtain ⟨whole, -, hwhole⟩ := Option.map_eq_some_iff.mp hleft
    cases whole with
    | file | barred | link => cases hwhole
    | directory es =>
      cases hwhole
      rw [Entry.lookup_allWithout] at h
      exact Bool.eq_false_iff.mpr fun hgone => by simp [hgone] at h

/-- A clear step comes to the same. -/
theorem lookUp_without {here : List Path} (hhere : IsClear gone here) {piece : Path}
    (hnext : gone (stepFrom here piece) = false) :
    (t.without gone).lookUp here piece = t.lookUp here piece := by
  rw [lookUp, lookUp, entryAt?_without_of_isClear hhere]
  cases t.entryAt? here with
  | none => rfl
  | some entry =>
    cases entry with
    | file | barred | link => rfl
    | directory es =>
      dsimp only [Option.map_some, Entry.without]
      by_cases hspecial : (piece = "" ∨ piece = ".") ∨ piece = ".."
      · rw [if_pos hspecial, if_pos hspecial]
      · rw [stepFrom_of_ne (fun h => hspecial (.inl h)) fun h => hspecial (.inr h)] at hnext
        rw [if_neg hspecial, if_neg hspecial, Entry.lookup_allWithout, hnext,
          if_neg Bool.false_ne_true, Option.isSome_map]

variable (ht : t.HasNoLinks)

include ht

theorem follow_without {here row : List Path} (hhere : IsClear gone here)
    (hrow : ∀ l ∈ row.scanl stepFrom here, gone l = false) (n : Nat) :
    (t.without gone).follow n here row = t.follow n here row := by
  induction row generalizing here with
  | nil => rw [follow_nil, follow_nil]
  | cons piece rest ih =>
    rw [List.scanl_cons] at hrow
    have hrest := (List.forall_mem_cons.mp hrow).2
    have hnext : gone (stepFrom here piece) = false := by
      refine hrest _ ?_
      cases rest <;> simp [List.scanl_cons]
    rw [(ht.without gone).follow_cons, ht.follow_cons, lookUp_without hhere hnext,
      ih (hhere.stepFrom hnext) hrest]

section Avoiding

variable {cwd path : Path} (h : Avoids gone cwd path)

include h

/-- **What a path avoids makes no difference to where it leads**, nor to the fault if it
leads nowhere. -/
theorem resolve_without : (t.without gone).resolve cwd path = t.resolve cwd path := by
  rw [resolve, resolve, follow_without ht h.isClear_nil h]

theorem locate_without : (t.without gone).locate cwd path = t.locate cwd path := by
  rw [locate, locate, resolve_without ht h]

/-- What is at the path is what was there, without what is gone inside it. -/
theorem entryOf_without :
    (t.without gone).entryOf cwd path =
      (t.entryOf cwd path).map (Entry.without gone (locationOf cwd path)) := by
  rw [entryOf, entryOf, locate_without ht h]
  cases hlocate : t.locate cwd path with
  | error f => rfl
  | ok location =>
    dsimp only
    rw [(ht.locate_eq_ok hlocate).1,
      entryAt?_without_of_isClear (h.isClear (locationOf_mem_stations cwd path))]
    cases t.entryAt? (locationOf cwd path) with
    | none => rfl
    | some entry => rfl

theorem isFile_without : (t.without gone).isFile cwd path = t.isFile cwd path := by
  rw [isFile, isFile, entryOf_without ht h]
  rcases t.entryOf cwd path with _ | (_ | _ | _ | _) <;> rfl

theorem readBytes_without : (t.without gone).readBytes cwd path = t.readBytes cwd path := by
  rw [readBytes, readBytes, entryOf_without ht h]
  rcases t.entryOf cwd path with _ | (_ | _ | _ | _) <;> rfl

theorem readText_without : (t.without gone).readText cwd path = t.readText cwd path := by
  rw [readText, readText, readBytes_without ht h]

end Avoiding
end Without
end FileTree
end AggregateAudit
