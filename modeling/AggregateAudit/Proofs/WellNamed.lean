import AggregateAudit.Discovery
import AggregateAudit.Proofs.PathOrder

/-!
# Names in file trees

In the directories that a system shows, names are made of anything but slashes, they are
not empty and neither `.` nor `..`, and no directory has a name twice.  A `FileTree` need
not be like that, so it is said of trees here (`FileTree.IsWellNamed`).

What it is needed for is that paths tell files apart.  Below a directory a name adds one
component to the path (`components_below`), so the source files of a well-named tree have
paths that are rows of names and that are pairwise different, not only as texts but as
paths (`Search.candidates_areFiles`).  Then the order of paths leaves nothing open when
they are sorted, and it is the same order whether they are sorted by their paths below
the root or by their full paths (`Search.compare_fullPath`).
-/

namespace AggregateAudit

/-! ## Names -/

namespace Path

/-- Whether a text can be a name in a directory. -/
structure IsName (name : Path) : Prop where
  notEmpty : name ≠ ""
  notHere : name ≠ "."
  notParent : name ≠ ".."
  noSlash : slash ∉ name.bytes

instance (name : Path) : Decidable (IsName name) :=
  decidable_of_iff (name ≠ "" ∧ name ≠ "." ∧ name ≠ ".." ∧ slash ∉ name.bytes)
    ⟨fun h => ⟨h.1, h.2.1, h.2.2.1, h.2.2.2⟩,
      fun h => ⟨h.notEmpty, h.notHere, h.notParent, h.noSlash⟩⟩

theorem IsName.splitOn_eq {name : Path} (h : IsName name) :
    name.bytes.splitOn slash = [name.bytes] := List.splitOn_eq_singleton h.noSlash

/-- A name is one step. -/
theorem IsName.steps_eq {name : Path} (h : IsName name) : steps name = [.normal name.bytes] := by
  have hstep : Component.ofPiece? name.bytes = some (.normal name.bytes) := by
    have h₁ : name.bytes ≠ [] := fun heq => h.notEmpty (eq_empty_iff.mpr heq)
    have h₂ : name.bytes ≠ [point] := fun heq => h.notHere (Path.ext heq)
    have h₃ : name.bytes ≠ [point, point] := fun heq => h.notParent (Path.ext heq)
    rw [Component.ofPiece?, if_neg (not_or.mpr ⟨h₁, h₂⟩), if_neg h₃]
  rw [steps, h.splitOn_eq, List.filterMap_cons_some hstep, List.filterMap_nil]

theorem IsName.components_eq {name : Path} (h : IsName name) :
    components name = [.normal name.bytes] := by
  have hhere : name.bytes ≠ [point] := fun heq => h.notHere (Path.ext heq)
  rw [Path.components_eq, h.steps_eq, h.splitOn_eq]
  simp [lead, hhere]

end Path

/-- **A name adds one component** to the path of the directory it is in. -/
theorem Discovery.components_below {name : Path} (h : Path.IsName name) (directory : Path) :
    Path.components (below directory name) =
      Path.components directory ++ [.normal name.bytes] := by
  rw [below]
  split
  · next hroot => rw [hroot, h.components_eq]; rfl
  · next hroot => rw [Path.components_append_slash hroot, h.steps_eq]

/-! ## Well-named trees -/

mutual

/-- Whether an entry and everything inside it is well named. -/
def Entry.IsWellNamed : Entry → Prop
  | .file _ => True
  | .barred _ => True
  | .link _ => True
  | .directory entries => (entries.map Prod.fst).Nodup ∧ Entry.AreWellNamed entries

/-- Whether the entries of a row, and everything inside them, have names that can be
names, and inside every directory different ones. -/
def Entry.AreWellNamed : List (Path × Entry) → Prop
  | [] => True
  | (name, entry) :: rest =>
    Path.IsName name ∧ Entry.IsWellNamed entry ∧ Entry.AreWellNamed rest

end

/-- Whether every directory of a tree holds names that can be names, each once. -/
def FileTree.IsWellNamed (t : FileTree) : Prop := Entry.IsWellNamed (.directory t.entries)

mutual

/-- Names are looked at one by one, so it can be computed whether an entry is well named. -/
def Entry.decideWellNamed : (entry : Entry) → Decidable entry.IsWellNamed
  | .file _ => .isTrue trivial
  | .barred _ => .isTrue trivial
  | .link _ => .isTrue trivial
  | .directory entries =>
    have := Entry.decideAllWellNamed entries
    inferInstanceAs (Decidable ((entries.map Prod.fst).Nodup ∧ Entry.AreWellNamed entries))

def Entry.decideAllWellNamed :
    (entries : List (Path × Entry)) → Decidable (Entry.AreWellNamed entries)
  | [] => .isTrue trivial
  | (name, entry) :: rest =>
    have := Entry.decideWellNamed entry
    have := Entry.decideAllWellNamed rest
    inferInstanceAs
      (Decidable (Path.IsName name ∧ Entry.IsWellNamed entry ∧ Entry.AreWellNamed rest))

end

instance (t : FileTree) : Decidable t.IsWellNamed := Entry.decideWellNamed (.directory t.entries)

namespace Entry

theorem AreWellNamed.of_mem {entries : List (Path × Entry)} (h : AreWellNamed entries)
    {name : Path} {entry : Entry} (hmem : (name, entry) ∈ entries) :
    Path.IsName name ∧ entry.IsWellNamed := by
  induction entries with
  | nil => cases hmem
  | cons first rest ih =>
    obtain ⟨n, e⟩ := first
    rw [AreWellNamed] at h
    rcases List.mem_cons.mp hmem with heq | hmem
    · cases heq
      exact ⟨h.1, h.2.1⟩
    · exact ih h.2.2 hmem

/-- What is looked up is in the row. -/
theorem mem_of_lookup {name : Path} {entry : Entry} {entries : List (Path × Entry)}
    (h : lookup name entries = some entry) : (name, entry) ∈ entries := by
  induction entries with
  | nil => cases h
  | cons first rest ih =>
    obtain ⟨n, e⟩ := first
    rw [lookup] at h
    split at h
    · next hn =>
      cases h
      rw [hn]
      exact List.mem_cons_self
    · exact List.mem_cons_of_mem _ (ih h)

end Entry

namespace FileTree

theorem isWellNamed_of_lookupAll {entries : List (Path × Entry)} {location : List Path}
    {entry : Entry} (h : Entry.IsWellNamed (.directory entries))
    (hentry : lookupAll entries location = some entry) : entry.IsWellNamed := by
  fun_induction lookupAll entries location with
  | case1 es =>
    cases hentry
    exact h
  | case2 es name => exact (h.2.of_mem (Entry.mem_of_lookup hentry)).2
  | case3 es name rest below _ hlookup ih =>
    exact ih (h.2.of_mem (Entry.mem_of_lookup hlookup)).2 hentry
  | case4 => cases hentry

/-- What is at a location of a well-named tree is well named. -/
theorem IsWellNamed.entryAt {t : FileTree} (h : t.IsWellNamed) {location : List Path}
    {entry : Entry} (hentry : t.entryAt? location = some entry) : entry.IsWellNamed :=
  isWellNamed_of_lookupAll h hentry

end FileTree

/-! ## What a walk finds -/

namespace Discovery

/-- The paths of different files below a directory, each of which goes through one of
the given names of the directory. -/
structure FoundBelow (directory : Path) (names paths : List Path) : Prop where
  /-- No two of them are the same path. -/
  distinct : paths.Pairwise fun p q => Path.components p ≠ Path.components q
  /-- Behind the directory and the name there is nothing but names. -/
  below : ∀ p ∈ paths, ∃ name ∈ names, ∃ rest : List (List UInt8),
    Path.components p =
      Path.components directory ++ .normal name.bytes :: rest.map Path.Component.normal

theorem foundBelow_nil (directory : Path) (names : List Path) :
    FoundBelow directory names [] where
  distinct := .nil
  below _ hp := absurd hp List.not_mem_nil

/-- A file of the directory itself. -/
theorem foundBelow_single (directory : Path) {name : Path} (h : Path.IsName name) :
    FoundBelow directory [name] [Discovery.below directory name] where
  distinct := List.pairwise_singleton _ _
  below p hp := by
    cases List.mem_singleton.mp hp
    exact ⟨name, List.mem_singleton_self name, [], components_below h directory⟩

/-- Files of an inner directory. -/
theorem FoundBelow.of_inside {directory name : Path} {names paths : List Path}
    (hname : Path.IsName name) (h : FoundBelow (Discovery.below directory name) names paths) :
    FoundBelow directory [name] paths where
  distinct := h.distinct
  below p hp := by
    obtain ⟨inner, -, rest, hrest⟩ := h.below p hp
    refine ⟨name, List.mem_singleton_self name, inner.bytes :: rest, ?_⟩
    rw [hrest, components_below hname, List.append_assoc]
    rfl

/-- What is below one name and what is below others are different files. -/
theorem FoundBelow.append {directory name : Path} {names paths more : List Path}
    (hpaths : FoundBelow directory [name] paths) (hmore : FoundBelow directory names more)
    (hname : name ∉ names) : FoundBelow directory (name :: names) (paths ++ more) where
  distinct := by
    refine List.pairwise_append.mpr ⟨hpaths.distinct, hmore.distinct, ?_⟩
    intro p hp q hq heq
    obtain ⟨n, hn, s, hs⟩ := hpaths.below p hp
    obtain ⟨m, hm, t, ht⟩ := hmore.below q hq
    rw [hs, ht] at heq
    have hhead := (List.cons.inj (List.append_cancel_left heq)).1
    have hnm : n = m := Path.ext (Path.Component.normal.inj hhead)
    rw [← List.mem_singleton.mp hn, hnm] at hname
    exact hname hm
  below p hp := by
    rcases List.mem_append.mp hp with hp | hp
    · obtain ⟨n, hn, rest⟩ := hpaths.below p hp
      exact ⟨n, List.mem_cons.mpr (.inl (List.mem_singleton.mp hn)), rest⟩
    · obtain ⟨n, hn, rest⟩ := hmore.below p hp
      exact ⟨n, List.mem_cons_of_mem _ hn, rest⟩

section Walk

variable (scope : Ignore.Scope) (user : Bool → Path → Option Ignore.Verdict)

mutual

theorem foundBelow_walk (location : List Path) (directory : Path)
    (layers : List Ignore.Layer) {name : Path} (hname : Path.IsName name) (entry : Entry)
    (h : entry.IsWellNamed) :
    FoundBelow directory [name] (walk scope user location directory layers name entry) := by
  match entry with
  | .file _ | .barred _ | .link _ =>
    rw [walk]
    split
    · exact foundBelow_single directory hname
    · exact foundBelow_nil directory [name]
  | .directory entries =>
    rw [walk]
    dsimp only
    split
    · exact foundBelow_nil directory [name]
    · exact (foundBelow_walkAll (location ++ [name]) (Discovery.below directory name) _ entries
        h.1 h.2).of_inside hname

/-- **The files that a walk finds are different files**, all of them below the directory. -/
theorem foundBelow_walkAll (location : List Path) (directory : Path)
    (layers : List Ignore.Layer) (entries : List (Path × Entry))
    (hnames : (entries.map Prod.fst).Nodup) (h : Entry.AreWellNamed entries) :
    FoundBelow directory (entries.map Prod.fst)
      (walkAll scope user location directory layers entries) := by
  match entries with
  | [] =>
    rw [walkAll]
    exact foundBelow_nil directory []
  | (name, entry) :: rest =>
    rw [walkAll, List.map_cons]
    obtain ⟨hnew, hrest⟩ := List.nodup_cons.mp hnames
    exact (foundBelow_walk location directory layers h.1 entry h.2.1).append
      (foundBelow_walkAll location directory layers rest hrest h.2.2) hnew

end

end Walk

/-! ## Candidates -/

/-- Paths of files below the root: different paths, and rows of names unless the root is
the only file. -/
structure AreFiles (paths : List Path) : Prop where
  distinct : paths.Pairwise fun p q => Path.components p ≠ Path.components q
  plain : (∀ p ∈ paths, p = "") ∨ ∀ p ∈ paths, p ≠ "" ∧ Path.IsPlain p

theorem FoundBelow.areFiles {names paths : List Path}
    (h : FoundBelow "" names paths) : AreFiles paths where
  distinct := h.distinct
  plain := by
    right
    intro p hp
    obtain ⟨name, -, rest, hrest⟩ := h.below p hp
    constructor
    · rintro rfl
      cases hrest
    · intro c hc
      rw [hrest] at hc
      rcases List.mem_cons.mp hc with rfl | hc
      · exact ⟨_, rfl⟩
      · obtain ⟨n, -, rfl⟩ := List.mem_map.mp hc
        exact ⟨n, rfl⟩

/-- Some of the files are files. -/
theorem AreFiles.filter {paths : List Path} (h : AreFiles paths) (keep : Path → Bool) :
    AreFiles (paths.filter keep) where
  distinct := h.distinct.filter keep
  plain := h.plain.imp (fun hall p hp => hall p (List.mem_filter.mp hp).1)
    fun hall p hp => hall p (List.mem_filter.mp hp).1

end Discovery

namespace Search

open Discovery

/-- **A search finds different files**, if the tree is well named. -/
theorem candidates_areFiles {s : Search} {t : FileTree} (ht : t.IsWellNamed)
    {found : List Path} (h : s.candidates t = .ok found) : AreFiles found := by
  have hone : ∀ {paths : List Path},
      (paths = [Path.ofString ""] ∨ paths = []) → AreFiles paths := by
    rintro paths (rfl | rfl)
    · exact ⟨List.pairwise_singleton _ _, .inl (by simp)⟩
    · exact ⟨.nil, .inl (by simp)⟩
  rw [candidates] at h
  split at h
  · cases h
  · split at h
    · next hentry =>
      dsimp only at h
      split at h
      · cases h
        have hwell := ht.entryAt hentry
        exact (foundBelow_walkAll _ _ _ "" _ _ hwell.1 hwell.2).areFiles.filter _
      · cases h
    · cases h
      split
      · exact hone (.inl rfl)
      · exact hone (.inr rfl)

/-- Full paths of files below the root compare like the paths below the root. -/
theorem compare_fullPath (s : Search) {found : List Path} (h : AreFiles found)
    {p q : Path} (hp : p ∈ found) (hq : q ∈ found) :
    Path.compare (s.fullPath p) (s.fullPath q) = Path.compare p q := by
  rcases h.plain with hempty | hplain
  · rw [hempty p hp, hempty q hq, Path.compare_eq_eq_iff.mpr rfl, Path.compare_eq_eq_iff.mpr rfl]
  · obtain ⟨hpne, hpp⟩ := hplain p hp
    obtain ⟨hqne, hqp⟩ := hplain q hq
    rw [fullPath, fullPath, if_neg hpne, if_neg hqne, Path.compare_join s.root hpp hqp]

end Search
end AggregateAudit
