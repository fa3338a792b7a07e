import AggregateAudit.Proofs.WellNamed
import Mathlib.Data.List.Induction

/-!
# Where paths lead

`FileTree.follow` looks a path up piece by piece, jumps where there is a link, and counts
the links.  `FileTree.Leads` says the same as a relation: through exactly so many links, a
row of pieces leads from one location to another.  The two agree
(`follow_eq_existing_iff`), and the relation is what can be argued about: it has one answer
(`Leads.unique`), and a way can be cut in two wherever its row can (`Leads.split`).

The second half is about trees from which something has been taken away
(`FileTree.without`).  As long as it is no directory, a way in what is left is a way in the
whole tree (`Leads.of_without`), and a way in the whole tree either is left or goes through
something that was taken (`Leads.without_or`).
-/

namespace AggregateAudit
namespace FileTree

variable {t : FileTree}

/-! ## Locations -/

theorem entryAt?_nil (t : FileTree) : t.entryAt? [] = some (.directory t.entries) := rfl

theorem lookupAll_cons {es below : List (Path × Entry)} {name : Path}
    (h : Entry.lookup name es = some (.directory below)) (rest : List Path) :
    lookupAll es (name :: rest) = lookupAll below rest := by
  cases rest with
  | nil => exact h
  | cons second rest =>
    rw [lookupAll, h]
    exact List.cons_ne_nil _ _

/-- Behind a directory there is what its names stand for. -/
theorem lookupAll_append {es below : List (Path × Entry)} {location : List Path}
    (h : lookupAll es location = some (.directory below)) (name : Path) :
    lookupAll es (location ++ [name]) = Entry.lookup name below := by
  fun_induction lookupAll es location with
  | case1 es =>
    cases h
    rfl
  | case2 es first => exact lookupAll_cons h [name]
  | case3 es first rest inner _ hlookup ih =>
    rw [List.cons_append, lookupAll_cons hlookup]
    exact ih h
  | case4 => cases h

theorem entryAt?_append {es : List (Path × Entry)} {location : List Path}
    (h : t.entryAt? location = some (.directory es)) (name : Path) :
    t.entryAt? (location ++ [name]) = Entry.lookup name es :=
  lookupAll_append h name

/-- What is somewhere is in a directory. -/
theorem exists_directory_of_lookupAll {es : List (Path × Entry)} {location : List Path}
    {name : Path} {entry : Entry} (h : lookupAll es (location ++ [name]) = some entry) :
    ∃ below, lookupAll es location = some (.directory below) := by
  induction location generalizing es with
  | nil => exact ⟨es, rfl⟩
  | cons first rest ih =>
    rw [List.cons_append, lookupAll] at h
    · split at h
      · next inner hlookup =>
        rw [lookupAll_cons hlookup]
        exact ih h
      · cases h
    · simp

theorem exists_directory_of_entryAt? {location : List Path} {name : Path} {entry : Entry}
    (h : t.entryAt? (location ++ [name]) = some entry) :
    ∃ es, t.entryAt? location = some (.directory es) :=
  exists_directory_of_lookupAll h

/-- Above a directory there are directories. -/
theorem exists_directory_of_append {location more : List Path} {es : List (Path × Entry)}
    (h : t.entryAt? (location ++ more) = some (.directory es)) :
    ∃ es, t.entryAt? location = some (.directory es) := by
  induction more using List.reverseRecOn generalizing es with
  | nil => exact ⟨es, by rwa [List.append_nil] at h⟩
  | append_singleton more name ih =>
    rw [← List.append_assoc] at h
    obtain ⟨above, habove⟩ := exists_directory_of_entryAt? h
    exact ih habove

theorem exists_directory_dropLast {location : List Path} {es : List (Path × Entry)}
    (h : t.entryAt? location = some (.directory es)) :
    ∃ es, t.entryAt? location.dropLast = some (.directory es) := by
  rcases List.eq_nil_or_concat location with rfl | ⟨above, name, rfl⟩
  · exact ⟨es, h⟩
  · rw [List.concat_eq_append] at h ⊢
    rw [List.dropLast_concat]
    exact exists_directory_of_entryAt? h

/-! ## Following -/

theorem follow_nil (links : Nat) (here : List Path) :
    t.follow links here [] = .ok (.existing here) := by
  cases links <;> rfl

/-- One piece is looked up, and the rest of the row is followed from where it leads. -/
theorem follow_cons (links : Nat) (here : List Path) (piece : Path) (rest : List Path) :
    t.follow links here (piece :: rest) =
      match t.entryAt? here with
      | none => .error .notFound
      | some (.file _) => .error .notDirectory
      | some (.barred _) => .error .notDirectory
      | some (.link _) => .error .notDirectory
      | some (.directory es) =>
        if piece = "" ∨ piece = "." then t.follow links here rest
        else if piece = ".." then t.follow links here.dropLast rest
        else if nameLimit < piece.bytes.length then .error .nameTooLong
        else
          match Entry.lookup piece es with
          | none => if rest.isEmpty then .ok (.missing (here ++ [piece])) else .error .notFound
          | some (.link target) =>
            match links with
            | 0 => .error .tooManyLinks
            | links + 1 =>
              t.follow links (if Path.isAbsolute target then [] else here) (pieces target ++ rest)
          | some _ => t.follow links (here ++ [piece]) rest := by
  cases links <;> rfl

/-- Whether a piece of a path is looked up as a name. -/
structure IsStep (piece : Path) : Prop where
  notBlank : ¬(piece = "" ∨ piece = ".")
  notParent : piece ≠ ".."
  fits : ¬nameLimit < piece.bytes.length

/-- Through exactly so many links, a row of pieces leads from a location to another one. -/
inductive Leads (t : FileTree) : (links : Nat) → (here row location : List Path) → Prop
  | arrived (here : List Path) : Leads t 0 here [] here
  | stay {links : Nat} {here rest location : List Path} {piece : Path}
      {es : List (Path × Entry)} (hhere : t.entryAt? here = some (.directory es))
      (hpiece : piece = "" ∨ piece = ".") (h : Leads t links here rest location) :
      Leads t links here (piece :: rest) location
  | up {links : Nat} {here rest location : List Path} {piece : Path}
      {es : List (Path × Entry)} (hhere : t.entryAt? here = some (.directory es))
      (hpiece : piece = "..") (h : Leads t links here.dropLast rest location) :
      Leads t links here (piece :: rest) location
  | down {links : Nat} {here rest location : List Path} {piece : Path}
      {es : List (Path × Entry)} {entry : Entry}
      (hhere : t.entryAt? here = some (.directory es)) (hpiece : IsStep piece)
      (hentry : Entry.lookup piece es = some entry) (hlink : ∀ target, entry ≠ .link target)
      (h : Leads t links (here ++ [piece]) rest location) :
      Leads t links here (piece :: rest) location
  | jump {links : Nat} {here rest location : List Path} {piece target : Path}
      {es : List (Path × Entry)} (hhere : t.entryAt? here = some (.directory es))
      (hpiece : IsStep piece) (hentry : Entry.lookup piece es = some (.link target))
      (h : Leads t links (if Path.isAbsolute target then [] else here) (pieces target ++ rest)
        location) :
      Leads t (links + 1) here (piece :: rest) location

/-- A way that is allowed enough links is followed to its end. -/
theorem Leads.follow_eq {n links : Nat} {here row location : List Path}
    (h : Leads t n here row location) (hlinks : n ≤ links) :
    t.follow links here row = .ok (.existing location) := by
  induction h generalizing links with
  | arrived here => exact follow_nil links here
  | stay hhere hpiece _ ih =>
    rw [follow_cons, hhere]
    dsimp only
    rw [if_pos hpiece, ih hlinks]
  | up hhere hpiece _ ih =>
    rw [follow_cons, hhere]
    dsimp only
    rw [if_neg (by rw [hpiece]; decide), if_pos hpiece, ih hlinks]
  | @down _ _ _ _ _ _ entry hhere hpiece hentry hlink _ ih =>
    rw [follow_cons, hhere]
    dsimp only
    rw [if_neg hpiece.notBlank, if_neg hpiece.notParent, if_neg hpiece.fits, hentry]
    cases entry with
    | file content => exact ih hlinks
    | barred why => exact ih hlinks
    | link target => exact absurd rfl (hlink target)
    | directory inside => exact ih hlinks
  | jump hhere hpiece hentry _ ih =>
    obtain ⟨links, rfl⟩ := Nat.exists_eq_succ_of_ne_zero (Nat.ne_of_gt (Nat.lt_of_lt_of_le
      (Nat.succ_pos _) hlinks))
    rw [follow_cons, hhere]
    dsimp only
    rw [if_neg hpiece.notBlank, if_neg hpiece.notParent, if_neg hpiece.fits, hentry]
    exact ih (Nat.le_of_succ_le_succ hlinks)

/-- What is followed to its end is a way. -/
theorem exists_leads_of_follow {links : Nat} {here row location : List Path}
    (h : t.follow links here row = .ok (.existing location)) :
    ∃ n ≤ links, Leads t n here row location := by
  -- a jump may make the row longer, but it spends a link
  induction links using Nat.strongRecOn generalizing here row with
  | ind links ihlinks =>
  induction row generalizing here with
  | nil =>
    rw [follow_nil] at h
    cases h
    exact ⟨0, Nat.zero_le links, .arrived _⟩
  | cons piece rest ih =>
    rw [follow_cons] at h
    split at h
    · cases h
    · cases h
    · cases h
    · cases h
    · next es hhere =>
      split at h
      · next hblank =>
        obtain ⟨n, hn, hway⟩ := ih h
        exact ⟨n, hn, .stay hhere hblank hway⟩
      · next hblank =>
        split at h
        · next hparent =>
          obtain ⟨n, hn, hway⟩ := ih h
          exact ⟨n, hn, .up hhere hparent hway⟩
        · next hparent =>
          split at h
          · cases h
          · next hfits =>
            have hpiece : IsStep piece := ⟨hblank, hparent, hfits⟩
            split at h
            · split at h
              · cases h
              · cases h
            · next target hentry =>
              cases links with
              | zero => cases h
              | succ links =>
                obtain ⟨n, hn, hway⟩ := ihlinks links (Nat.lt_succ_self links) h
                exact ⟨n + 1, Nat.succ_le_succ hn, .jump hhere hpiece hentry hway⟩
            · next entry hlink hentry =>
              obtain ⟨n, hn, hway⟩ := ih h
              exact ⟨n, hn, .down hhere hpiece hentry (fun target heq => hlink target heq) hway⟩

/-- **Following a row is finding the way it leads.** -/
theorem follow_eq_existing_iff {links : Nat} {here row location : List Path} :
    t.follow links here row = .ok (.existing location) ↔
      ∃ n ≤ links, Leads t n here row location :=
  ⟨exists_leads_of_follow, fun ⟨_, hn, hway⟩ => hway.follow_eq hn⟩

/-! ## Ways -/

namespace Leads

/-- A row leads to one location. -/
theorem unique {m n : Nat} {here row x y : List Path} (hx : Leads t m here row x)
    (hy : Leads t n here row y) : x = y := by
  have hfx := hx.follow_eq (Nat.le_max_left m n)
  have hfy := hy.follow_eq (Nat.le_max_right m n)
  rw [hfx] at hfy
  cases hfy
  rfl

/-- A way can be cut wherever its row can. -/
theorem split {n : Nat} {here row more location : List Path}
    (h : Leads t n here (row ++ more) location) :
    ∃ k l middle, Leads t k here row middle ∧ Leads t l middle more location := by
  generalize hwhole : row ++ more = whole at h
  induction h generalizing row with
  | arrived here =>
    obtain ⟨rfl, rfl⟩ := List.append_eq_nil_iff.mp hwhole
    exact ⟨0, 0, here, .arrived here, .arrived here⟩
  | @stay links here rest location piece es hhere hpiece h ih =>
    cases row with
    | nil =>
      obtain rfl : more = piece :: rest := hwhole
      exact ⟨0, links, here, .arrived here, .stay hhere hpiece h⟩
    | cons first row =>
      obtain ⟨rfl, hrest⟩ := List.cons.inj hwhole
      obtain ⟨k, l, middle, hfront, hback⟩ := ih hrest
      exact ⟨k, l, middle, .stay hhere hpiece hfront, hback⟩
  | @up links here rest location piece es hhere hpiece h ih =>
    cases row with
    | nil =>
      obtain rfl : more = piece :: rest := hwhole
      exact ⟨0, links, here, .arrived here, .up hhere hpiece h⟩
    | cons first row =>
      obtain ⟨rfl, hrest⟩ := List.cons.inj hwhole
      obtain ⟨k, l, middle, hfront, hback⟩ := ih hrest
      exact ⟨k, l, middle, .up hhere hpiece hfront, hback⟩
  | @down links here rest location piece es entry hhere hpiece hentry hlink h ih =>
    cases row with
    | nil =>
      obtain rfl : more = piece :: rest := hwhole
      exact ⟨0, links, here, .arrived here, .down hhere hpiece hentry hlink h⟩
    | cons first row =>
      obtain ⟨rfl, hrest⟩ := List.cons.inj hwhole
      obtain ⟨k, l, middle, hfront, hback⟩ := ih hrest
      exact ⟨k, l, middle, .down hhere hpiece hentry hlink hfront, hback⟩
  | @jump links here rest location piece target es hhere hpiece hentry h ih =>
    cases row with
    | nil =>
      obtain rfl : more = piece :: rest := hwhole
      exact ⟨0, links + 1, here, .arrived here, .jump hhere hpiece hentry h⟩
    | cons first row =>
      obtain ⟨rfl, hrest⟩ := List.cons.inj hwhole
      have hjump : (pieces target ++ row) ++ more = pieces target ++ rest := by
        rw [List.append_assoc, ← hrest, List.append_eq]
      obtain ⟨k, l, middle, hfront, hback⟩ := ih hjump
      exact ⟨k + 1, l, middle, .jump hhere hpiece hentry hfront, hback⟩

/-- A way ends where something is, if it starts there. -/
theorem exists_entryAt? {n : Nat} {here row location : List Path}
    (h : Leads t n here row location) {es : List (Path × Entry)}
    (hhere : t.entryAt? here = some (.directory es)) :
    ∃ entry, t.entryAt? location = some entry := by
  suffices ∀ entry, t.entryAt? here = some entry → ∃ entry, t.entryAt? location = some entry from
    this _ hhere
  clear hhere
  induction h with
  | arrived here => exact fun entry hentry => ⟨entry, hentry⟩
  | stay hhere _ _ ih => exact fun _ _ => ih _ hhere
  | up hhere _ _ ih =>
    obtain ⟨above, habove⟩ := exists_directory_dropLast hhere
    exact fun _ _ => ih _ habove
  | down hhere _ hentry _ _ ih => exact fun _ _ => ih _ ((entryAt?_append hhere _).trans hentry)
  | @jump _ _ _ _ _ target _ hhere _ _ _ ih =>
    intro _ _
    split at ih
    · exact ih _ (entryAt?_nil t)
    · exact ih _ hhere

/-- From a place that is no directory nothing leads on. -/
theorem eq_of_not_directory {n : Nat} {here row location : List Path} {entry : Entry}
    (h : Leads t n here row location) (hhere : t.entryAt? here = some entry)
    (hentry : entry.isDirectory = false) : location = here := by
  cases h with
  | arrived => rfl
  | stay hdir | up hdir | down hdir | jump hdir =>
    rw [hhere] at hdir
    cases hdir
    cases hentry

end Leads

/-! ## Paths -/

/-- What must hold of a path itself, before anything is looked up. -/
structure IsPath (path : Path) : Prop where
  noNul : ¬path.bytes.contains 0 = true
  fits : ¬pathLimit < path.bytes.length

/-- **A path locates what its pieces lead to** through as many links as are allowed. -/
theorem locate_eq_ok_iff {cwd path : Path} {location : List Path} :
    t.locate cwd path = .ok location ↔
      IsPath path ∧ ∃ n ≤ linkLimit, Leads t n [] (pieces (Path.join cwd path)) location := by
  rw [← follow_eq_existing_iff, locate, resolve]
  constructor
  · intro h
    split at h
    · next hresolve =>
      cases h
      split at hresolve
      · cases hresolve
      · next hnul =>
        split at hresolve
        · cases hresolve
        · next hfits => exact ⟨⟨hnul, hfits⟩, hresolve⟩
    · cases h
    · cases h
  · rintro ⟨hpath, hfollow⟩
    rw [if_neg hpath.noNul, if_neg hpath.fits, hfollow]

/-- There is something where a path leads. -/
theorem entryOf_eq_of_locate {cwd path : Path} {location : List Path}
    (h : t.locate cwd path = .ok location) :
    ∃ entry, t.entryAt? location = some entry ∧ t.entryOf cwd path = .ok entry := by
  obtain ⟨-, n, -, hway⟩ := locate_eq_ok_iff.mp h
  obtain ⟨entry, hentry⟩ := hway.exists_entryAt? (entryAt?_nil t)
  exact ⟨entry, hentry, by rw [entryOf, h]; dsimp only; rw [hentry]⟩

theorem exists_locate_of_entryOf {cwd path : Path} {entry : Entry}
    (h : t.entryOf cwd path = .ok entry) :
    ∃ location, t.locate cwd path = .ok location ∧ t.entryAt? location = some entry := by
  rw [entryOf] at h
  split at h
  · cases h
  · next location hlocate =>
    split at h
    · next hentry =>
      cases h
      exact ⟨location, hlocate, hentry⟩
    · cases h

end FileTree

/-! ## Taking something away -/

mutual

/-- An entry at a location without what is inside it at locations that are gone. -/
def Entry.without (gone : List Path → Bool) (location : List Path) : Entry → Entry
  | .file content => .file content
  | .barred why => .barred why
  | .link target => .link target
  | .directory entries => .directory (Entry.allWithout gone location entries)

/-- The entries of the directory at a location without those that are gone, and without
what is gone inside the others. -/
def Entry.allWithout (gone : List Path → Bool) (location : List Path) :
    List (Path × Entry) → List (Path × Entry)
  | [] => []
  | (name, entry) :: rest =>
    if gone (location ++ [name]) then Entry.allWithout gone location rest
    else
      (name, Entry.without gone (location ++ [name]) entry) :: Entry.allWithout gone location rest

end

/-- The tree without what is at locations that are gone. -/
def FileTree.without (t : FileTree) (gone : List Path → Bool) : FileTree :=
  ⟨Entry.allWithout gone [] t.entries⟩

namespace Entry

variable (gone : List Path → Bool)

theorem lookup_allWithout (location : List Path) (name : Path)
    (entries : List (Path × Entry)) :
    lookup name (allWithout gone location entries) =
      if gone (location ++ [name]) then none
      else (lookup name entries).map (without gone (location ++ [name])) := by
  induction entries with
  | nil => simp [allWithout, lookup]
  | cons first rest ih =>
    obtain ⟨n, e⟩ := first
    rw [allWithout]
    by_cases hn : n = name
    · subst hn
      split
      · next hgone => rw [ih, if_pos hgone]
      · next hgone => simp [lookup]
    · split
      · rw [ih, lookup, if_neg hn]
      · rw [lookup, if_neg hn, ih, lookup, if_neg hn]

end Entry

namespace FileTree

variable {gone : List Path → Bool}

theorem lookupAll_allWithout (base : List Path) (entries : List (Path × Entry))
    (location : List Path)
    (hgone : ∀ l es, lookupAll entries l = some (.directory es) → gone (base ++ l) = false) :
    lookupAll (Entry.allWithout gone base entries) location =
      if gone (base ++ location) then none
      else (lookupAll entries location).map (Entry.without gone (base ++ location)) := by
  induction location generalizing base entries with
  | nil =>
    have h := hgone [] entries rfl
    rw [h, if_neg Bool.false_ne_true, List.append_nil]
    rfl
  | cons name rest ih =>
    cases rest with
    | nil => exact Entry.lookup_allWithout gone base name entries
    | cons second rest =>
      rw [lookupAll, lookupAll, Entry.lookup_allWithout]
      · cases hentry : Entry.lookup name entries with
        | none => simp
        | some entry =>
          cases entry with
          | file content => split <;> simp_all [Entry.without]
          | barred why => split <;> simp_all [Entry.without]
          | link target => split <;> simp_all [Entry.without]
          | directory below =>
            have hname : gone (base ++ [name]) = false := hgone [name] below hentry
            have hinside : ∀ l es, lookupAll below l = some (.directory es) →
                gone (base ++ [name] ++ l) = false := by
              intro l es hl
              rw [List.append_assoc]
              exact hgone (name :: l) es ((lookupAll_cons hentry l).trans hl)
            have hrest := ih (base ++ [name]) below hinside
            rw [List.append_assoc] at hrest
            rw [hname]
            exact hrest
      · exact List.cons_ne_nil _ _
      · exact List.cons_ne_nil _ _

/-- Whether no directory is gone. -/
def SparesDirectories (t : FileTree) (gone : List Path → Bool) : Prop :=
  ∀ location es, t.entryAt? location = some (.directory es) → gone location = false

variable {t : FileTree} (hgone : t.SparesDirectories gone)

include hgone

/-- **At a location that is not gone there is what was there**, without what is gone. -/
theorem entryAt?_without (location : List Path) :
    (t.without gone).entryAt? location =
      if gone location then none else (t.entryAt? location).map (Entry.without gone location) :=
  lookupAll_allWithout [] t.entries location hgone

theorem entryAt?_without_directory {location : List Path} {es : List (Path × Entry)}
    (h : t.entryAt? location = some (.directory es)) :
    (t.without gone).entryAt? location = some (.directory (Entry.allWithout gone location es)) := by
  rw [entryAt?_without hgone, hgone location es h, h]
  rfl

/-- What is left at a location was there before. -/
theorem exists_of_entryAt?_without {location : List Path} {left : Entry}
    (h : (t.without gone).entryAt? location = some left) :
    ∃ entry, t.entryAt? location = some entry ∧ left = entry.without gone location := by
  rw [entryAt?_without hgone] at h
  split at h
  · cases h
  · obtain ⟨entry, hentry, rfl⟩ := Option.map_eq_some_iff.mp h
    exact ⟨entry, hentry, rfl⟩

theorem exists_directory_of_without {location : List Path} {left : List (Path × Entry)}
    (h : (t.without gone).entryAt? location = some (.directory left)) :
    ∃ es, t.entryAt? location = some (.directory es)
      ∧ left = Entry.allWithout gone location es := by
  obtain ⟨entry, hentry, heq⟩ := exists_of_entryAt?_without hgone h
  cases entry with
  | file content => cases heq
  | barred why => cases heq
  | link target => cases heq
  | directory es =>
    cases heq
    exact ⟨es, hentry, rfl⟩

/-- **A way in what is left is a way in the whole tree.** -/
theorem Leads.of_without {n : Nat} {here row location : List Path}
    (h : Leads (t.without gone) n here row location) : Leads t n here row location := by
  -- what a name leads to in what is left, it led to before
  have hlookup : ∀ {here es piece left}, Entry.lookup piece (Entry.allWithout gone here es) =
      some left → ∃ entry, Entry.lookup piece es = some entry
        ∧ left = entry.without gone (here ++ [piece]) := by
    intro here es piece left h
    rw [Entry.lookup_allWithout] at h
    split at h
    · cases h
    · obtain ⟨entry, hentry, rfl⟩ := Option.map_eq_some_iff.mp h
      exact ⟨entry, hentry, rfl⟩
  induction h with
  | arrived here => exact .arrived here
  | stay hhere hpiece _ ih =>
    obtain ⟨es, hes, -⟩ := exists_directory_of_without hgone hhere
    exact .stay hes hpiece ih
  | up hhere hpiece _ ih =>
    obtain ⟨es, hes, -⟩ := exists_directory_of_without hgone hhere
    exact .up hes hpiece ih
  | down hhere hpiece hentry hlink _ ih =>
    obtain ⟨es, hes, rfl⟩ := exists_directory_of_without hgone hhere
    obtain ⟨entry, hwhole, rfl⟩ := hlookup hentry
    refine .down hes hpiece hwhole ?_ ih
    rintro target rfl
    exact hlink target rfl
  | jump hhere hpiece hentry _ ih =>
    obtain ⟨es, hes, rfl⟩ := exists_directory_of_without hgone hhere
    obtain ⟨entry, hwhole, heq⟩ := hlookup hentry
    cases entry with
    | file content => cases heq
    | barred why => cases heq
    | directory inside => cases heq
    | link target =>
      cases heq
      exact .jump hes hpiece hwhole ih

/-- **A way in the whole tree is left, or it goes through something that is gone.** -/
theorem Leads.without_or {n : Nat} {here row location : List Path}
    (h : Leads t n here row location) :
    Leads (t.without gone) n here row location ∨
      ∃ k parent name rest, gone (parent ++ [name]) = true
        ∧ Leads t k parent (name :: rest) location := by
  induction h with
  | arrived here => exact .inl (.arrived here)
  | stay hhere hpiece _ ih =>
    exact ih.imp_left (.stay (entryAt?_without_directory hgone hhere) hpiece)
  | up hhere hpiece _ ih =>
    exact ih.imp_left (.up (entryAt?_without_directory hgone hhere) hpiece)
  | @down k here rest location piece es entry hhere hpiece hentry hlink h ih =>
    cases hpart : gone (here ++ [piece]) with
    | true => exact .inr ⟨k, here, piece, rest, hpart, .down hhere hpiece hentry hlink h⟩
    | false =>
      have hleft : Entry.lookup piece (Entry.allWithout gone here es) =
          some (entry.without gone (here ++ [piece])) := by
        rw [Entry.lookup_allWithout, hpart, hentry]
        rfl
      refine ih.imp_left (.down (entryAt?_without_directory hgone hhere) hpiece hleft ?_)
      · intro target heq
        cases entry with
        | file content => cases heq
        | barred why => cases heq
        | link target => exact hlink target rfl
        | directory inside => cases heq
  | @jump k here rest location piece target es hhere hpiece hentry h ih =>
    cases hpart : gone (here ++ [piece]) with
    | true => exact .inr ⟨k + 1, here, piece, rest, hpart, .jump hhere hpiece hentry h⟩
    | false =>
      refine ih.imp_left (.jump (entryAt?_without_directory hgone hhere) hpiece ?_)
      rw [Entry.lookup_allWithout, hpart, hentry]
      rfl

/-- What a path locates in what is left, it located before. -/
theorem locate_of_locate_without {cwd path : Path} {location : List Path}
    (h : (t.without gone).locate cwd path = .ok location) : t.locate cwd path = .ok location := by
  obtain ⟨hpath, n, hn, hway⟩ := locate_eq_ok_iff.mp h
  exact locate_eq_ok_iff.mpr ⟨hpath, n, hn, hway.of_without hgone⟩

/-- **What is at a path in what is left, was there before.** -/
theorem entryOf_of_entryOf_without {cwd path : Path} {left : Entry}
    (h : (t.without gone).entryOf cwd path = .ok left) :
    ∃ location entry, t.entryOf cwd path = .ok entry ∧ left = entry.without gone location := by
  obtain ⟨location, hlocate, hleft⟩ := exists_locate_of_entryOf h
  obtain ⟨entry, hentry, rfl⟩ := exists_of_entryAt?_without hgone hleft
  obtain ⟨found, hfound, hof⟩ := entryOf_eq_of_locate (locate_of_locate_without hgone hlocate)
  rw [hentry] at hfound
  cases hfound
  exact ⟨location, entry, hof, rfl⟩

end FileTree
end AggregateAudit
