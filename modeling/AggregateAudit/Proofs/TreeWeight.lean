import AggregateAudit.Proofs.ReportJson
import AggregateAudit.Proofs.Spans
import AggregateAudit.Proofs.Unreadable

/-!
# Numbers that fit into words

A report is written as JSON and read back if its numbers fit into words.  They count bytes, lines
and files of the tree, so they fit if the tree as a whole can be counted, which is what
`FileTree.weight` does (`Analysis.fitsWords`); nothing else is assumed of it.
-/

namespace AggregateAudit

/-! ## How much there is in a tree -/

mutual

/-- The files, links and directories of an entry and the bytes in its files. -/
def Entry.weight : Entry → Nat
  | .file content => content.size + 1
  | .barred _ | .link _ => 1
  | .directory entries => Entry.weightAll entries + 1

/-- What a row of entries weighs. -/
def Entry.weightAll : List (Path × Entry) → Nat
  | [] => 0
  | (_, entry) :: rest => entry.weight + weightAll rest

end

/-- The files, links and directories of a tree and the bytes in its files. -/
def FileTree.weight (t : FileTree) : Nat := (Entry.directory t.entries).weight

namespace FileTree

end FileTree

section Walking

variable (scope : Ignore.Scope) (user : Bool → Path → Option Ignore.Verdict)

mutual

/-- A walk finds no more files at and below an entry than there are. -/
theorem Discovery.length_walk_le (location : List Path) (directory : Path)
    (layers : List Ignore.Layer) (name : Path) (entry : Entry) :
    (walk scope user location directory layers name entry).length ≤ entry.weight := by
  match entry with
  | .file content =>
    rw [walk, Entry.weight]
    split <;> simp
  | .barred _ | .link _ =>
    rw [walk, Entry.weight]
    split <;> simp
  | .directory entries =>
    rw [walk, Entry.weight]
    dsimp only
    split
    · exact Nat.zero_le _
    · exact Nat.le_succ_of_le (length_walkAll_le _ _ _ entries)

theorem Discovery.length_walkAll_le (location : List Path) (directory : Path)
    (layers : List Ignore.Layer) (entries : List (Path × Entry)) :
    (walkAll scope user location directory layers entries).length ≤ Entry.weightAll entries := by
  match entries with
  | [] =>
    rw [walkAll]
    exact Nat.zero_le _
  | (name, entry) :: rest =>
    rw [walkAll, Entry.weightAll, List.length_append]
    exact Nat.add_le_add (length_walk_le location directory layers name entry)
      (length_walkAll_le location directory layers rest)

end

end Walking

namespace Source

/-! A declaration that is listed is a member of the row or of a type in it. -/

mutual

theorem exists_member_of_mem_listing {d : Declaration} {owner : TypeDeclaration} (m : Member)
    (h : d ∈ Member.listing owner m) :
    m.location = d.location
      ∨ ∃ t, Member.Holds [m] t ∧ ∃ x ∈ t.members, x.location = d.location := by
  match m with
  | .constructor c =>
    rw [Member.listing] at h
    cases List.mem_singleton.mp h
    exact .inl rfl
  | .method m =>
    rw [Member.listing] at h
    cases List.mem_singleton.mp h
    exact .inl rfl
  | .type header members =>
    rw [Member.listing] at h
    right
    rcases exists_member_of_mem_listingAll members h with ⟨x, hx, hloc⟩ | ⟨t, ht, hmember⟩
    · exact ⟨⟨header, members⟩, .here List.mem_cons_self, x, hx, hloc⟩
    · exact ⟨t, .deeper List.mem_cons_self ht, hmember⟩

theorem exists_member_of_mem_listingAll {d : Declaration} {owner : TypeDeclaration}
    (row : List Member) (h : d ∈ Member.listingAll owner row) :
    (∃ x ∈ row, x.location = d.location)
      ∨ ∃ t, Member.Holds row t ∧ ∃ x ∈ t.members, x.location = d.location := by
  match row with
  | [] => cases h
  | m :: row =>
    rw [Member.listingAll, List.mem_append] at h
    rcases h with h | h
    · rcases exists_member_of_mem_listing m h with hloc | ⟨t, ht, hmember⟩
      · exact .inl ⟨m, List.mem_cons_self, hloc⟩
      · exact .inr ⟨t, (Member.holds_cons_iff m row t).mpr (.inl ht), hmember⟩
    · rcases exists_member_of_mem_listingAll row h with ⟨x, hx, hloc⟩ | ⟨t, ht, hmember⟩
      · exact .inl ⟨x, List.mem_cons_of_mem _ hx, hloc⟩
      · exact .inr ⟨t, (Member.holds_cons_iff m row t).mpr (.inr ht), hmember⟩

end

/-- What the rules are asked about is located in the text. -/
theorem isOf_of_mem_listingAll {file : Path} {text : String} {d : Declaration}
    (h : d ∈ TypeDeclaration.listingAll (extract file text).types) : d.location.IsOf text := by
  obtain ⟨top, htop, hd⟩ := List.mem_flatMap.mp h
  rcases exists_member_of_mem_listingAll top.members hd with ⟨x, hx, hloc⟩ | ⟨t, ht, x, hx, hloc⟩
  · rw [← hloc]
    exact (isPlacedIn_extract file text top ⟨top, htop, .inl rfl⟩).members x hx
  · rw [← hloc]
    exact (isPlacedIn_extract file text t ⟨top, htop, .inr ht⟩).members x hx

end Source

namespace Analysis

variable {a : Analysis} {t : FileTree} {r : Report}

end Analysis

end AggregateAudit
