import AggregateAudit.Proofs.Placement
import AggregateAudit.Proofs.PreOrder
import AggregateAudit.Proofs.TextKept
import Mathlib.Data.List.Induction

/-!
# Where declarations stand in the bytes of a text

A location is four numbers, and the walk that finds declarations computes them by
counting characters on its way.  This file says what the numbers are in terms of the
bytes of the text alone: where the span begins and ends, how many line feeds come before
it, and how far it is from the last one of them (`Location.IsOf`).

Three facts come together.  The tree has the characters of the text, so the characters
to the left of a node are a beginning of the text (`chars_parse`).  Counting characters
is counting bytes, because a character of several bytes holds no byte that is a line feed
(`eq_newline_of_mem_encoding`).  And the walk takes the nodes of a type's braces from left
to right, so what it finds in one node lies between the start of that node and the start
of the next one (`ArePlacedBetween`, carried along the walk by `Node.walk_induction`).

Conditional directives need no care here.  A member found inside one lies between the
start and the end of the directive, and that is all that is said of it on the way up.
-/

namespace AggregateAudit

/-! ## Bytes -/

/-- The bytes of a row of characters. -/
def Text.bytesOf (cs : List Char) : List UInt8 := cs.flatMap String.utf8EncodeChar

namespace Text

theorem bytesOf_append (cs ds : List Char) : bytesOf (cs ++ ds) = bytesOf cs ++ bytesOf ds :=
  List.flatMap_append

/-- The bytes of a text are those of its characters. -/
theorem bytesOf_toList (s : String) : bytesOf s.toList = s.toUTF8.data.toList := by
  rw [String.toUTF8_eq_toByteArray, ← String.utf8Encode_toList, List.utf8Encode]
  simp [bytesOf]

theorem length_bytesOf_toList (s : String) : (bytesOf s.toList).length = s.utf8ByteSize := by
  rw [bytesOf_toList, ← String.size_toByteArray, ByteArray.size]
  simp

/-- Only a line feed is written with the byte of a line feed: every byte of a longer
encoding has its highest bit set. -/
theorem eq_newline_of_mem_encoding {c : Char} (h : (10 : UInt8) ∈ String.utf8EncodeChar c) :
    c = '\n' := by
  have hten : ∀ n : Nat, n % 256 ≠ 10 → (10 : UInt8) ≠ UInt8.ofNat n := by
    intro n hn heq
    have hnat := congrArg UInt8.toNat heq
    exact hn (by simpa using hnat.symm)
  unfold String.utf8EncodeChar at h
  dsimp only at h
  split at h
  · by_contra hc
    refine hten _ ?_ (List.mem_singleton.mp h)
    have hne : c.val.toNat ≠ 10 := fun h10 => hc (Char.ext (UInt32.toNat_inj.mp h10))
    omega
  · exfalso
    split at h
    · simp only [List.mem_cons, List.not_mem_nil, or_false] at h
      rcases h with h | h <;> exact hten _ (by omega) h
    · split at h
      · simp only [List.mem_cons, List.not_mem_nil, or_false] at h
        rcases h with h | h | h <;> exact hten _ (by omega) h
      · simp only [List.mem_cons, List.not_mem_nil, or_false] at h
        rcases h with h | h | h | h <;> exact hten _ (by omega) h

end Text

/-! ## Locations in a text -/

/-- What the numbers of a location are in a text. -/
structure Location.IsOf (source : String) (l : Location) : Prop where
  /-- The span lies in the text. -/
  fits : l.offset + l.length ≤ source.utf8ByteSize
  /-- The span begins where a character does. -/
  start_valid : String.Pos.Raw.IsValid source ⟨l.offset⟩
  /-- The span ends where a character does. -/
  stop_valid : String.Pos.Raw.IsValid source ⟨l.offset + l.length⟩
  /-- Lines are counted from one, and each line feed in front of the span begins one. -/
  line_eq : l.line = 1 + (source.toUTF8.data.toList.take l.offset).count 10
  /-- Columns are counted from one, in bytes, from behind the last line feed in front of
  the span or from the start of the text. -/
  column_eq : l.column =
    1 + ((source.toUTF8.data.toList.take l.offset).reverse.takeWhile (· ≠ 10)).length

/-- Whether a span lies inside another one. -/
def Location.IsInside (x y : Location) : Prop :=
  y.offset ≤ x.offset ∧ x.offset + x.length ≤ y.offset + y.length

/-- Whether a span ends before another one begins. -/
def Location.EndsBefore (x y : Location) : Prop := x.offset + x.length ≤ y.offset

/-- The place of a member in the text. -/
def Member.location : Member → Location
  | .constructor c => c.location
  | .method m => m.location
  | .type header _ => header.location

/-- What is said of a type about places: its own location and those of its members are
locations of the text, the members lie inside the type, and they come one after the
other as they are listed. -/
structure TypeDeclaration.IsPlacedIn (source : String) (t : TypeDeclaration) : Prop where
  header : t.header.location.IsOf source
  members : ∀ m ∈ t.members, m.location.IsOf source
  inside : ∀ m ∈ t.members, m.location.IsInside t.header.location
  apart : t.members.Pairwise fun m n => m.location.EndsBefore n.location

namespace Source

/-! ## Places are counted in bytes -/

namespace Position

/-- The place behind a beginning of a text. -/
def behind (front : List Char) : Position := front.foldl step {}

theorem behind_append (front cs : List Char) :
    behind (front ++ cs) = cs.foldl step (behind front) :=
  List.foldl_append

theorem offset_behind (front : List Char) :
    (behind front).offset = (Text.bytesOf front).length := by
  induction front using List.reverseRecOn with
  | nil => rfl
  | append_singleton front c ih =>
    rw [behind_append, Text.bytesOf_append, List.length_append, ← ih]
    simp only [List.foldl_cons, List.foldl_nil, step, Text.bytesOf, List.flatMap_cons,
      List.flatMap_nil, List.append_nil, String.length_utf8EncodeChar]
    split
    · next h => rw [h]; rfl
    · rfl

theorem line_behind (front : List Char) :
    (behind front).line = 1 + (Text.bytesOf front).count 10 := by
  induction front using List.reverseRecOn with
  | nil => rfl
  | append_singleton front c ih =>
    rw [behind_append, Text.bytesOf_append, List.count_append]
    simp only [List.foldl_cons, List.foldl_nil, step, Text.bytesOf, List.flatMap_cons,
      List.flatMap_nil, List.append_nil]
    split
    · next h =>
      have hone : (String.utf8EncodeChar '\n').count 10 = 1 := by decide
      rw [h, hone, ih, Nat.add_assoc]
      rfl
    · next h =>
      have hzero : (String.utf8EncodeChar c).count 10 = 0 :=
        List.count_eq_zero.mpr fun hc => h (Text.eq_newline_of_mem_encoding hc)
      rw [hzero, ih]
      rfl

theorem column_behind (front : List Char) :
    (behind front).column = 1 + ((Text.bytesOf front).reverse.takeWhile (· ≠ 10)).length := by
  induction front using List.reverseRecOn with
  | nil => rfl
  | append_singleton front c ih =>
    rw [behind_append, Text.bytesOf_append, List.reverse_append]
    simp only [List.foldl_cons, List.foldl_nil, step]
    split
    · next h =>
      have hone : Text.bytesOf ['\n'] = [10] := by decide
      rw [h, hone]
      rfl
    · next h =>
      -- none of the bytes of `c` is a line feed, so all of them are counted
      have hbytes : Text.bytesOf [c] = String.utf8EncodeChar c := by simp [Text.bytesOf]
      have hall : ∀ b ∈ (String.utf8EncodeChar c).reverse, decide (b ≠ 10) = true := by
        intro b hb
        refine decide_eq_true ?_
        rintro rfl
        exact h (Text.eq_newline_of_mem_encoding (List.mem_reverse.mp hb))
      rw [hbytes, List.takeWhile_append_of_pos hall, List.length_append, List.length_reverse,
        String.length_utf8EncodeChar]
      dsimp only
      rw [ih]
      omega

mutual

/-- The place behind a tree is the place behind its characters. -/
theorem past_eq_foldl (p : Position) (n : Node) : p.past n = n.chars.foldl step p := by
  match n with
  | .leaf k t => rw [past, advance, Node.chars_leaf]
  | .branch k cs => rw [past, pastAll_eq_foldl p cs, Node.chars_branch]

theorem pastAll_eq_foldl (p : Position) (cs : List Node) :
    p.pastAll cs = (Node.charsAll cs).foldl step p := by
  match cs with
  | [] => rfl
  | c :: cs =>
    rw [pastAll, past_eq_foldl p c, pastAll_eq_foldl _ cs, Node.charsAll_cons, List.foldl_append]

end

theorem past_behind (front : List Char) (n : Node) :
    (behind front).past n = behind (front ++ n.chars) := by
  rw [past_eq_foldl, behind_append]

/-- What is appended only moves the offset on. -/
theorem offset_behind_le (front cs : List Char) :
    (behind front).offset ≤ (behind (front ++ cs)).offset := by
  rw [offset_behind, offset_behind, Text.bytesOf_append, List.length_append]
  exact Nat.le_add_right _ _

/-- The end of the span of a tree. -/
theorem stop_locate (front : List Char) (file : Path) (n : Node) :
    ((behind front).locate file n).offset + ((behind front).locate file n).length =
      (behind (front ++ n.chars)).offset := by
  have h := offset_behind_le front n.chars
  simp only [locate, past_behind]
  omega

/-- A place between two characters of a text is a position of it. -/
theorem isValid_behind {source : String} {front rest : List Char}
    (h : source.toList = front ++ rest) :
    String.Pos.Raw.IsValid source ⟨(behind front).offset⟩ := by
  rw [String.Pos.Raw.isValid_iff_exists_append]
  refine ⟨String.ofList front, String.ofList rest, ?_, ?_⟩
  · apply String.toList_injective
    simp [h]
  · apply String.Pos.Raw.ext
    rw [offset_behind, String.byteIdx_rawEndPos, ← Text.length_bytesOf_toList,
      String.toList_ofList]

/-- **The location of a node has the numbers of the text**, if what is to the left of the
node and the node itself are a beginning of the text. -/
theorem isOf_locate {source : String} {front rest : List Char} {n : Node}
    (h : source.toList = front ++ n.chars ++ rest) (file : Path) :
    ((behind front).locate file n).IsOf source := by
  have hstop := stop_locate front file n
  have hbytes : source.toUTF8.data.toList.take (behind front).offset = Text.bytesOf front := by
    rw [← Text.bytesOf_toList, h, List.append_assoc, Text.bytesOf_append, offset_behind]
    exact List.take_left
  have hfront : source.toList = front ++ (n.chars ++ rest) := by rw [h, List.append_assoc]
  constructor
  · rw [hstop, offset_behind, ← Text.length_bytesOf_toList, h, Text.bytesOf_append _ rest,
      List.length_append]
    exact Nat.le_add_right _ _
  · exact isValid_behind hfront
  · rw [hstop]
    exact isValid_behind h
  · exact (line_behind front).trans (by rw [← hbytes]; rfl)
  · exact (column_behind front).trans (by rw [← hbytes]; rfl)

end Position

/-! ## Members between two offsets -/

/-- What the walk says of the members that it finds between two offsets. -/
structure ArePlacedBetween (source : String) (low high : Nat) (ms : List Member) : Prop where
  isOf : ∀ m ∈ ms, m.location.IsOf source
  low_le : ∀ m ∈ ms, low ≤ m.location.offset
  le_high : ∀ m ∈ ms, m.location.offset + m.location.length ≤ high
  apart : ms.Pairwise fun m n => m.location.EndsBefore n.location
  nested : ∀ t, Member.Holds ms t → t.IsPlacedIn source

theorem arePlacedBetween_nil (source : String) (low high : Nat) :
    ArePlacedBetween source low high [] where
  isOf _ h := absurd h List.not_mem_nil
  low_le _ h := absurd h List.not_mem_nil
  le_high _ h := absurd h List.not_mem_nil
  apart := .nil
  nested t h := absurd h (Member.not_holds_nil t)

/-- A row holds what its two parts hold. -/
theorem Member.holds_append {ms ns : List Member} {t : TypeDeclaration}
    (h : Member.Holds (ms ++ ns) t) : Member.Holds ms t ∨ Member.Holds ns t := by
  cases h with
  | here h => exact (List.mem_append.mp h).imp .here .here
  | deeper h ht => exact (List.mem_append.mp h).imp (.deeper · ht) (.deeper · ht)

theorem ArePlacedBetween.append {source : String} {low middle high : Nat} {ms ns : List Member}
    (hms : ArePlacedBetween source low middle ms) (hns : ArePlacedBetween source middle high ns)
    (hlow : low ≤ middle) (hhigh : middle ≤ high) :
    ArePlacedBetween source low high (ms ++ ns) where
  isOf m hm := (List.mem_append.mp hm).elim (hms.isOf m) (hns.isOf m)
  low_le m hm := (List.mem_append.mp hm).elim (hms.low_le m)
    fun h => Nat.le_trans hlow (hns.low_le m h)
  le_high m hm := (List.mem_append.mp hm).elim (fun h => Nat.le_trans (hms.le_high m h) hhigh)
    (hns.le_high m)
  apart := List.pairwise_append.mpr
    ⟨hms.apart, hns.apart, fun m hm n hn => Nat.le_trans (hms.le_high m hm) (hns.low_le n hn)⟩
  nested t h := (Member.holds_append h).elim (hms.nested t) (hns.nested t)

/-- More room does not hurt. -/
theorem ArePlacedBetween.mono {source : String} {low low' high high' : Nat} {ms : List Member}
    (h : ArePlacedBetween source low high ms) (hlow : low' ≤ low) (hhigh : high ≤ high') :
    ArePlacedBetween source low' high' ms where
  isOf := h.isOf
  low_le m hm := Nat.le_trans hlow (h.low_le m hm)
  le_high m hm := Nat.le_trans (h.le_high m hm) hhigh
  apart := h.apart
  nested := h.nested

/-- A single member that has its place, and in which everything has its place. -/
theorem arePlacedBetween_single {source : String} {low high : Nat} {m : Member}
    (hof : m.location.IsOf source) (hlow : low ≤ m.location.offset)
    (hhigh : m.location.offset + m.location.length ≤ high)
    (hnested : ∀ t, Member.Holds [m] t → t.IsPlacedIn source) :
    ArePlacedBetween source low high [m] where
  isOf n hn := by rwa [List.mem_singleton.mp hn]
  low_le n hn := by rwa [List.mem_singleton.mp hn]
  le_high n hn := by rwa [List.mem_singleton.mp hn]
  apart := List.pairwise_singleton _ _
  nested := hnested

section Walk

variable {source : String} (file : Path)

/-- A type whose members lie inside it has its place. -/
theorem isPlacedIn_of_locate {front rest : List Char} {k : TypeKind} {cs : List Node}
    {ms : List Member}
    (hsource : source.toList = front ++ (Node.branch (.typeDeclaration k) cs).chars ++ rest)
    (hms : ArePlacedBetween source (Position.behind front).offset
      (Position.behind (front ++ Node.charsAll cs)).offset ms) :
    TypeDeclaration.IsPlacedIn source
      ⟨headerOf file k (Position.behind front) (.branch (.typeDeclaration k) cs), ms⟩ where
  header := Position.isOf_locate hsource file
  members := hms.isOf
  inside m hm := by
    refine ⟨hms.low_le m hm, ?_⟩
    have hstop := Position.stop_locate front file (.branch (.typeDeclaration k) cs)
    rw [Node.chars_branch] at hstop
    exact Nat.le_trans (hms.le_high m hm) (Nat.le_of_eq hstop.symm)
  apart := hms.apart

/-- **What the walk through members finds has its place, from left to right.** -/
theorem arePlacedBetween_membersOf :
    (∀ n, ∀ owner front rest, source.toList = front ++ n.chars ++ rest →
        ArePlacedBetween source (Position.behind front).offset
          (Position.behind (front ++ n.chars)).offset
          (membersOf file owner (Position.behind front) n))
      ∧ (∀ cs, ∀ owner front rest, source.toList = front ++ Node.charsAll cs ++ rest →
        ArePlacedBetween source (Position.behind front).offset
          (Position.behind (front ++ Node.charsAll cs)).offset
          (membersOfAll file owner (Position.behind front) cs))
      ∧ ∀ cs, ∀ owner front rest, source.toList = front ++ Node.charsAll cs ++ rest →
        ArePlacedBetween source (Position.behind front).offset
          (Position.behind (front ++ Node.charsAll cs)).offset
          (bodyMembers file owner (Position.behind front) cs) := by
  apply Node.walk_induction
  case silent =>
    intro n hn hd owner front rest _
    rw [(placeMembers_of_silent file owner _ [] hn hd).2]
    exact arePlacedBetween_nil _ _ _
  case constructor =>
    intro cs owner front rest h
    rw [membersOf]
    exact arePlacedBetween_single (Position.isOf_locate h file) (Nat.le_refl _)
      (Nat.le_of_eq (Position.stop_locate front file _))
      fun t ht => absurd ht (Member.not_holds_of_ne_type (by simp) t)
  case method =>
    intro cs owner front rest h
    rw [membersOf]
    exact arePlacedBetween_single (Position.isOf_locate h file) (Nat.le_refl _)
      (Nat.le_of_eq (Position.stop_locate front file _))
      fun t ht => absurd ht (Member.not_holds_of_ne_type (by simp) t)
  case type =>
    intro k cs ih owner front rest h
    rw [membersOf]
    have hms := ih (Node.declaredName cs) front rest (by rwa [Node.chars_branch] at h)
    refine arePlacedBetween_single (Position.isOf_locate h file) (Nat.le_refl _)
      (Nat.le_of_eq (Position.stop_locate front file _)) ?_
    intro t ht
    rcases Member.holds_type_iff.mp ht with rfl | ht
    · exact isPlacedIn_of_locate file h hms
    · exact hms.nested t ht
  case directive =>
    intro k cs hk ih owner front rest h
    rw [(placeMembers_of_directive file owner _ [] hk).2, Node.chars_branch]
    exact ih owner front rest (by rwa [Node.chars_branch] at h)
  case nil => exact fun _ _ _ _ => arePlacedBetween_nil _ _ _
  case cons =>
    intro c cs ihc ihcs owner front rest h
    rw [Node.charsAll_cons, ← List.append_assoc] at h ⊢
    rw [membersOfAll, Position.past_behind]
    exact (ihc owner front (Node.charsAll cs ++ rest) (by rw [h]; simp)).append
      (ihcs owner (front ++ c.chars) rest h) (Position.offset_behind_le _ _)
      (Position.offset_behind_le _ _)
  case noBody => exact fun _ _ _ _ => arePlacedBetween_nil _ _ _
  case body =>
    intro inside cs ih owner front rest h
    rw [bodyMembers]
    rw [Node.charsAll_cons, Node.chars_branch, ← List.append_assoc] at h ⊢
    exact (ih owner front (Node.charsAll cs ++ rest) (by rw [h]; simp)).mono (Nat.le_refl _)
      (Position.offset_behind_le _ _)
  case skip =>
    intro c cs hc ih owner front rest h
    rw [Node.charsAll_cons, ← List.append_assoc] at h ⊢
    rw [(placeBody_of_ne file owner _ [] 0 hc cs).2, Position.past_behind]
    exact (ih owner (front ++ c.chars) rest h).mono (Position.offset_behind_le _ _) (Nat.le_refl _)

/-- The types that the walk finds, and everything inside them, have their place. -/
theorem isPlacedIn_typesOf :
    (∀ n : Node, ∀ front rest, source.toList = front ++ n.chars ++ rest →
        ∀ t : TypeDeclaration, t.IsIn (typesOf file (Position.behind front) n)
          → t.IsPlacedIn source)
      ∧ ∀ cs, ∀ front rest, source.toList = front ++ Node.charsAll cs ++ rest →
        ∀ t : TypeDeclaration, t.IsIn (typesOfAll file (Position.behind front) cs)
          → t.IsPlacedIn source := by
  apply Node.type_induction
  case leaf =>
    rintro k s front rest - t ⟨top, htop, -⟩
    rw [typesOf] at htop
    cases htop
  case type =>
    rintro k cs front rest h t ⟨top, htop, ht⟩
    rw [typesOf] at htop
    cases List.mem_singleton.mp htop
    have hms := (arePlacedBetween_membersOf file).2.2 cs (Node.declaredName cs) front rest
      (by rwa [Node.chars_branch] at h)
    rcases ht with rfl | ht
    · exact isPlacedIn_of_locate file h hms
    · exact hms.nested t ht
  case other =>
    intro k cs hk ih front rest h
    rw [(placeTypes_of_not_type file _ [] hk).2]
    exact ih front rest (by rwa [Node.chars_branch] at h)
  case nil =>
    rintro front rest - t ⟨top, htop, -⟩
    cases htop
  case cons =>
    rintro c cs ihc ihcs front rest h t ⟨top, htop, ht⟩
    rw [Node.charsAll_cons, ← List.append_assoc] at h
    rw [typesOfAll, Position.past_behind, List.mem_append] at htop
    rcases htop with htop | htop
    · exact ihc front (Node.charsAll cs ++ rest) (by rw [h]; simp) t ⟨top, htop, ht⟩
    · exact ihcs (front ++ c.chars) rest h t ⟨top, htop, ht⟩

end Walk

/-- **Every location of a text is right, whatever the text.**  For every type that is found
in it, at any depth: its location and those of its constructors, methods and nested types
have the numbers of the text, its members lie inside it, and they come one after the other
without overlapping. -/
theorem isPlacedIn_extract (file : Path) (source : String) (t : TypeDeclaration)
    (h : t.IsIn (extract file source).types) : t.IsPlacedIn source := by
  have hparse := chars_parse source
  have hroot : (parse source).chars = Node.charsAll (parse source).children := by
    rw [parse, Node.chars_branch]
    rfl
  exact (isPlacedIn_typesOf file).2 (parse source).children [] []
    (by rw [← hparse, hroot]; simp) t h

/-- A type inside a type, behind a byte order mark, with names of several bytes and members
that a conditional directive encloses. -/
theorem isPlacedIn_extract_nested :
    let source :=
      "\ufeffclass \u00c9 \x7b\n#if X\n class I \x7b I() \x7b \x7d void \u00c9(); \x7d\n#endif\n\x7d"
    ∃ t : TypeDeclaration, (t.IsIn (extract "a.cs" source).types ∧ t.name = "I")
      ∧ t.IsPlacedIn source := by
  intro source
  have hfound : ((extract "a.cs" source).types.any fun top => top.members.any fun m =>
      match m with
      | .type header _ => header.name = "I"
      | _ => false) = true := by decide +kernel
  obtain ⟨top, htop, hm⟩ := List.any_eq_true.mp hfound
  obtain ⟨m, hm, hname⟩ := List.any_eq_true.mp hm
  cases m with
  | constructor c => simp at hname
  | method x => simp at hname
  | type header members =>
    have hin : TypeDeclaration.IsIn ⟨header, members⟩ (extract "a.cs" source).types :=
      ⟨top, htop, .inr (.here hm)⟩
    exact ⟨⟨header, members⟩, ⟨hin, of_decide_eq_true hname⟩,
      isPlacedIn_extract "a.cs" source _ hin⟩

end Source
end AggregateAudit
