import AggregateAudit.Proofs.Utf8
import AggregateAudit.Proofs.WellNamed

/-!
# Which paths name source files

Whether a path names a source file is found out in two steps: the path is cut into components, of
which the last one may be a name, and the name is searched for its last point.  This file says
what comes of it in terms of the path alone (`isSourceFile_iff_exists`): in front a directory,
which is nothing or ends with a slash, then a name with `.cs` behind it, then what says nothing,
slashes and `/.` in any number.

The two steps have one statement each.  The steps of a path end in the component of a name exactly
if the path ends in this name (`Path.getLast?_steps_eq_some_iff`), where `Path.EndsIn` allows what
says nothing behind it; and an extension is what follows the last point, with something in front
of that (`Path.extensionOf?_eq_some_iff`).
-/

namespace AggregateAudit
namespace Path

/-! ## Extensions -/

/-- The extension of a name follows its last point, which must not be the first character. -/
theorem extensionOf?_eq_some_iff {name ext : List UInt8} :
    extensionOf? name = some ext
      ↔ point ∉ ext ∧ ∃ stem, stem ≠ [] ∧ name = stem ++ point :: ext := by
  rw [extensionOf?]
  constructor
  · intro h
    have hsplit : name = (name.reverse.dropWhile (· ≠ point)).reverse
        ++ (name.reverse.takeWhile (· ≠ point)).reverse := by
      rw [← List.reverse_append, List.takeWhile_append_dropWhile, List.reverse_reverse]
    have hafter : point ∉ name.reverse.takeWhile (· ≠ point) := fun hpoint =>
      of_decide_eq_true (List.all_eq_true.mp List.all_takeWhile point hpoint) rfl
    have hhead := List.head?_dropWhile_not (· ≠ point) name.reverse
    generalize name.reverse.takeWhile (· ≠ point) = after at h hsplit hafter
    generalize name.reverse.dropWhile (· ≠ point) = before at h hsplit hhead
    match before with
    | [] => cases h
    | [c] => cases h
    | c :: d :: before =>
      cases h
      have hc : c = point := by simpa using hhead
      exact ⟨by simpa using hafter, (d :: before).reverse, by simp, by simpa [hc] using hsplit⟩
  · rintro ⟨hext, stem, hstem, rfl⟩
    have hall : ∀ c ∈ ext.reverse, decide (c ≠ point) = true := fun c hc =>
      decide_eq_true fun hpoint => hext (List.mem_reverse.mp (hpoint ▸ hc))
    have hreverse : (stem ++ point :: ext).reverse = ext.reverse ++ point :: stem.reverse := by simp
    have hafter : (ext.reverse ++ point :: stem.reverse).takeWhile (· ≠ point) = ext.reverse := by
      rw [List.takeWhile_append_of_pos hall]
      simp
    have hbefore : (ext.reverse ++ point :: stem.reverse).dropWhile (· ≠ point) =
        point :: stem.reverse := by
      rw [List.dropWhile_append_of_pos hall]
      simp
    rw [hreverse, hafter, hbefore]
    cases hlast : stem.reverse with
    | nil => exact absurd (List.reverse_eq_nil_iff.mp hlast) hstem
    | cons last front => rw [List.reverse_reverse]

/-! ## The last step -/

namespace Component

/-- Two pieces say nothing: the empty one and the point. -/
theorem ofPiece?_eq_none_iff {piece : List UInt8} :
    ofPiece? piece = none ↔ piece = [] ∨ piece = [point] := by
  rw [ofPiece?]
  split
  · simp_all
  · split <;> simp_all

/-- Any other piece stands for itself, apart from two points. -/
theorem ofPiece?_eq_normal_iff {piece name : List UInt8} :
    ofPiece? piece = some (normal name) ↔
      piece = name ∧ name ≠ [] ∧ name ≠ [point] ∧ name ≠ [point, point] := by
  rw [ofPiece?]
  split
  · next h =>
    simp only [reduceCtorEq, false_iff]
    rintro ⟨rfl, hnil, hpoint, -⟩
    exact h.elim hnil hpoint
  · next h =>
    split
    · next hpoints =>
      simp only [Option.some.injEq, reduceCtorEq, false_iff]
      rintro ⟨rfl, -, -, hne⟩
      exact hne hpoints
    · next hpoints =>
      simp only [Option.some.injEq, normal.injEq, iff_self_and]
      rintro rfl
      exact ⟨fun hnil => h (.inl hnil), fun hpoint => h (.inr hpoint), hpoints⟩

end Component

/-- What a path begins with is no name. -/
theorem ne_normal_of_mem_lead {pieces : List (List UInt8)} {c : Component} (h : c ∈ lead pieces)
    (name : List UInt8) : c ≠ .normal name := by
  cases pieces with
  | nil => cases h
  | cons piece rest =>
    rw [lead] at h
    split at h
    · cases List.mem_singleton.mp h
      simp
    · split at h
      · cases List.mem_singleton.mp h
        simp
      · cases h

/-- The name of the file is the last step, if that is a name. -/
theorem fileName?_eq_some_iff {p : Path} {name : List UInt8} :
    fileName? p = some name ↔ (steps p).getLast? = some (.normal name) := by
  have hlast : fileName? p = some name ↔ (components p).getLast? = some (.normal name) := by
    unfold fileName?
    split
    · next h => simp [h]
    · next h => simpa using h name
  rw [hlast, components_eq, List.getLast?_append]
  cases h : (steps p).getLast? with
  | some c => simp
  | none =>
    simp only [Option.none_or, reduceCtorEq, iff_false]
    exact fun hlead => ne_normal_of_mem_lead (List.mem_of_getLast? hlead) name rfl

end Path

@[simp] theorem Path.bytes_extension :
    (Path.ofString ".cs").bytes = Path.point :: Utf8.encode "cs" := by decide

/-- A path names a source file if its last step is a name that ends with `.cs` and has something
in front of that. -/
theorem isSourceFile_iff_getLast?_steps {p : Path} :
    isSourceFile p = true ↔ ∃ stem, stem ≠ [] ∧
      (Path.steps p).getLast? = some (.normal (stem ++ Path.point :: Utf8.encode "cs")) := by
  rw [isSourceFile, decide_eq_true_eq, Path.extension?, Option.bind_eq_some_iff]
  simp only [Path.fileName?_eq_some_iff, Path.extensionOf?_eq_some_iff]
  constructor
  · rintro ⟨_, hlast, -, stem, hstem, rfl⟩
    exact ⟨stem, hstem, hlast⟩
  · rintro ⟨stem, hstem, hlast⟩
    exact ⟨_, hlast, by decide, stem, hstem, rfl⟩

namespace Path

/-! ## What says nothing at the end of a path -/

/-- Slashes and `/.` in any number and order. -/
inductive IsIdle : List UInt8 → Prop where
  | nil : IsIdle []
  | slash {s : List UInt8} (h : IsIdle s) : IsIdle (slash :: s)
  | here {s : List UInt8} (h : IsIdle s) : IsIdle (slash :: point :: s)

/-- What says nothing adds no step. -/
theorem steps_append_idle {base s : Path} (h : IsIdle s.bytes) :
    steps (base ++ s) = steps base := by
  generalize hs : s.bytes = cs at h
  induction h generalizing base s with
  | nil =>
    cases eq_empty_iff.mpr hs
    rw [append_empty]
  | @slash rest _ ih =>
    have hsplit : base ++ s = base ++ "/" ++ "" ++ ⟨rest⟩ := Path.ext (by simp [hs])
    rw [hsplit, ih rfl, steps_append_slash, steps_empty, List.append_nil]
  | @here rest _ ih =>
    have hsplit : base ++ s = base ++ "/" ++ "." ++ ⟨rest⟩ := Path.ext (by simp [hs])
    have hpoint : steps "." = [] := by decide
    rw [hsplit, ih rfl, steps_append_slash, hpoint, List.append_nil]

/-- Pieces that stand for no step are idle with a slash in front of each. -/
theorem isIdle_flatMap {pieces : List (List UInt8)}
    (h : ∀ piece ∈ pieces, Component.ofPiece? piece = none) :
    IsIdle (pieces.flatMap (slash :: ·)) := by
  induction pieces with
  | nil => exact .nil
  | cons piece pieces ih =>
    obtain ⟨hpiece, hpieces⟩ := List.forall_mem_cons.mp h
    rcases Component.ofPiece?_eq_none_iff.mp hpiece with rfl | rfl
    · exact (ih hpieces).slash
    · exact (ih hpieces).here

/-! ## What a path ends in -/

/-- Whether a text can stand in front of a name: it is empty or ends with a slash. -/
def IsFront (q : Path) : Prop := q = "" ∨ q.bytes.getLast? = some slash

/-- A text without slashes is what a path ends in, apart from what says nothing. -/
structure EndsIn (p name : Path) : Prop where
  noSlash : slash ∉ name.bytes
  parts : ∃ q s : Path, IsFront q ∧ IsIdle s.bytes ∧ p = q ++ name ++ s

/-- Behind its front a path goes on as if it began there. -/
theorem steps_append_of_isFront {q : Path} (hq : IsFront q) (p : Path) :
    steps (q ++ p) = steps q ++ steps p := by
  rcases hq with rfl | hq
  · rw [empty_append, steps_empty, List.nil_append]
  · obtain ⟨front, rfl⟩ := exists_append_slash_of_getLast? hq
    have hfront := steps_append_slash front ""
    rw [append_empty, steps_empty, List.append_nil] at hfront
    rw [steps_append_slash, hfront]

/-- A row of bytes without slashes is one piece. -/
theorem steps_of_noSlash {name : Path} (h : slash ∉ name.bytes) :
    steps name = (Component.ofPiece? name.bytes).toList := by
  rw [steps, List.splitOn_eq_singleton h]
  cases hstep : Component.ofPiece? name.bytes with
  | none => rw [List.filterMap_cons_none hstep]; rfl
  | some c => rw [List.filterMap_cons_some hstep]; rfl

/-- **The last step of a path is what the path ends in.** -/
theorem getLast?_steps_eq_some_iff {p : Path} {c : Component} :
    (steps p).getLast? = some c ↔
      ∃ name, EndsIn p name ∧ Component.ofPiece? name.bytes = some c := by
  constructor
  · intro h
    rw [steps, List.getLast?_filterMap, List.findSome?_eq_some_iff] at h
    obtain ⟨idle, piece, front, hpieces, hstep, hidle⟩ := h
    replace hpieces : p.bytes.splitOn slash = front.reverse ++ piece :: idle.reverse := by
      rw [← List.reverse_reverse (List.splitOn _ _), hpieces]
      simp
    have hpiece : slash ∉ piece := Text.notMem_of_mem_splitOn (s := p.bytes) (by simp [hpieces])
    -- the path with a slash in front is its pieces with a slash in front of each
    have hp := Text.cons_eq_flatMap_splitOn slash p.bytes
    rw [hpieces, List.flatMap_append, List.flatMap_cons] at hp
    have hend : IsIdle (idle.reverse.flatMap (slash :: ·)) :=
      isIdle_flatMap fun x hx => hidle x (List.mem_reverse.mp hx)
    refine ⟨⟨piece⟩, ⟨hpiece, ?_⟩, hstep⟩
    cases hfront : front.reverse.flatMap (slash :: ·) with
    | nil =>
      rw [hfront, List.nil_append, List.cons_append, List.cons.injEq] at hp
      exact ⟨"", ⟨idle.reverse.flatMap (slash :: ·)⟩, .inl rfl, hend, Path.ext (by simp [hp.2])⟩
    | cons first before =>
      rw [hfront, List.cons_append, List.cons_append, List.cons.injEq] at hp
      exact ⟨⟨before ++ [slash]⟩, ⟨idle.reverse.flatMap (slash :: ·)⟩, .inr (by simp), hend,
        Path.ext (by simp [hp.2])⟩
  · rintro ⟨name, ⟨hname, q, s, hq, hs, rfl⟩, hc⟩
    rw [steps_append_idle hs, steps_append_of_isFront hq, steps_of_noSlash hname, hc]
    simp

/-- Names that come near to that of a source file. -/
inductive IsNearMiss : Path → Prop where
  /-- A hidden file with nothing in front of the point. -/
  | hidden : IsNearMiss ".cs"
  /-- One more point behind the extension. -/
  | point (n : Path) : IsNearMiss (n ++ ".cs.")
  /-- The extension in other letters. -/
  | letters (n : Path) {ext : String} (hne : ext ≠ "cs")
      (h : Text.eqIgnoringCase ext "cs" = true) : IsNearMiss (n ++ "." ++ ext)
  /-- The directory above. -/
  | parent : IsNearMiss ".."

end Path

/-! ## Source files -/

/-- What a path ends in decides, if it is long enough to be a step in any case. -/
theorem Path.EndsIn.isSourceFile_iff {p name : Path} (h : EndsIn p name)
    (hlong : 1 < name.bytes.length) :
    isSourceFile p = true ↔ ∃ stem : Path, stem ≠ "" ∧ name = stem ++ ".cs" := by
  obtain ⟨c, hc⟩ : ∃ c, Component.ofPiece? name.bytes = some c := by
    rw [← Option.ne_none_iff_exists', ne_eq, Component.ofPiece?_eq_none_iff]
    rintro (heq | heq) <;> simp [heq] at hlong
  have hlast : (steps p).getLast? = some c := getLast?_steps_eq_some_iff.mpr ⟨name, h, hc⟩
  rw [isSourceFile_iff_getLast?_steps]
  simp only [hlast, ← hc, Component.ofPiece?_eq_normal_iff]
  constructor
  · rintro ⟨stem, hstem, hname, -⟩
    exact ⟨⟨stem⟩, fun heq => hstem (congrArg Path.bytes heq), Path.ext (by simpa using hname)⟩
  · rintro ⟨stem, hstem, rfl⟩
    have hlength : 0 < stem.bytes.length :=
      List.length_pos_iff.mpr fun heq => hstem (eq_empty_iff.mpr heq)
    have hcs : (Utf8.encode "cs").length = 2 := by decide
    refine ⟨stem.bytes, List.length_pos_iff.mp hlength, by simp, ?_, ?_, ?_⟩ <;>
    · intro heq
      have := congrArg List.length heq
      simp [hcs] at this

namespace Text

/-- A character with a given small letter is that letter or its capital. -/
theorem eq_or_eq_of_toLower {c small capital : Char} (hcapital : small.val = capital.val + 32)
    (h : c.toLower = small) : c = small ∨ c = capital := by
  by_cases hletter : 'A'.val ≤ c.val ∧ c.val ≤ 'Z'.val
  · right
    have hlower : c.toLower.val = c.val + 32 := congrArg Char.val (dif_pos hletter)
    have hval : c.val + 32 = capital.val + 32 := by rw [← hlower, h, hcapital]
    exact Char.ext ((UInt32.add_left_inj 32).mp hval)
  · left
    have hsame : c.toLower = c := dif_neg hletter
    exact hsame.symm.trans h

/-- The letters in which an extension comes near to that of a source file. -/
theorem mem_of_eqIgnoringCase {ext : String} (h : eqIgnoringCase ext "cs" = true) :
    ext ∈ ["cs", "cS", "Cs", "CS"] := by
  have hlower : ext.toList.map Char.toLower = ['c', 's'] := beq_iff_eq.mp h
  obtain ⟨c, rest, hext, hc, hrest⟩ := List.map_eq_cons_iff.mp hlower
  obtain ⟨d, last, rfl, hd, hlast⟩ := List.map_eq_cons_iff.mp hrest
  cases List.map_eq_nil_iff.mp hlast
  rw [← String.ofList_toList (s := ext), hext]
  rcases eq_or_eq_of_toLower (by decide : 'c'.val = 'C'.val + 32) hc with rfl | rfl <;>
  rcases eq_or_eq_of_toLower (by decide : 's'.val = 'S'.val + 32) hd with rfl | rfl <;>
  decide

end Text

theorem Path.IsNearMiss.one_lt_length {name : Path} (h : IsNearMiss name) :
    1 < name.bytes.length := by
  cases h with
  | hidden => decide
  | point n =>
    have hlength : (ofString ".cs.").bytes.length = 4 := by decide
    rw [bytes_append, List.length_append, hlength]
    omega
  | letters n hne h =>
    have hlength : ∀ ext ∈ ["cs", "cS", "Cs", "CS"], (ofString ext).bytes.length = 2 := by decide
    rw [bytes_append, List.length_append, hlength _ (Text.mem_of_eqIgnoringCase h)]
    simp
  | parent => decide

/-- No near miss has the name of a source file. -/
theorem Path.IsNearMiss.ne_source {name : Path} (h : IsNearMiss name) {stem : Path}
    (hstem : stem ≠ "") : name ≠ stem ++ ".cs" := by
  intro heq
  replace heq := congrArg Path.bytes heq
  rw [bytes_append] at heq
  have hlast : ∀ {s t : List UInt8}, s ++ (ofString ".cs").bytes = t →
      t.getLast? = some 115 := by
    rintro s t rfl
    have hend : (ofString ".cs").bytes.getLast? = some 115 := by decide
    rw [List.getLast?_append, hend]
    rfl
  cases h with
  | hidden =>
    exact hstem (eq_empty_iff.mpr (List.self_eq_append_left.mp heq))
  | point n =>
    have hpoint := hlast heq.symm
    have hend : (ofString ".cs.").bytes.getLast? = some Path.point := by decide
    rw [bytes_append, List.getLast?_append, hend] at hpoint
    exact absurd (Option.some.inj hpoint) (by decide)
  | @letters n ext hne h =>
    have hsplit : (n ++ ".").bytes ++ (ofString ext).bytes =
        (stem ++ ".").bytes ++ (ofString "cs").bytes := by
      rw [← bytes_append, heq]
      simp
      rfl
    have hlength : ∀ ext ∈ ["cs", "cS", "Cs", "CS"],
        (ofString ext).bytes.length = (ofString "cs").bytes.length := by decide
    exact hne (Utf8.encode_injective (List.append_inj_right' hsplit
      (hlength ext (Text.mem_of_eqIgnoringCase h))))
  | parent =>
    have hparent := hlast heq.symm
    exact absurd hparent (by decide)

/-- **The paths of source files are a language.**  A path names a source file exactly if it
is a front, which is empty or ends with a slash, a name that is not empty and has no slash, `.cs`,
and a row of slashes and `/.`.  Hidden files with nothing in front of the point are none, nor are
files with one more point behind the extension or with an extension in other letters, nor what
ends with `/..`.  Slashes and `/.` make no difference, at the end or in front of a slash. -/
theorem isSourceFile_iff_exists (p : Path) :
    (isSourceFile p = true ↔ ∃ q n s : Path, (q = "" ∨ q.bytes.getLast? = some Path.slash)
        ∧ n ≠ "" ∧ Path.slash ∉ n.bytes ∧ Path.IsIdle s.bytes ∧ p = q ++ n ++ ".cs" ++ s)
      ∧ (∀ name, Path.EndsIn p name → Path.IsNearMiss name → isSourceFile p = false)
      ∧ ∀ s : Path, Path.IsIdle s.bytes → isSourceFile (p ++ s) = isSourceFile p
        ∧ ∀ r, isSourceFile (p ++ s ++ "/" ++ r) = isSourceFile (p ++ "/" ++ r) := by
  have hsteps {a b : Path} (h : Path.steps a = Path.steps b) :
      isSourceFile a = isSourceFile b := by
    rw [Bool.eq_iff_iff, isSourceFile_iff_getLast?_steps, isSourceFile_iff_getLast?_steps, h]
  have hextension : Path.slash ∉ (Path.ofString ".cs").bytes := by decide
  refine ⟨⟨?_, ?_⟩, ?_, ?_⟩
  · intro h
    obtain ⟨stem, hstem, hlast⟩ := isSourceFile_iff_getLast?_steps.mp h
    obtain ⟨name, ⟨hslash, q, s, hq, hs, rfl⟩, hname⟩ := Path.getLast?_steps_eq_some_iff.mp hlast
    have hsplit : name = ⟨stem⟩ ++ ".cs" :=
      Path.ext (by simp [(Path.Component.ofPiece?_eq_normal_iff.mp hname).1])
    refine ⟨q, ⟨stem⟩, s, hq, fun heq => hstem (congrArg Path.bytes heq), ?_, hs, ?_⟩
    · rw [hsplit, Path.bytes_append, List.mem_append, not_or] at hslash
      exact hslash.1
    · rw [hsplit, ← Path.append_assoc]
  · rintro ⟨q, n, s, hq, hn, hslash, hs, rfl⟩
    have hends : Path.EndsIn (q ++ n ++ ".cs" ++ s) (n ++ ".cs") := by
      refine ⟨?_, q, s, hq, hs, by rw [← Path.append_assoc]⟩
      rw [Path.bytes_append, List.mem_append, not_or]
      exact ⟨hslash, hextension⟩
    have hlong : 1 < (n ++ ".cs" : Path).bytes.length := by
      have hlength : (Path.ofString ".cs").bytes.length = 3 := by decide
      rw [Path.bytes_append, List.length_append, hlength]
      omega
    exact (hends.isSourceFile_iff hlong).mpr ⟨n, hn, rfl⟩
  · intro name hends hmiss
    rw [Bool.eq_false_iff, ne_eq, hends.isSourceFile_iff hmiss.one_lt_length]
    rintro ⟨stem, hstem, heq⟩
    exact hmiss.ne_source hstem heq
  · intro s hs
    refine ⟨hsteps (Path.steps_append_idle hs), fun r => hsteps ?_⟩
    rw [Path.steps_append_slash, Path.steps_append_slash, Path.steps_append_idle hs]

/-- An extension in capitals, and a directory in front. -/
theorem isSourceFile_iff_exists_of_capitals :
    let p : Path := "src/Order.CS"
    (Path.EndsIn p "Order.CS" ∧ Path.IsNearMiss "Order.CS"
        ∧ Path.IsIdle (Path.ofString "/./").bytes)
      ∧ isSourceFile p = false
      ∧ isSourceFile (p ++ "/./") = false
      ∧ isSourceFile ("src" ++ "/./" ++ "/" ++ "Order.cs") = true := by
  intro p
  have hends : Path.EndsIn p "Order.CS" :=
    ⟨by decide, "src/", "", .inr (by decide), .nil, by decide⟩
  have hmiss : Path.IsNearMiss "Order.CS" :=
    .letters "Order" (by decide) (by decide : Text.eqIgnoringCase "CS" "cs" = true)
  have hidle : Path.IsIdle (Path.ofString "/./").bytes := Path.IsIdle.nil.slash.here
  obtain ⟨-, hreject, htrail⟩ := isSourceFile_iff_exists p
  have hno := hreject "Order.CS" hends hmiss
  have hplain := (isSourceFile_iff_exists "src/Order.cs").1.mpr
    ⟨"src/", "Order", "", .inr (by decide), by decide, by decide, .nil, by decide⟩
  refine ⟨⟨hends, hmiss, hidle⟩, hno, (htrail "/./" hidle).1.trans hno, ?_⟩
  exact (((isSourceFile_iff_exists "src").2.2 "/./" hidle).2 "Order.cs").trans hplain

end AggregateAudit
