import AggregateAudit.Text.Utf8
import Mathlib.Algebra.Group.Nat.Defs
import Mathlib.Data.List.Basic

/-!
# Bytes that are text

What is read of bytes and what bytes are written for a text fit together.  The bytes of a text are
those of its characters in a row (`Utf8.encode_eq_flatMap`), different texts have different bytes,
and bytes are a text exactly if they are its bytes (`Utf8.decode?_eq_some_iff`).

The machine that reads bytes where it can is no exception: from between two characters it takes the
bytes of a character and stands between two characters again (`stretchesFrom_encodeChar`).  So what
is shown of a text is the text (`Utf8.lossy_encode`).

Of bytes that are no text something is lost, but never a line feed, and none is made up
(`Utf8.count_lossy`).  A line feed is a byte of its own, and no other character has it among its
bytes, because those that follow the first one are large.
-/

namespace AggregateAudit
namespace Utf8

/-! ## Encoding -/

theorem encode_eq_flatMap (s : String) : encode s = s.toList.flatMap String.utf8EncodeChar := by
  have h : s.toByteArray = s.toList.utf8Encode := String.utf8Encode_toList.symm
  rw [encode, String.toUTF8, h, List.utf8Encode, List.data_toByteArray]

/-- The bytes of a text, put together again. -/
theorem toByteArray_encode (s : String) : (⟨(encode s).toArray⟩ : ByteArray) = s.toByteArray := rfl

theorem encode_injective : Function.Injective encode := by
  intro s t h
  rw [← String.toByteArray_inj, ← toByteArray_encode, ← toByteArray_encode, h]

/-- **Bytes are a text exactly if they are its bytes.** -/
theorem decode?_eq_some_iff {bytes : List UInt8} {s : String} :
    decode? bytes = some s ↔ bytes = encode s := by
  rw [decode?, String.fromUTF8?]
  constructor
  · intro h
    split at h
    · cases h
      rfl
    · cases h
  · rintro rfl
    have hvalid : (⟨(encode s).toArray⟩ : ByteArray).IsValidUTF8 := s.isValidUTF8
    rw [dif_pos hvalid]
    rfl

theorem stretchesFrom_cons (state : Option Begun) (b : UInt8) (bytes : List UInt8) :
    stretchesFrom state (b :: bytes)
      = (step state b).1 ++ stretchesFrom (step state b).2 bytes := by
  cases state <;> rfl

/-- A byte within its bounds goes on with a character that has begun. -/
theorem stretchesFrom_next {s : Begun} {n : Nat} (hn : n < 256) (hlow : s.low ≤ n)
    (hhigh : n ≤ s.high) (bytes : List UInt8) :
    stretchesFrom (some s) (UInt8.ofNat n :: bytes) =
      match s.missing with
      | 0 => .char (Char.ofNat (s.value * 64 + n % 64)) :: stretchesFrom none bytes
      | missing + 1 =>
        stretchesFrom
          (some ⟨s.bytes ++ [UInt8.ofNat n], s.value * 64 + n % 64, missing, 0x80, 0xBF⟩)
          bytes := by
  have htoNat : (UInt8.ofNat n).toNat = n := UInt8.toNat_ofNat_of_lt' hn
  rw [stretchesFrom_cons, step, Begun.next]
  dsimp only
  rw [htoNat, if_pos (by simp [hlow, hhigh])]
  cases s.missing <;> rfl

/-- A byte that may begin a character begins it. -/
theorem stretchesFrom_start {n : Nat} {s : Begun}
    (h : start (UInt8.ofNat n) = ([], some s)) (bytes : List UInt8) :
    stretchesFrom none (UInt8.ofNat n :: bytes) = stretchesFrom (some s) bytes := by
  rw [stretchesFrom_cons, step, h]
  rfl

section Starts

variable {n : Nat}

theorem start_ofNat (hn : n < 256) :
    start (UInt8.ofNat n) =
      if n < 0x80 then ([.char (Char.ofNat n)], none)
      else if 0xC2 ≤ n && n ≤ 0xDF then ([], some ⟨[UInt8.ofNat n], n % 32, 0, 0x80, 0xBF⟩)
      else if 0xE0 ≤ n && n ≤ 0xEF then
        ([], some ⟨[UInt8.ofNat n], n % 16, 1, if n = 0xE0 then 0xA0 else 0x80,
          if n = 0xED then 0x9F else 0xBF⟩)
      else if 0xF0 ≤ n && n ≤ 0xF4 then
        ([], some ⟨[UInt8.ofNat n], n % 8, 2, if n = 0xF0 then 0x90 else 0x80,
          if n = 0xF4 then 0x8F else 0xBF⟩)
      else ([.broken [UInt8.ofNat n]], none) := by
  have htoNat : (UInt8.ofNat n).toNat = n := UInt8.toNat_ofNat_of_lt' hn
  simp only [start, htoNat]

theorem start_of_two (hlow : 0xC2 ≤ n) (hhigh : n ≤ 0xDF) :
    start (UInt8.ofNat n) = ([], some ⟨[UInt8.ofNat n], n % 32, 0, 0x80, 0xBF⟩) := by
  rw [start_ofNat (by omega), if_neg (by omega), if_pos (by simp [hlow, hhigh])]

theorem start_of_three (hlow : 0xE0 ≤ n) (hhigh : n ≤ 0xEF) :
    start (UInt8.ofNat n) =
      ([], some ⟨[UInt8.ofNat n], n % 16, 1, if n = 0xE0 then 0xA0 else 0x80,
        if n = 0xED then 0x9F else 0xBF⟩) := by
  rw [start_ofNat (by omega), if_neg (by omega), if_neg (by simp; omega),
    if_pos (by simp [hlow, hhigh])]

theorem start_of_four (hlow : 0xF0 ≤ n) (hhigh : n ≤ 0xF4) :
    start (UInt8.ofNat n) =
      ([], some ⟨[UInt8.ofNat n], n % 8, 2, if n = 0xF0 then 0x90 else 0x80,
        if n = 0xF4 then 0x8F else 0xBF⟩) := by
  rw [start_ofNat (by omega), if_neg (by omega), if_neg (by simp; omega), if_neg (by simp; omega),
    if_pos (by simp [hlow, hhigh])]

end Starts

/-- **The bytes of a character are read as that character.** -/
theorem stretchesFrom_encodeChar (c : Char) (bytes : List UInt8) :
    stretchesFrom none (String.utf8EncodeChar c ++ bytes)
      = .char c :: stretchesFrom none bytes := by
  have hvalid : c.val.toNat < 0xD800 ∨ 0xDFFF < c.val.toNat ∧ c.val.toNat < 0x110000 := c.valid
  have hchar : ∀ n, n = c.val.toNat → Stretch.char (Char.ofNat n) = .char c := by
    rintro n rfl
    exact congrArg Stretch.char (Char.ofNat_toNat c)
  rw [String.utf8EncodeChar]
  change stretchesFrom none ((if c.val.toNat ≤ 0x7F then _ else if c.val.toNat ≤ 0x7FF then _ else
    if c.val.toNat ≤ 0xFFFF then _ else _) ++ bytes) = _
  -- as many bytes as the number of the character needs
  split_ifs with hone htwo hthree
  · rw [List.singleton_append, stretchesFrom_cons, step, start_ofNat (by omega), if_pos (by omega),
      hchar _ rfl]
    rfl
  · rw [List.cons_append, List.singleton_append,
      stretchesFrom_start (start_of_two (by omega) (by omega)),
      stretchesFrom_next (by omega) (by simp) (by dsimp only; omega)]
    exact congrArg (· :: _) (hchar _ (by dsimp only; omega))
  · rw [List.cons_append, List.cons_append, List.singleton_append,
      stretchesFrom_start (start_of_three (by omega) (by omega)),
      stretchesFrom_next (by omega) (by dsimp only; split <;> omega)
        (by dsimp only; split <;> omega)]
    dsimp only
    rw [stretchesFrom_next (by omega) (by simp) (by dsimp only; omega)]
    exact congrArg (· :: _) (hchar _ (by dsimp only; omega))
  · rw [List.cons_append, List.cons_append, List.cons_append, List.singleton_append,
      stretchesFrom_start (start_of_four (by omega) (by omega)),
      stretchesFrom_next (by omega) (by dsimp only; split <;> omega)
        (by dsimp only; split <;> omega)]
    dsimp only
    rw [stretchesFrom_next (by omega) (by simp) (by dsimp only; omega)]
    dsimp only
    rw [stretchesFrom_next (by omega) (by simp) (by dsimp only; omega)]
    exact congrArg (· :: _) (hchar _ (by dsimp only; omega))

theorem stretches_encode (s : String) : stretches (encode s) = s.toList.map .char := by
  rw [encode_eq_flatMap, stretches]
  induction s.toList with
  | nil => rfl
  | cons c cs ih => rw [List.flatMap_cons, stretchesFrom_encodeChar, ih, List.map_cons]

/-- **What is shown of a text is the text.** -/
@[simp] theorem lossy_encode (s : String) : lossy (encode s) = s := by
  have hshown : Stretch.shown ∘ Stretch.char = id := rfl
  rw [lossy, stretches_encode, List.map_map, hshown, List.map_id, String.ofList_toList]

/-! ## Line feeds -/

/-- What a character that has begun stands for in the end is no small number. -/
structure Begun.IsLarge (s : Begun) : Prop where
  low : 0x80 ≤ s.low
  high : s.high ≤ 0xBF
  least : 0x80 ≤ (s.value * 64 + s.low % 64) * 64 ^ s.missing

/-- How many line feeds are shown of some stretches. -/
def lineFeeds (stretches : List Stretch) : Nat := (stretches.map Stretch.shown).count '\n'

theorem lineFeeds_broken (bytes : List UInt8) (rest : List Stretch) :
    lineFeeds (.broken bytes :: rest) = lineFeeds rest :=
  List.count_cons_of_ne (by decide : replacement ≠ '\n')

theorem lineFeeds_append (s t : List Stretch) : lineFeeds (s ++ t) = lineFeeds s + lineFeeds t := by
  rw [lineFeeds, List.map_append, List.count_append, lineFeeds, lineFeeds]

theorem lineFeeds_char (n : Nat) :
    lineFeeds [.char (Char.ofNat n)] = if n = 10 then 1 else 0 := by
  split
  · next h =>
    subst h
    rfl
  · next h =>
    refine List.count_eq_zero.mpr fun hmem => h ?_
    have hnat : 10 = (Char.ofNat n).toNat := congrArg Char.toNat (List.mem_singleton.mp hmem)
    by_cases hvalid : n.isValidChar
    · rw [Char.ofNat, dif_pos hvalid] at hnat
      exact hnat.symm
    · rw [Char.ofNat, dif_neg hvalid] at hnat
      cases hnat

/-- The first byte of a character shows a line feed if it is one, and begins a large number. -/
theorem start_spec (b : UInt8) :
    lineFeeds (start b).1 = (if b.toNat = 10 then 1 else 0)
      ∧ ∀ s, (start b).2 = some s → s.IsLarge := by
  rw [start]
  split
  · next h => exact ⟨lineFeeds_char b.toNat, fun s hs => by cases hs⟩
  · next h =>
    have hne : b.toNat ≠ 10 := by omega
    rw [if_neg hne]
    split
    · next htwo =>
      rw [Bool.and_eq_true, decide_eq_true_eq, decide_eq_true_eq] at htwo
      refine ⟨rfl, ?_⟩
      rintro s ⟨⟩
      exact ⟨Nat.le_refl _, Nat.le_refl _, by dsimp only; omega⟩
    · split
      · next hthree =>
        rw [Bool.and_eq_true, decide_eq_true_eq, decide_eq_true_eq] at hthree
        refine ⟨rfl, ?_⟩
        rintro s ⟨⟩
        refine ⟨by dsimp only; split <;> omega, by dsimp only; split <;> omega, ?_⟩
        dsimp only
        split <;> omega
      · split
        · next hfour =>
          rw [Bool.and_eq_true, decide_eq_true_eq, decide_eq_true_eq] at hfour
          refine ⟨rfl, ?_⟩
          rintro s ⟨⟩
          refine ⟨by dsimp only; split <;> omega, by dsimp only; split <;> omega, ?_⟩
          dsimp only
          split <;> omega
        · exact ⟨rfl, fun s hs => by cases hs⟩

/-- So does a byte behind a character that has begun. -/
theorem Begun.IsLarge.next_spec {s : Begun} (h : s.IsLarge) (b : UInt8) :
    lineFeeds (s.next b).1 = (if b.toNat = 10 then 1 else 0)
      ∧ ∀ s', (s.next b).2 = some s' → s'.IsLarge := by
  obtain ⟨hlow, hhigh, hleast⟩ := h
  rw [Begun.next]
  dsimp only
  split
  · next hin =>
    rw [Bool.and_eq_true, decide_eq_true_eq, decide_eq_true_eq] at hin
    have hgrows : s.value * 64 + s.low % 64 ≤ s.value * 64 + b.toNat % 64 := by omega
    have hvalue := Nat.le_trans hleast (Nat.mul_le_mul_right (64 ^ s.missing) hgrows)
    rw [if_neg (by omega)]
    split
    · next hmissing =>
      rw [hmissing, Nat.pow_zero, Nat.mul_one] at hvalue
      refine ⟨?_, fun s' hs' => by cases hs'⟩
      rw [lineFeeds_char, if_neg (by omega)]
    · next missing hmissing =>
      rw [hmissing, Nat.pow_succ', ← Nat.mul_assoc] at hvalue
      refine ⟨rfl, ?_⟩
      rintro s' ⟨⟩
      exact ⟨Nat.le_refl _, Nat.le_refl _, by simpa using hvalue⟩
  · rw [lineFeeds_broken]
    exact start_spec b

theorem lineFeeds_stretchesFrom (bytes : List UInt8) {state : Option Begun}
    (h : ∀ s, state = some s → s.IsLarge) :
    lineFeeds (stretchesFrom state bytes) = bytes.count 10 := by
  induction bytes generalizing state with
  | nil =>
    cases state with
    | none => rfl
    | some s => exact lineFeeds_broken s.bytes []
  | cons b bytes ih =>
    have hstep : lineFeeds (step state b).1 = (if b.toNat = 10 then 1 else 0)
        ∧ ∀ s, (step state b).2 = some s → s.IsLarge := by
      cases state with
      | none => exact start_spec b
      | some s => exact (h s rfl).next_spec b
    have hbyte : b.toNat = 10 ↔ b = 10 := UInt8.toNat_inj (b := 10)
    rw [stretchesFrom_cons, lineFeeds_append, hstep.1, ih hstep.2, List.count_cons]
    simp only [hbyte, beq_iff_eq, Nat.add_comm]

/-- **Bytes are shown with as many line feeds as they have.** -/
theorem count_lossy (bytes : List UInt8) : (lossy bytes).toList.count '\n' = bytes.count 10 := by
  rw [lossy, String.toList_ofList]
  exact lineFeeds_stretchesFrom bytes fun s hs => by cases hs

end Utf8
end AggregateAudit
