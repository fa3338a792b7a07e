import AggregateAudit.Config
import Mathlib.Data.List.Nodup

/-!
# Records as tables and as arrays

The two records of a configuration can be written as a table, which binds fields by name, or
as an array, which gives them in order and may stop early.  This file says that the form makes
no difference.  `Toml.Value.Gives` is what the two forms have in common: which values a value
gives to the first fields of a record.  A table may give them in any order and among any
other keys.

What is decoded is said by writing it again.  `AnalyzerSettings.values` are the values that
settings hold, field by field, and decoding a value gives exactly those settings that hold the
values it gives, and from there on what the defaults hold
(`AnalyzerSettings.ofToml?_eq_some_iff`).  A field of the wrong type is refused in both forms,
because no settings hold its value; and a default is the same in both, because it is read off
the default settings each time.
-/

namespace AggregateAudit
namespace Toml

/-! ## Looking up -/

section Lookup

variable {α : Type} {key : String} {entries : List (String × α)}

theorem lookup_eq_none_of_forall_ne (h : ∀ e ∈ entries, e.1 ≠ key) : lookup key entries = none := by
  rw [lookup, List.find?_eq_none.mpr, Option.map_none]
  intro e he
  simpa using h e he

/-- A key stands for its value wherever the value is, if no other one has the key. -/
theorem lookup_eq_some_of_forall_eq {v : α} (hmem : (key, v) ∈ entries)
    (h : ∀ e ∈ entries, e.1 = key → e.2 = v) : lookup key entries = some v := by
  rw [lookup]
  cases hfind : entries.find? (·.1 = key) with
  | none => simpa using List.find?_eq_none.mp hfind (key, v) hmem
  | some e =>
    rw [Option.map_some, h e (List.mem_of_find?_eq_some hfind)]
    simpa using List.find?_some hfind

/-- Only the entries under some keys matter for what is looked up under these keys. -/
theorem lookup_filter (known : String × α → Bool) (h : ∀ e ∈ entries, e.1 = key → known e = true) :
    lookup key (entries.filter known) = lookup key entries := by
  rw [lookup, lookup, List.find?_filter]
  congr 1
  induction entries with
  | nil => rfl
  | cons e entries ih =>
    obtain ⟨he, hrest⟩ := List.forall_mem_cons.mp h
    rw [List.find?_cons, List.find?_cons, ih hrest]
    by_cases hkey : e.1 = key <;> simp [hkey, he]

end Lookup

/-! ## Forms of a record -/

/-- Whether a value gives values to the first fields of a record: it is the array of these
values, or a table that binds the names of the fields to them and besides these only other
keys, in any order. -/
inductive Value.Gives (names : List String) (vs : List Value) : Value → Prop where
  | array : Gives names vs (.array vs)
  | table {entries unknown : List (String × Value)}
      (hentries : entries.Perm (names.zip vs ++ unknown))
      (hunknown : ∀ e ∈ unknown, e.1 ∉ names) : Gives names vs (.table entries)

section Fields

variable {names : List String} {vs : List Value}

/-- A name is looked up at its place among the values. -/
theorem lookup_of_perm (hnames : names.Nodup) {fs unknown : List (String × Value)}
    (hfs : fs.Perm (names.zip vs ++ unknown)) (hunknown : ∀ e ∈ unknown, e.1 ∉ names)
    {i : Nat} {name : String} (hi : names[i]? = some name) : lookup name fs = vs[i]? := by
  have hname : name ∈ names := List.mem_of_getElem? hi
  -- an entry under the name is the one at its place
  have hentry : ∀ e ∈ fs, e.1 = name → vs[i]? = some e.2 := by
    intro e he heq
    rcases List.mem_append.mp (hfs.mem_iff.mp he) with hzip | hother
    · obtain ⟨j, hj⟩ := List.mem_iff_getElem?.mp hzip
      obtain ⟨hj₁, hj₂⟩ := List.getElem?_zip_eq_some.mp hj
      have hji : j = i := by
        obtain ⟨hlt, -⟩ := List.getElem?_eq_some_iff.mp hi
        exact ((List.getElem?_inj hlt hnames).mp (by rw [hi, hj₁, heq])).symm
      rwa [← hji]
    · exact absurd (heq ▸ hname) (hunknown e hother)
  cases hv : vs[i]? with
  | none =>
    refine lookup_eq_none_of_forall_ne fun e he heq => ?_
    rw [hentry e he heq] at hv
    cases hv
  | some v =>
    refine lookup_eq_some_of_forall_eq ?_ fun e he heq => ?_
    · refine hfs.mem_iff.mpr (List.mem_append_left _ (List.mem_of_getElem? (i := i) ?_))
      exact List.getElem?_zip_eq_some.mpr ⟨hi, hv⟩
    · rw [hentry e he heq] at hv
      exact Option.some.inj hv

/-- **In either form a record has the same fields.** -/
theorem Value.Gives.exists_fields (hnames : names.Nodup) {v : Value} (hv : v.Gives names vs) :
    ∃ fs, v.fields? names = some fs
      ∧ ∀ (i : Nat) (name : String), names[i]? = some name → lookup name fs = vs[i]? := by
  cases hv with
  | array =>
    refine ⟨names.zip vs, rfl, fun i name hi => ?_⟩
    have hperm : (names.zip vs).Perm (names.zip vs ++ []) := by rw [List.append_nil]
    exact lookup_of_perm hnames hperm (by simp) hi
  | table hentries hunknown =>
    exact ⟨_, rfl, fun i name hi => lookup_of_perm hnames hentries hunknown hi⟩

end Fields

/-! ## Decoding and writing -/

/-- Whether decoding gives what writes the value.  What a record need not hold may be written as
nothing. -/
structure Writes {α : Type} (decode : Value → Option α) (write : α → Option Value) : Prop where
  decode_iff : ∀ v a, decode v = some a ↔ write a = some v
  injective : ∀ a b, write a = write b → a = b

/-- A field holds what it is bound to, and its default if it is not bound. -/
theorem Writes.field_iff {α : Type} {decode : Value → Option α} {write : α → Option Value}
    (h : Writes decode write) (entries : List (String × Value)) (key : String) (default a : α) :
    field entries key decode default = some a ↔
      write a = (lookup key entries).or (write default) := by
  rw [field]
  cases lookup key entries with
  | none =>
    rw [Option.none_or, Option.some_inj]
    exact ⟨fun heq => by rw [heq], fun heq => (h.injective a default heq).symm⟩
  | some v => exact h.decode_iff v a

theorem writes_string : Writes Value.string? fun s => some (.string s) where
  decode_iff v s := by cases v <;> simp [Value.string?, eq_comm]
  injective s t h := by simpa using h

theorem writes_boolean : Writes Value.boolean? fun b => some (.boolean b) where
  decode_iff v b := by cases v <;> simp [Value.boolean?, eq_comm]
  injective a b h := by simpa using h

/-- A row of strings is read if every item is one. -/
theorem mapM_string?_eq_some_iff {items : List Value} {row : List String} :
    items.mapM Value.string? = some row ↔ row.map Value.string = items := by
  induction items generalizing row with
  | nil => cases row <;> simp
  | cons v items ih =>
    cases row with
    | nil =>
      rw [List.mapM_cons]
      cases v.string? <;> cases items.mapM Value.string? <;> simp
    | cons s row =>
      have hv := writes_string.decode_iff v s
      simp only [List.mapM_cons, List.map_cons, List.cons.injEq, ← ih]
      cases hs : v.string? <;> cases hrow : items.mapM Value.string? <;> simp_all

theorem writes_strings : Writes Value.strings? fun row => some (.array (row.map .string)) where
  decode_iff v row := by
    cases v with
    | array items => simp [Value.strings?, mapM_string?_eq_some_iff]
    | _ => simp [Value.strings?]
  injective r s h := by
    have hinj : Function.Injective Value.string := fun a b h => by simpa using h
    exact List.map_injective_iff.mpr hinj (by simpa using h)

/-- What may be missing is written as nothing where it is missing. -/
theorem Writes.optional {α : Type} {decode : Value → Option α} {write : α → Value}
    (h : Writes decode fun a => some (write a)) :
    Writes (fun v => (decode v).map some) (Option.map write) where
  decode_iff v a := by
    cases a with
    | none => simp
    | some a => simpa using h.decode_iff v a
  injective a b heq := by
    cases a <;> cases b <;> simp_all
    exact h.injective _ _ (by rw [heq])

theorem writes_natural : Writes Value.natural? fun n => some (.integer n) where
  decode_iff v n := by
    cases v with
    | integer m =>
      simp only [Value.natural?, Option.some.injEq, Value.integer.injEq]
      split
      · rw [Option.some_inj]
        omega
      · simp only [reduceCtorEq, false_iff]
        omega
    | _ => simp [Value.natural?]
  injective m n h := by
    have hint : (m : Int) = n := by simpa using h
    exact Int.ofNat_inj.mp hint

end Toml

/-! ## The two records -/

open Toml

/-- The values that settings hold, in the order in which an array gives them.  There is no value
for a number of workers that is not fixed. -/
def AnalyzerSettings.values (s : AnalyzerSettings) : List (Option Value) :=
  [some (.string s.root), some (.array (s.exclude.map .string)), some (.boolean s.respectGitignore),
    some (.boolean s.failOnParseError), s.parallelism.map fun n : Nat => .integer n]

/-- The value that settings of a rule hold, if there is an explicit switch. -/
def RuleSettings.values (s : RuleSettings) : List (Option Value) := [s.enabled.map .boolean]

/-- What a record holds whose first fields have been given values: these, and behind them what the
defaults hold. -/
def Toml.completed (vs : List Value) (defaults : List (Option Value)) : List (Option Value) :=
  vs.map some ++ defaults.drop vs.length

/-- Field by field: a value that has been given counts, and otherwise the default. -/
theorem Toml.completed_eq_mapIdx {vs : List Value} {defaults : List (Option Value)}
    (h : vs.length ≤ defaults.length) :
    completed vs defaults = defaults.mapIdx fun i default => vs[i]?.or default := by
  apply List.ext_getElem?
  intro i
  rw [completed, List.getElem?_mapIdx, List.getElem?_append, List.length_map, List.getElem?_map]
  by_cases hi : i < vs.length
  · have hlt : i < defaults.length := Nat.lt_of_lt_of_le hi h
    simp [hi, hlt]
  · have hle : vs.length ≤ i := Nat.le_of_not_lt hi
    rw [if_neg hi, List.getElem?_drop, Nat.add_sub_cancel' hle, List.getElem?_eq_none hle]
    simp

/-- Settings are decoded field by field. -/
theorem AnalyzerSettings.ofToml?_eq_some_iff_fields {v : Value} {fs : List (String × Value)}
    (hfs : v.fields? fieldNames = some fs) (s : AnalyzerSettings) :
    ofToml? v = some s ↔
      field fs "root" Value.string? (root {}) = some s.root
        ∧ field fs "exclude" Value.strings? (exclude {}) = some s.exclude
        ∧ field fs "respect_gitignore" Value.boolean? (respectGitignore {})
          = some s.respectGitignore
        ∧ field fs "fail_on_parse_error" Value.boolean? (failOnParseError {})
          = some s.failOnParseError
        ∧ field fs "parallelism" (fun w => w.natural?.map some) (parallelism {})
          = some s.parallelism := by
  simp only [ofToml?, hfs, Option.bind_eq_bind, Option.bind_some, Option.bind_eq_some_iff]
  constructor
  · rintro ⟨root, hroot, exclude, hexclude, respect, hrespect, fail, hfail, workers, hworkers, hs⟩
    cases hs
    exact ⟨hroot, hexclude, hrespect, hfail, hworkers⟩
  · rintro ⟨hroot, hexclude, hrespect, hfail, hworkers⟩
    exact ⟨_, hroot, _, hexclude, _, hrespect, _, hfail, _, hworkers, rfl⟩

/-- **Settings are decoded to what they are given.**  The settings that a value describes are those
that hold the values it gives to the first fields, and the defaults from there on. -/
theorem AnalyzerSettings.ofToml?_eq_some_iff {vs : List Value} {v : Value}
    (hlength : vs.length ≤ fieldNames.length) (hv : v.Gives fieldNames vs) (s : AnalyzerSettings) :
    ofToml? v = some s ↔ s.values = completed vs (values {}) := by
  obtain ⟨fs, hfs, hlookup⟩ := hv.exists_fields (by decide)
  rw [ofToml?_eq_some_iff_fields hfs, writes_string.field_iff, writes_strings.field_iff,
    writes_boolean.field_iff, writes_boolean.field_iff, writes_natural.optional.field_iff,
    hlookup 0 _ rfl, hlookup 1 _ rfl, hlookup 2 _ rfl, hlookup 3 _ rfl, hlookup 4 _ rfl,
    completed_eq_mapIdx hlength]
  simp only [values, List.mapIdx_cons, List.mapIdx_nil, List.cons.injEq, and_true]

/-- A switch is decoded to what it is given, and is open without. -/
theorem RuleSettings.ofToml?_eq_some_iff {vs : List Value} {v : Value}
    (hlength : vs.length ≤ 1) (hv : v.Gives ["enabled"] vs) (s : RuleSettings) :
    ofToml? v = some s ↔ s.values = completed vs (values {}) := by
  obtain ⟨fs, hfs, hlookup⟩ := hv.exists_fields (by decide)
  have hfields : ofToml? v = some s ↔
      field fs "enabled" (fun w => w.boolean?.map some) (enabled {}) = some s.enabled := by
    simp only [ofToml?, hfs, Option.bind_eq_bind, Option.bind_some, Option.bind_eq_some_iff]
    constructor
    · rintro ⟨enabled, henabled, hs⟩
      cases hs
      exact henabled
    · exact fun h => ⟨_, h, rfl⟩
  rw [hfields, writes_boolean.optional.field_iff, hlookup 0 _ rfl, completed_eq_mapIdx hlength]
  simp only [values, List.mapIdx_cons, List.mapIdx_nil, List.cons.injEq, and_true]

/-! ## Documents -/

namespace RuleSettings

/-- Whatever is bound to a key is decoded, and kept under the key. -/
theorem exists_mem_of_mapOfToml? {entries : List (String × Value)}
    {rules : List (String × RuleSettings)} (h : mapOfToml? (.table entries) = some rules)
    {key : String} {v : Value} (hmem : (key, v) ∈ entries) :
    ∃ s, (key, s) ∈ rules ∧ ofToml? v = some s := by
  rw [mapOfToml?] at h
  induction entries generalizing rules with
  | nil => cases hmem
  | cons e entries ih =>
    rw [List.mapM_cons] at h
    obtain ⟨r, hr, h⟩ := Option.bind_eq_some_iff.mp h
    obtain ⟨rest, hrest, h⟩ := Option.bind_eq_some_iff.mp h
    cases h
    rcases List.mem_cons.mp hmem with rfl | hmem
    · obtain ⟨s, hs, rfl⟩ := Option.map_eq_some_iff.mp hr
      exact ⟨s, List.mem_cons_self, hs⟩
    · obtain ⟨s, hs, hv⟩ := ih hrest hmem
      exact ⟨s, List.mem_cons_of_mem _ hs, hv⟩

/-- Another form of one entry makes no difference to the others. -/
theorem mapOfToml?_table_congr {key : String} {v w : Value} (h : ofToml? v = ofToml? w)
    (front back : List (String × Value)) :
    mapOfToml? (.table (front ++ (key, v) :: back))
      = mapOfToml? (.table (front ++ (key, w) :: back)) := by
  simp only [mapOfToml?, List.mapM_append, List.mapM_cons, h]

end RuleSettings

namespace Config

/-- The names of the parts of a configuration. -/
def fieldNames : List String := ["analyzer", "rules"]

/-- A configuration is decoded part by part. -/
theorem ofToml?_eq_some_iff {d : List (String × Value)} {c : Config} :
    ofToml? d = some c ↔
      field d "analyzer" AnalyzerSettings.ofToml? {} = some c.analyzer
        ∧ field d "rules" RuleSettings.mapOfToml? [] = some c.rules := by
  simp only [ofToml?, Option.bind_eq_bind, Option.bind_eq_some_iff]
  constructor
  · rintro ⟨analyzer, hanalyzer, rules, hrules, hc⟩
    cases hc
    exact ⟨hanalyzer, hrules⟩
  · rintro ⟨hanalyzer, hrules⟩
    exact ⟨_, hanalyzer, _, hrules, rfl⟩

/-- Only what is found under the two names matters. -/
theorem ofToml?_congr {d e : List (String × Value)}
    (hanalyzer : field d "analyzer" AnalyzerSettings.ofToml? {}
      = field e "analyzer" AnalyzerSettings.ofToml? {})
    (hrules : field d "rules" RuleSettings.mapOfToml? []
      = field e "rules" RuleSettings.mapOfToml? []) : ofToml? d = ofToml? e := by
  rw [ofToml?, ofToml?, hanalyzer, hrules]

/-- **The form of a record makes no difference to a configuration.**  Three documents that say the
same are decoded alike.

Firstly, the settings of the analyzer may be an array of at most five values or a table that binds
the first names to them: either both are accepted or neither, and the settings hold each value that
is given and the default of each field that is not.  Secondly, the same holds of the switch of a
rule, under whatever key.  Thirdly, entries of a document under other names can be added and left
out. -/
theorem ofToml?_forms :
    (∀ (vs : List Value) (v w : Value) (d e : List (String × Value)), vs.length ≤ 5 →
        v.Gives AnalyzerSettings.fieldNames vs → w.Gives AnalyzerSettings.fieldNames vs →
        lookup "analyzer" d = some v → lookup "analyzer" e = some w →
        lookup "rules" d = lookup "rules" e →
        ofToml? d = ofToml? e
          ∧ ∀ c, ofToml? d = some c ↔
            c.analyzer.values = completed vs (AnalyzerSettings.values {})
              ∧ field d "rules" RuleSettings.mapOfToml? [] = some c.rules)
      ∧ (∀ (key : String) (x v w : Value) (front back d e : List (String × Value)),
        v.Gives ["enabled"] [x] → w.Gives ["enabled"] [x] →
        lookup "rules" d = some (.table (front ++ (key, v) :: back)) →
        lookup "rules" e = some (.table (front ++ (key, w) :: back)) →
        lookup "analyzer" d = lookup "analyzer" e →
        ofToml? d = ofToml? e
          ∧ ∀ c, ofToml? d = some c → ∃ s, (key, s) ∈ c.rules ∧ s.values = [some x])
      ∧ ∀ d e : List (String × Value),
        d.filter (fieldNames.contains ·.1) = e.filter (fieldNames.contains ·.1) →
        ofToml? d = ofToml? e := by
  refine ⟨?_, ?_, ?_⟩
  · intro vs v w d e hlength hv hw hd he hrules
    have hsettings := AnalyzerSettings.ofToml?_eq_some_iff hlength hv
    have hsame : AnalyzerSettings.ofToml? v = AnalyzerSettings.ofToml? w :=
      Option.ext fun s =>
        (hsettings s).trans (AnalyzerSettings.ofToml?_eq_some_iff hlength hw s).symm
    refine ⟨ofToml?_congr ?_ (by rw [field, field, hrules]), fun c => ?_⟩
    · simp only [field, hd, he, hsame]
    · rw [ofToml?_eq_some_iff, ← hsettings]
      simp only [field, hd]
  · intro key x v w front back d e hv hw hd he hanalyzer
    have hlength : [x].length ≤ 1 := Nat.le_refl 1
    have hsettings := RuleSettings.ofToml?_eq_some_iff hlength hv
    have hsame : RuleSettings.ofToml? v = RuleSettings.ofToml? w :=
      Option.ext fun s =>
        (hsettings s).trans (RuleSettings.ofToml?_eq_some_iff hlength hw s).symm
    refine ⟨ofToml?_congr (by rw [field, field, hanalyzer]) ?_, fun c hc => ?_⟩
    · simp only [field, hd, he, RuleSettings.mapOfToml?_table_congr hsame front back]
    · have hrules := (ofToml?_eq_some_iff.mp hc).2
      simp only [field, hd] at hrules
      have hmem : (key, v) ∈ front ++ (key, v) :: back :=
        List.mem_append_right _ List.mem_cons_self
      obtain ⟨s, hs, hdecoded⟩ := RuleSettings.exists_mem_of_mapOfToml? hrules hmem
      exact ⟨s, hs, (hsettings s).mp hdecoded⟩
  · intro d e h
    have hlookup : ∀ name ∈ fieldNames, lookup name d = lookup name e := by
      intro name hname
      rw [← lookup_filter (fieldNames.contains ·.1), h, lookup_filter]
      all_goals
        rintro entry - rfl
        exact List.contains_iff_mem.mpr hname
    refine ofToml?_congr ?_ ?_
    · rw [field, field, hlookup "analyzer" (by decide)]
    · rw [field, field, hlookup "rules" (by decide)]

/-- Three of five fields, as an array and as a table in another order with a date among them; a
rule that is switched off in both forms; and a document with one more entry. -/
theorem ofToml?_forms_of_three :
    let vs : List Value := [.string "src", .array [], .boolean false]
    let unknown : String × Value := ("since", .datetime "1979-05-27")
    let settings : Value := .table (unknown :: (AnalyzerSettings.fieldNames.zip vs).reverse)
    let d : List (String × Value) := [("analyzer", .array vs)]
    let e : List (String × Value) := [("analyzer", settings)]
    let off : Value := .table [("enabled", .boolean false), unknown]
    let d' : List (String × Value) := [("rules", .table [("AG0001", .array [.boolean false])])]
    let e' : List (String × Value) := [("rules", .table [("AG0001", off)])]
    (Value.Gives AnalyzerSettings.fieldNames vs settings
        ∧ Value.Gives ["enabled"] [.boolean false] off
        ∧ d.filter (fieldNames.contains ·.1) = (unknown :: d).filter (fieldNames.contains ·.1))
      ∧ ofToml? d = ofToml? e ∧ (ofToml? d).isSome = true
      ∧ ofToml? d' = ofToml? e' ∧ (ofToml? d').isSome = true
      ∧ ofToml? d = ofToml? (unknown :: d) := by
  intro vs unknown settings d e off d' e'
  have hsettings : Value.Gives AnalyzerSettings.fieldNames vs settings :=
    .table (List.reverse_perm (AnalyzerSettings.fieldNames.zip vs ++ [unknown])) (by decide)
  have hoff : Value.Gives ["enabled"] [.boolean false] off :=
    .table (List.Perm.refl (["enabled"].zip [.boolean false] ++ [unknown])) (by decide)
  have hfilter : d.filter (fieldNames.contains ·.1)
      = (unknown :: d).filter (fieldNames.contains ·.1) := rfl
  obtain ⟨hanalyzer, hrules, hunknown⟩ := ofToml?_forms
  exact ⟨⟨hsettings, hoff, hfilter⟩,
    (hanalyzer vs _ _ d e (by decide) .array hsettings rfl rfl rfl).1, by decide,
    (hrules "AG0001" (.boolean false) _ _ [] [] d' e' .array hoff rfl rfl rfl).1, by decide,
    hunknown d (unknown :: d) hfilter⟩

end Config
end AggregateAudit
