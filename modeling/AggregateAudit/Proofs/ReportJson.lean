import AggregateAudit.Proofs.JsonText
import AggregateAudit.Proofs.Utf8
import AggregateAudit.Report.Format

/-!
# Reports survive being written as JSON

The JSON format of a report is a report for other programs, so nothing of it may get lost.
`Report.decode?_json` says that nothing does: the printed text describes the report that was
printed, with every text in it, whatever characters it has, every number of 64 bits and every
hint or its absence.  The paths of the files must be text for that, and a report on a file whose
path is none is not printed at all (`Report.exists_json_iff`).

Reading is more lenient than writing.  It takes records as arrays, ignores members that it
does not know, and takes a hint that is null for none.  All of this happens once: what has
been read is a report like any other, and writing and reading it again changes nothing.  Its
numbers fit and its paths are text, so there is nothing to assume about what has been read
(`Report.fitsWords_and_isNamed_of_ofJson?`).
-/

namespace AggregateAudit

/-! ## Numbers that fit -/

/-- Whether the numbers of a location fit into words. -/
structure Location.FitsWords (l : Location) : Prop where
  line : l.line < wordSize
  column : l.column < wordSize
  offset : l.offset < wordSize
  length : l.length < wordSize

/-- Whether all numbers of a report fit into words. -/
structure Report.FitsWords (r : Report) : Prop where
  findings : ∀ f ∈ r.findings, f.location.FitsWords
  filesChecked : r.filesChecked < wordSize

/-! ## Writing and reading values -/

/-- What is shown of a path that is a text is the text. -/
@[simp] theorem Path.display_ofString (s : String) : (ofString s).display = s := Utf8.lossy_encode s

theorem Path.text?_eq_some_iff {p : Path} {s : String} : p.text? = some s ↔ p = s := by
  rw [text?, Utf8.decode?_eq_some_iff, Path.ext_iff]
  rfl

section Members

variable {v : Json} {key : String}

theorem Json.stringAt?_of_get? {s : String} (h : v.get? key = some (.string s)) :
    v.stringAt? key = some s := by
  rw [stringAt?, h]

theorem Json.wordAt?_of_get? {n : Nat} (h : v.get? key = some (.natural n)) (hn : n < wordSize) :
    v.wordAt? key = some n := by
  rw [wordAt?, h]
  exact if_pos hn

/-- A number that was read fits. -/
theorem Json.lt_of_wordAt? {n : Nat} (h : v.wordAt? key = some n) : n < wordSize := by
  rw [wordAt?] at h
  split at h
  · split at h
    · cases h
      assumption
    · cases h
  · cases h

end Members

/-- A location is written with the text of its file, if there is one. -/
theorem Location.toJson?_eq_some_iff {l : Location} {v : Json} :
    l.toJson? = some v ↔
      ∃ name : String, l.file = name ∧ v = .object
        [("file", .string name), ("line", .natural l.line), ("column", .natural l.column),
          ("offset", .natural l.offset), ("length", .natural l.length)] := by
  simp only [toJson?, Option.bind_eq_bind, Option.bind_eq_some_iff, Path.text?_eq_some_iff,
    Option.some.injEq, eq_comm (b := v)]

theorem Location.ofJson?_of_toJson? {l : Location} {v : Json} (h : l.FitsWords)
    (hv : l.toJson? = some v) : ofJson? v = some l := by
  obtain ⟨name, hname, rfl⟩ := toJson?_eq_some_iff.mp hv
  let written : Json := .object
    [("file", .string name), ("line", .natural l.line), ("column", .natural l.column),
      ("offset", .natural l.offset), ("length", .natural l.length)]
  have hfile : (written.stringAt? "file").map Path.ofString = some l.file := by
    rw [hname]
    rfl
  have hline : written.wordAt? "line" = some l.line := Json.wordAt?_of_get? rfl h.line
  have hcolumn : written.wordAt? "column" = some l.column := Json.wordAt?_of_get? rfl h.column
  have hoffset : written.wordAt? "offset" = some l.offset := Json.wordAt?_of_get? rfl h.offset
  have hlength : written.wordAt? "length" = some l.length := Json.wordAt?_of_get? rfl h.length
  have hrecord : written.record? ["file", "line", "column", "offset", "length"] = some written :=
    rfl
  simp only [written] at hrecord hfile hline hcolumn hoffset hlength
  simp only [ofJson?, hrecord, hfile, hline, hcolumn, hoffset, hlength, Option.bind_eq_bind,
    Option.bind_some]

theorem Severity.ofJson?_word (s : Severity) : ofJson? (.string s.word) = some s := by
  cases s <;> rfl

theorem Finding.toJson?_eq_some_iff {f : Finding} {v : Json} :
    f.toJson? = some v ↔
      ∃ location, f.location.toJson? = some location ∧ v = .object
        ([("code", .string f.code), ("rule", .string f.rule), ("severity", .string f.severity.word),
            ("location", location), ("message", .string f.message)]
          ++ match f.help with
            | some h => [("help", .string h)]
            | none => []) := by
  rw [toJson?, Option.bind_eq_bind, Option.bind_eq_some_iff]
  exact exists_congr fun _ => and_congr_right fun _ => Option.some_inj.trans eq_comm

/-- A finding without a hint has no such member, and a finding with one has it. -/
theorem Finding.get?_help_of_toJson? {f : Finding} {v : Json} (h : f.toJson? = some v) :
    v.get? "help" = f.help.map Json.string := by
  obtain ⟨location, -, rfl⟩ := toJson?_eq_some_iff.mp h
  cases f.help <;> rfl

theorem Finding.ofJson?_of_toJson? {f : Finding} {v : Json} (h : f.location.FitsWords)
    (hv : f.toJson? = some v) : ofJson? v = some f := by
  have hhelp : v.optionalStringAt? "help" = some f.help := by
    rw [Json.optionalStringAt?, get?_help_of_toJson? hv]
    cases f.help <;> rfl
  obtain ⟨location, hlocation, hv⟩ := toJson?_eq_some_iff.mp hv
  have hmembers : v.get? "code" = some (.string f.code)
      ∧ v.get? "rule" = some (.string f.rule)
      ∧ v.get? "severity" = some (.string f.severity.word)
      ∧ v.get? "location" = some location
      ∧ v.get? "message" = some (.string f.message) := by
    rw [hv]
    cases f.help <;> exact ⟨rfl, rfl, rfl, rfl, rfl⟩
  have hrecord :
      v.record? ["code", "rule", "severity", "location", "message", "help"] = some v := by
    rw [hv]
    rfl
  obtain ⟨hcode, hrule, hseverity, hplace, hmessage⟩ := hmembers
  simp only [ofJson?, hrecord, Json.stringAt?_of_get? hcode, Json.stringAt?_of_get? hrule,
    hseverity, Severity.ofJson?_word, hplace, Location.ofJson?_of_toJson? h hlocation,
    Json.stringAt?_of_get? hmessage, hhelp, Option.bind_eq_bind, Option.bind_some]

theorem Finding.listOfJson?_of_mapM_toJson? {fs : List Finding} {vs : List Json}
    (h : ∀ f ∈ fs, f.location.FitsWords) (hvs : fs.mapM toJson? = some vs) :
    listOfJson? (.array vs) = some fs := by
  show vs.mapM ofJson? = some fs
  induction fs generalizing vs with
  | nil =>
    cases hvs
    rfl
  | cons f fs ih =>
    obtain ⟨hf, hfs⟩ := List.forall_mem_cons.mp h
    simp only [List.mapM_cons, Option.bind_eq_bind, Option.bind_eq_some_iff] at hvs
    obtain ⟨v, hv, rest, hrest, hvs⟩ := hvs
    cases hvs
    rw [List.mapM_cons, ofJson?_of_toJson? hf hv, ih hfs hrest]
    rfl

theorem Report.toJson?_eq_some_iff {r : Report} {v : Json} :
    r.toJson? = some v ↔
      ∃ vs, r.findings.mapM Finding.toJson? = some vs
        ∧ v = .object [("findings", .array vs), ("files_checked", .natural r.filesChecked)] := by
  simp only [toJson?, Option.bind_eq_bind, Option.bind_eq_some_iff, Option.some.injEq,
    eq_comm (b := v)]

/-- **A report is what its value describes.** -/
theorem Report.ofJson?_of_toJson? {r : Report} {v : Json} (h : r.FitsWords)
    (hv : r.toJson? = some v) : ofJson? v = some r := by
  obtain ⟨vs, hvs, rfl⟩ := toJson?_eq_some_iff.mp hv
  let written : Json :=
    .object [("findings", .array vs), ("files_checked", .natural r.filesChecked)]
  have hrecord : written.record? ["findings", "files_checked"] = some written := rfl
  have hfindings : written.get? "findings" = some (.array vs) := rfl
  have hchecked : written.wordAt? "files_checked" = some r.filesChecked :=
    Json.wordAt?_of_get? rfl h.filesChecked
  simp only [written] at hrecord hfindings hchecked
  simp only [ofJson?, hrecord, hfindings, hchecked,
    Finding.listOfJson?_of_mapM_toJson? h.findings hvs, Option.bind_eq_bind, Option.bind_some]

/-! ## Paths that are text -/

/-- Whether the path of the file is a text. -/
def Location.IsNamed (l : Location) : Prop := ∃ name : String, l.file = name

theorem Location.exists_toJson?_iff {l : Location} : (∃ v, l.toJson? = some v) ↔ l.IsNamed := by
  simp only [toJson?_eq_some_iff, IsNamed]
  exact ⟨fun ⟨_, name, hname, _⟩ => ⟨name, hname⟩, fun ⟨name, hname⟩ => ⟨_, name, hname, rfl⟩⟩

theorem Finding.exists_toJson?_iff {f : Finding} :
    (∃ v, f.toJson? = some v) ↔ f.location.IsNamed := by
  rw [← Location.exists_toJson?_iff]
  simp only [toJson?_eq_some_iff]
  exact ⟨fun ⟨_, l, hl, _⟩ => ⟨l, hl⟩, fun ⟨l, hl⟩ => ⟨_, l, hl, rfl⟩⟩

/-- Findings can be written if each of them can. -/
theorem Finding.exists_mapM_toJson?_iff {fs : List Finding} :
    (∃ vs, fs.mapM toJson? = some vs) ↔ ∀ f ∈ fs, f.location.IsNamed := by
  induction fs with
  | nil => simp
  | cons f fs ih =>
    rw [List.forall_mem_cons, ← ih, ← exists_toJson?_iff]
    simp only [List.mapM_cons, Option.bind_eq_bind, Option.bind_eq_some_iff]
    constructor
    · rintro ⟨_, v, hv, vs, hvs, _⟩
      exact ⟨⟨v, hv⟩, vs, hvs⟩
    · rintro ⟨⟨v, hv⟩, vs, hvs⟩
      exact ⟨_, v, hv, vs, hvs, rfl⟩

/-- **A report can be written exactly if the paths of all its files are text.** -/
theorem Report.exists_toJson?_iff {r : Report} :
    (∃ v, r.toJson? = some v) ↔ ∀ f ∈ r.findings, f.location.IsNamed := by
  rw [← Finding.exists_mapM_toJson?_iff]
  simp only [toJson?_eq_some_iff]
  exact ⟨fun ⟨_, vs, hvs, _⟩ => ⟨vs, hvs⟩, fun ⟨vs, hvs⟩ => ⟨_, vs, hvs, rfl⟩⟩

/-! ## What has been read -/

/-- The numbers of what was read fit, and its file was read as a text. -/
theorem Location.fitsWords_and_isNamed_of_ofJson? {v : Json} {l : Location}
    (h : ofJson? v = some l) : l.FitsWords ∧ l.IsNamed := by
  simp only [ofJson?, Option.bind_eq_bind, Option.bind_eq_some_iff] at h
  obtain ⟨w, -, file, hfile, line, hline, column, hcolumn, offset, hoffset, length, hlength, hl⟩ :=
    h
  obtain ⟨name, -, hname⟩ := Option.map_eq_some_iff.mp hfile
  cases hl
  exact ⟨⟨Json.lt_of_wordAt? hline, Json.lt_of_wordAt? hcolumn, Json.lt_of_wordAt? hoffset,
    Json.lt_of_wordAt? hlength⟩, name, hname.symm⟩

theorem Finding.fitsWords_and_isNamed_of_ofJson? {v : Json} {f : Finding}
    (h : ofJson? v = some f) : f.location.FitsWords ∧ f.location.IsNamed := by
  simp only [ofJson?, Option.bind_eq_bind, Option.bind_eq_some_iff] at h
  obtain ⟨w, -, code, -, rule, -, severity, -, location, ⟨value, -, hlocation⟩, message, -, help,
    -, hf⟩ := h
  cases hf
  exact Location.fitsWords_and_isNamed_of_ofJson? hlocation

theorem Finding.fitsWords_and_isNamed_of_listOfJson? {v : Json} {fs : List Finding}
    (h : listOfJson? v = some fs) : ∀ f ∈ fs, f.location.FitsWords ∧ f.location.IsNamed := by
  rw [listOfJson?.eq_def] at h
  split at h
  · next items =>
    induction items generalizing fs with
    | nil =>
      cases h
      exact fun f hf => absurd hf List.not_mem_nil
    | cons item items ih =>
      simp only [List.mapM_cons, Option.bind_eq_bind, Option.bind_eq_some_iff] at h
      obtain ⟨f, hf, rest, hrest, hfs⟩ := h
      cases hfs
      exact List.forall_mem_cons.mpr ⟨fitsWords_and_isNamed_of_ofJson? hf, ih hrest⟩
  · cases h

/-- **The numbers of a report that was read fit, and the paths of its files are text.** -/
theorem Report.fitsWords_and_isNamed_of_ofJson? {v : Json} {r : Report} (h : ofJson? v = some r) :
    r.FitsWords ∧ ∀ f ∈ r.findings, f.location.IsNamed := by
  simp only [ofJson?, Option.bind_eq_bind, Option.bind_eq_some_iff] at h
  obtain ⟨w, -, findings, ⟨value, -, hfindings⟩, checked, hchecked, hr⟩ := h
  cases hr
  have hfits := Finding.fitsWords_and_isNamed_of_listOfJson? hfindings
  exact ⟨⟨fun f hf => (hfits f hf).1, Json.lt_of_wordAt? hchecked⟩, fun f hf => (hfits f hf).2⟩

/-! ## Texts -/

theorem Location.isNatural_of_toJson? {l : Location} {v : Json} (h : l.toJson? = some v) :
    v.IsNatural := by
  obtain ⟨name, -, rfl⟩ := toJson?_eq_some_iff.mp h
  exact ⟨trivial, trivial, trivial, trivial, trivial, trivial⟩

theorem Finding.isNatural_of_toJson? {f : Finding} {v : Json} (h : f.toJson? = some v) :
    v.IsNatural := by
  obtain ⟨location, hlocation, rfl⟩ := toJson?_eq_some_iff.mp h
  have hplace := Location.isNatural_of_toJson? hlocation
  cases f.help with
  | none => exact ⟨trivial, trivial, trivial, hplace, trivial, trivial⟩
  | some help => exact ⟨trivial, trivial, trivial, hplace, trivial, trivial, trivial⟩

theorem Finding.areNatural_of_mapM_toJson? {fs : List Finding} {vs : List Json}
    (h : fs.mapM toJson? = some vs) : Json.AreNatural vs := by
  induction fs generalizing vs with
  | nil =>
    cases h
    trivial
  | cons f fs ih =>
    simp only [List.mapM_cons, Option.bind_eq_bind, Option.bind_eq_some_iff] at h
    obtain ⟨v, hv, rest, hrest, hvs⟩ := h
    cases hvs
    exact ⟨isNatural_of_toJson? hv, ih hrest⟩

theorem Report.isNatural_of_toJson? {r : Report} {v : Json} (h : r.toJson? = some v) :
    v.IsNatural := by
  obtain ⟨vs, hvs, rfl⟩ := toJson?_eq_some_iff.mp h
  exact ⟨Finding.areNatural_of_mapM_toJson? hvs, trivial, trivial⟩

/-- The report that a text describes. -/
def Report.decode? (text : String) : Option Report := (Json.read? text).bind ofJson?

theorem Report.json_eq_ok_iff {r : Report} {text : String} :
    r.json = .ok text ↔ ∃ v, r.toJson? = some v ∧ text = Text.unlines [v.pretty] := by
  rw [json]
  cases r.toJson? with
  | none => simp
  | some v => simp [eq_comm]

/-- The text that is printed is read as the value that was written. -/
theorem Report.read?_of_toJson? {r : Report} {v : Json} (h : r.toJson? = some v) :
    Json.read? (Text.unlines [v.pretty]) = some v := by
  have htext : Text.unlines [v.pretty] = String.ofList (Json.write ⟨true⟩ 0 v ++ ['\n']) := by
    apply String.toList_injective
    simp [Text.unlines, Json.pretty]
  rw [htext]
  exact Json.read?_write ⟨true⟩ (isNatural_of_toJson? h) (List.forall_mem_singleton.mpr (by decide))

/-- What is printed describes what was to be printed. -/
theorem Report.decode?_of_json {r : Report} {text : String} (h : r.FitsWords)
    (htext : r.json = .ok text) : decode? text = some r := by
  obtain ⟨v, hv, rfl⟩ := json_eq_ok_iff.mp htext
  rw [decode?, read?_of_toJson? hv, Option.bind_some, ofJson?_of_toJson? h hv]

/-- A report is printed if the paths of its files are text, and nothing is printed if some path is
none. -/
theorem Report.exists_json_iff {r : Report} :
    (∃ text, r.json = .ok text) ↔ ∀ f ∈ r.findings, f.location.IsNamed := by
  rw [← exists_toJson?_iff]
  simp only [json_eq_ok_iff]
  exact ⟨fun ⟨_, v, hv, _⟩ => ⟨v, hv⟩, fun ⟨v, hv⟩ => ⟨_, v, hv, rfl⟩⟩

/-- Where nothing is printed there is a finding. -/
theorem Report.exists_mem_of_print_eq_error {r : Report} {format : Format}
    {source : Finding → Option String} {fault : PrintFault}
    (h : r.print format source = .error fault) : ∃ f ∈ r.findings, ¬ f.location.IsNamed := by
  cases format with
  | json =>
    by_contra hnamed
    obtain ⟨text, htext⟩ := exists_json_iff.mpr fun f hf => by_contra fun h => hnamed ⟨f, hf, h⟩
    rw [print, htext] at h
    cases h
  | text => cases h
  | compact => cases h
  | pretty => cases h

/-- **Reports survive being written as JSON.**  A report whose numbers fit and whose files have
texts for paths is printed, and the text describes that report; a finding has the member for a
hint in it exactly if it has one.  Whatever value describes a report, written in whatever lenient
way, what has been read can be written, and it is described by its own value and by its own
text. -/
theorem Report.decode?_json :
    (∀ r : Report, r.FitsWords → (∀ f ∈ r.findings, f.location.IsNamed) →
        ∃ text, r.json = .ok text ∧ decode? text = some r)
      ∧ (∀ (f : Finding) v, f.toJson? = some v → v.get? "help" = f.help.map Json.string)
      ∧ ∀ v r, ofJson? v = some r →
        r.FitsWords ∧ (∀ f ∈ r.findings, f.location.IsNamed)
          ∧ (∃ written, r.toJson? = some written ∧ ofJson? written = some r)
          ∧ ∃ text, r.json = .ok text ∧ decode? text = some r := by
  have hprinted : ∀ r : Report, r.FitsWords → (∀ f ∈ r.findings, f.location.IsNamed) →
      ∃ text, r.json = .ok text ∧ decode? text = some r := by
    intro r hr hnamed
    obtain ⟨text, htext⟩ := exists_json_iff.mpr hnamed
    exact ⟨text, htext, decode?_of_json hr htext⟩
  refine ⟨hprinted, fun f v => Finding.get?_help_of_toJson?, ?_⟩
  intro v r h
  obtain ⟨hr, hnamed⟩ := fitsWords_and_isNamed_of_ofJson? h
  obtain ⟨written, hwritten⟩ := exists_toJson?_iff.mpr hnamed
  exact ⟨hr, hnamed, ⟨written, hwritten, ofJson?_of_toJson? hr hwritten⟩, hprinted r hr hnamed⟩

/-- A report with the largest number and with characters that are escaped, and a value that
describes it with a hint that is null and with a member that is not known. -/
theorem Report.decode?_json_of_escapes :
    let f : Finding :=
      ⟨"AG0001", "quote \" and \\", .warning, ⟨"grün/a.cs", 18446744073709551615, 1, 0, 0⟩,
        "two\nlines", none⟩
    let place : Json :=
      .object [("file", .string "grün/a.cs"), ("line", .natural 18446744073709551615),
        ("column", .natural 1), ("offset", .natural 0), ("length", .natural 0)]
    let v : Json :=
      .object [("unknown", .bool true), ("files_checked", .natural 3),
        ("findings", .array [.object
          [("help", .null), ("code", .string f.code), ("rule", .string f.rule),
            ("severity", .string "warning"), ("location", place), ("message", .string f.message)]])]
    let r : Report := ⟨[f], 3⟩
    (r.FitsWords ∧ (∀ f ∈ r.findings, f.location.IsNamed) ∧ f.location.toJson? = some place
        ∧ ofJson? v = some r)
      ∧ (∃ text, r.json = .ok text ∧ decode? text = some r)
      ∧ ∃ written, r.toJson? = some written ∧ ofJson? written = some r := by
  intro f place v r
  have hfits : r.FitsWords := by
    refine ⟨List.forall_mem_singleton.mpr ⟨?_, ?_, ?_, ?_⟩, ?_⟩ <;> decide
  have hnamed : ∀ f ∈ r.findings, f.location.IsNamed := List.forall_mem_singleton.mpr ⟨_, rfl⟩
  have hplace : f.location.toJson? = some place := Location.toJson?_eq_some_iff.mpr ⟨_, rfl, rfl⟩
  have hvalue : ofJson? v = some r := by decide +kernel
  exact ⟨⟨hfits, hnamed, hplace, hvalue⟩, decode?_json.1 _ hfits hnamed,
    (decode?_json.2.2 v _ hvalue).2.2.1⟩

end AggregateAudit
