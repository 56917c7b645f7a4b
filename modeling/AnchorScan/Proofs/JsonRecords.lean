import AnchorScan.Json.Anchor
import AnchorScan.Proofs.JsonDocument
import AnchorScan.Report
import Mathlib.Data.Nat.Digits.Defs

/-!
# AnchorScan.Proofs.JsonRecords

Anchors, findings and reports in JSON lose nothing.

* `Format`: how the values of a type are shown and read, and which of them can be;
* `Format.readAs_compact` and `Format.readAs_pretty`: a value is read back from its texts;
* `Format.restate_restate`: to show again what was read changes nothing any more, whatever
  the text that it was first read from;
* `fields?_record`: a record has the fields that it was made of;
* `written_values_read_back`: so it is for lists of reports over lines, and for anchors,
  their classes, findings and reports without blanks.
-/

namespace AnchorScan

open Json

/-! ## formats -/

namespace Json

/-- Reads the document that a text holds. -/
def readAs {α : Type} (decode : Value → Option α) (text : String) : Option α :=
  (parse text).bind decode

/-- Shows without blanks what a text holds. -/
def restate {α : Type} (encode : α → Value) (decode : Value → Option α) (text : String) :
    Option String :=
  (readAs decode text).map fun x => (encode x).compact

/-- How the values of a type are shown and read. -/
structure Format (α : Type) where
  encode : α → Value
  decode : Value → Option α
  /-- The values whose numbers have at most 64 bits. -/
  Fits : α → Prop
  plain : ∀ x, Fits x → (encode x).Plain
  decode_encode : ∀ x, Fits x → decode (encode x) = some x
  fits_of_decode : ∀ value x, decode value = some x → Fits x

namespace Format

variable {α : Type} (format : Format α)

theorem readAs_compact {x : α} (fits : format.Fits x) :
    readAs format.decode (format.encode x).compact = some x := by
  rw [readAs, parse_compact (format.plain x fits)]
  exact format.decode_encode x fits

theorem readAs_pretty {x : α} (fits : format.Fits x) :
    readAs format.decode (format.encode x).pretty = some x := by
  rw [readAs, parse_pretty (format.plain x fits)]
  exact format.decode_encode x fits

/-- Nothing is read that could not be shown again. -/
theorem fits_of_readAs {text : String} {x : α} (h : readAs format.decode text = some x) :
    format.Fits x := by
  obtain ⟨value, -, hvalue⟩ := Option.bind_eq_some_iff.mp h
  exact format.fits_of_decode value x hvalue

/-- Showing what was read settles after the first time. -/
theorem restate_restate {text shown : String}
    (h : restate format.encode format.decode text = some shown) :
    restate format.encode format.decode shown = some shown := by
  obtain ⟨x, hread, rfl⟩ := Option.map_eq_some_iff.mp h
  rw [restate, format.readAs_compact (format.fits_of_readAs hread)]
  rfl

end Format

/-! ## numbers, strings and lists -/

namespace Format

/-- A number of 64 bits has few enough digits to be written out. -/
theorem length_toDigits_le {number : Nat} (h : number ≤ maxPosition) :
    (Nat.toDigits 10 number).length ≤ maxNaturalDigits :=
  Nat.toDigits_length 10 number 20 (by decide) (Nat.lt_of_le_of_lt h (by decide))

theorem natural?_eq_some_iff {value : Value} {number : Nat} :
    value.natural? = some number ↔ value = .natural number ∧ number ≤ maxPosition := by
  unfold Value.natural?
  split <;> grind

/-- Numbers. -/
def natural : Format Nat where
  encode := .natural
  decode := Value.natural?
  Fits := (· ≤ maxPosition)
  plain _ := length_toDigits_le
  decode_encode _ fits := natural?_eq_some_iff.mpr ⟨rfl, fits⟩
  fits_of_decode _ _ h := (natural?_eq_some_iff.mp h).2

/-- Strings. -/
def text : Format String where
  encode := .text
  decode := Value.text?
  Fits _ := True
  plain _ _ := rfl
  decode_encode _ _ := rfl
  fits_of_decode _ _ _ := trivial

variable {α : Type}

theorem nullable?_of_ne_null {decode : Value → Option α} {value : Value} (h : value ≠ .null) :
    value.nullable? decode = (decode value).map some := by
  cases value with
  | null => contradiction
  | _ => rfl

/-- Values that may be missing, of a kind that is never shown as `null`. -/
def nullable (format : Format α) (h : ∀ x, format.encode x ≠ .null) : Format (Option α) where
  encode := Value.orNull format.encode
  decode := Value.nullable? format.decode
  Fits content := ∀ x ∈ content, format.Fits x
  plain content fits := by
    cases content with
    | none => trivial
    | some x => exact format.plain x (fits x rfl)
  decode_encode content fits := by
    cases content with
    | none => rfl
    | some x =>
        rw [Value.orNull, nullable?_of_ne_null (h x), format.decode_encode x (fits x rfl)]
        rfl
  fits_of_decode value content hdecode := by
    by_cases hnull : value = .null
    · rw [hnull, Value.nullable?, Option.some.injEq] at hdecode
      simp [← hdecode]
    · rw [nullable?_of_ne_null hnull] at hdecode
      obtain ⟨x, hx, rfl⟩ := Option.map_eq_some_iff.mp hdecode
      simpa using format.fits_of_decode value x hx

theorem mapM_map {format : Format α} {xs : List α} (fits : ∀ x ∈ xs, format.Fits x) :
    (xs.map format.encode).mapM format.decode = some xs := by
  induction xs with
  | nil => rfl
  | cons x xs ih =>
      obtain ⟨hx, hxs⟩ := List.forall_mem_cons.mp fits
      simp [List.mapM_cons, format.decode_encode x hx, ih hxs]

theorem fits_of_mapM {format : Format α} {items : List Value} {xs : List α}
    (h : items.mapM format.decode = some xs) : ∀ x ∈ xs, format.Fits x := by
  induction items generalizing xs with
  | nil =>
      have hnil : [] = xs := by simpa using h
      simp [← hnil]
  | cons item items ih =>
      rw [List.mapM_cons] at h
      obtain ⟨x, hx, h⟩ := Option.bind_eq_some_iff.mp h
      obtain ⟨others, hothers, h⟩ := Option.bind_eq_some_iff.mp h
      obtain rfl := Option.some.inj h
      exact List.forall_mem_cons.mpr ⟨format.fits_of_decode item x hx, ih hothers⟩

/-- Lists. -/
def list (format : Format α) : Format (List α) where
  encode xs := .array (xs.map format.encode)
  decode := Value.list? format.decode
  Fits xs := ∀ x ∈ xs, format.Fits x
  plain xs fits := plainItems_of_forall (by simpa using fun x hx => format.plain x (fits x hx))
  decode_encode _ fits := mapM_map fits
  fits_of_decode value xs h := by
    cases value with
    | array items => exact fits_of_mapM h
    | _ => contradiction

end Format

/-! ## records -/

/-- The members that have one of some names. -/
def named (names : List String) (members : List (String × Value)) : List (String × Value) :=
  members.filter fun member => names.contains member.1

theorem named_cons (names : List String) (key : String) (value : Value)
    (members : List (String × Value)) :
    named names ((key, value) :: members) =
      if key ∈ names then (key, value) :: named names members else named names members := by
  simp [named, List.filter_cons]

/-- A record gives its members with known names, unless two of them have the same. -/
theorem fields?_record (names : List String) (members : List (String × Value))
    (arrays : Completeness) :
    (Value.record members).fields? names arrays =
      if ((named names members).map Prod.fst).Nodup then some (named names members) else none := by
  rw [Value.record, Value.fields?]
  induction members with
  | nil => rfl
  | cons member members ih =>
      obtain ⟨key, value⟩ := member
      rw [List.map_cons, knownMembers, ih, named_cons]
      generalize named names members = fields
      have htaken : (fields.lookup key).isSome = true ↔ key ∈ fields.map Prod.fst := by
        simp [List.lookup_isSome_iff]
      have hnodup : (((key, value) :: fields).map Prod.fst).Nodup ↔
          key ∉ fields.map Prod.fst ∧ (fields.map Prod.fst).Nodup := List.nodup_cons
      by_cases hkey : key ∈ names
      · by_cases hold : (fields.map Prod.fst).Nodup
        · simp only [hkey, hold, htaken, hnodup, List.contains_iff_mem, ↓reduceIte, and_true]
          grind
        · simp only [hkey, hold, hnodup, ↓reduceIte, and_false]
      · by_cases hold : (fields.map Prod.fst).Nodup
        · simp only [hkey, hold, List.contains_iff_mem, ↓reduceIte]
        · simp only [hkey, hold, ↓reduceIte]

/-- A record has the fields that it was made of, if they are known and none is twice there. -/
theorem fields?_of_known {names : List String} {fields : Fields}
    (known : ∀ field ∈ fields, field.1 ∈ names) (nodup : (fields.map Prod.fst).Nodup)
    (arrays : Completeness) : (Value.record fields).fields? names arrays = some fields := by
  have hnamed : named names fields = fields := by simpa [named] using known
  rw [fields?_record, hnamed, if_pos nodup]

theorem Fields.field?_cons {α : Type} (key name : String) (value : Value) (fields : Fields)
    (decode : Value → Option α) :
    Fields.field? ((key, value) :: fields) name decode =
      if name = key then decode value else Fields.field? fields name decode := by
  by_cases h : name = key
  · simp [Fields.field?, h]
  · simp [Fields.field?, List.lookup_cons, beq_false_of_ne h, h]

theorem Fields.fieldOr_cons {α : Type} (key name : String) (value : Value) (fields : Fields)
    (decode : Value → Option α) (absent : α) :
    Fields.fieldOr ((key, value) :: fields) name decode absent =
      if name = key then decode value else Fields.fieldOr fields name decode absent := by
  by_cases h : name = key
  · simp [Fields.fieldOr, h]
  · simp [Fields.fieldOr, List.lookup_cons, beq_false_of_ne h, h]

/-- A field that is read has a value that its kind allows. -/
theorem Fields.field?_fits {α : Type} (format : Format α) {fields : Fields} {name : String} {x : α}
    (h : fields.field? name format.decode = some x) : format.Fits x := by
  obtain ⟨value, -, hvalue⟩ := Option.bind_eq_some_iff.mp h
  exact format.fits_of_decode value x hvalue

theorem Fields.fieldOr_fits {α : Type} (format : Format α) {fields : Fields} {name : String}
    {absent x : α} (h : fields.fieldOr name format.decode absent = some x)
    (fits : format.Fits absent) : format.Fits x := by
  unfold Fields.fieldOr at h
  split at h
  · exact Option.some.inj h ▸ fits
  · next value _ => exact format.fits_of_decode value x h

end Json

/-! ## anchors and their classes -/

theorem AnchorClass.ofName?_name (anchorClass : AnchorClass) :
    ofName? anchorClass.name = some anchorClass := by
  cases anchorClass <;> rfl

/-- Anchor classes. -/
def AnchorClass.format : Format AnchorClass where
  encode := toJson
  decode := ofJson?
  Fits _ := True
  plain _ _ := rfl
  decode_encode anchorClass _ := AnchorClass.ofName?_name anchorClass
  fits_of_decode _ _ _ := trivial

/-- An anchor counts at most so far as 64 bits allow. -/
def Anchor.Fits (anchor : Anchor) : Prop := anchor.offset ≤ maxPosition

theorem Anchor.ofClass_anchorClass (anchor : Anchor) :
    ofClass anchor.anchorClass anchor.offset = anchor := by
  cases anchor <;> rfl

theorem Anchor.ofJson?_toJson {anchor : Anchor} (fits : anchor.Fits) :
    ofJson? anchor.toJson = some anchor := by
  have hoffset := Format.natural?_eq_some_iff.mpr ⟨rfl, fits⟩
  simp only [toJson, Value.record, List.map_cons, List.map_nil, ofJson?, AnchorClass.ofName?_name,
    hoffset, ofClass_anchorClass]

theorem Anchor.fits_of_ofJson? {value : Value} {anchor : Anchor} (h : ofJson? value = some anchor) :
    anchor.Fits := by
  unfold ofJson? at h
  split at h
  · split at h
    · next anchorClass offset _ hoffset =>
        obtain rfl := Option.some.inj h
        have hbound := (Format.natural?_eq_some_iff.mp hoffset).2
        cases anchorClass <;> exact hbound
    · contradiction
  · contradiction

/-- Anchors. -/
def Anchor.format : Format Anchor where
  encode := toJson
  decode := ofJson?
  Fits := Fits
  plain _ fits := ⟨rfl, Format.length_toDigits_le fits, trivial⟩
  decode_encode _ := ofJson?_toJson
  fits_of_decode _ _ := fits_of_ofJson?

/-! ## findings and reports -/

/-- A finding's offset has at most 64 bits. -/
def Finding.Fits (finding : Finding) : Prop := finding.offset ≤ maxPosition

instance : DecidablePred Finding.Fits := fun finding =>
  inferInstanceAs (Decidable (finding.offset ≤ maxPosition))

theorem Finding.ofJson?_toJson {finding : Finding} (fits : finding.Fits) :
    ofJson? finding.toJson = some finding := by
  have hoffset := Format.natural?_eq_some_iff.mpr ⟨rfl, fits⟩
  have hidentifier : (Value.text finding.identifier).text? = some finding.identifier := rfl
  rw [ofJson?, toJson, fields?_of_known (by simp) (by simp)]
  simp [Fields.field?_cons, hidentifier, hoffset]

/-- Findings. -/
def Finding.format : Format Finding where
  encode := toJson
  decode := ofJson?
  Fits := Fits
  plain _ fits := ⟨rfl, rfl, rfl, Format.length_toDigits_le fits, trivial⟩
  decode_encode _ := ofJson?_toJson
  fits_of_decode value finding h := by
    obtain ⟨fields, -, h⟩ := Option.bind_eq_some_iff.mp h
    obtain ⟨identifier, -, h⟩ := Option.bind_eq_some_iff.mp h
    obtain ⟨offset, hoffset, h⟩ := Option.bind_eq_some_iff.mp h
    obtain rfl := Option.some.inj h
    exact Fields.field?_fits .natural hoffset

namespace Report

/-- The numbers of a report have at most 64 bits. -/
structure Fits (report : Report) : Prop where
  size : ∀ size ∈ report.size, size ≤ maxPosition
  bytesScanned : report.bytesScanned ≤ maxPosition
  findings : ∀ finding ∈ report.findings, finding.Fits

/-- Sizes that may be unknown. -/
def sizeFormat : Format (Option Nat) := Format.natural.nullable fun _ => nofun

/-- Errors, if there are any. -/
def errorFormat : Format (Option String) := Format.text.nullable fun _ => nofun

theorem ofJson?_toJson {report : Report} (fits : report.Fits) :
    ofJson? report.toJson = some report := by
  have hsource : (Value.text report.source).text? = some report.source := rfl
  have hsize : Value.nullable? Value.natural? (.orNull .natural report.size) = some report.size :=
    sizeFormat.decode_encode report.size fits.size
  have hbytes := Format.natural?_eq_some_iff.mpr ⟨rfl, fits.bytesScanned⟩
  have hfindings : Value.list? Finding.ofJson? (.array (report.findings.map Finding.toJson)) =
      some report.findings := Finding.format.list.decode_encode report.findings fits.findings
  have herror : Value.nullable? Value.text? (.orNull .text report.error) = some report.error :=
    errorFormat.decode_encode report.error fun _ _ => trivial
  rw [ofJson?, toJson, fields?_of_known (by simp [fieldNames]) (by simp)]
  simp [Fields.field?_cons, Fields.fieldOr_cons, hsource, hsize, hbytes, hfindings, herror]

/-- Reports. -/
def format : Format Report where
  encode := toJson
  decode := ofJson?
  Fits := Fits
  plain report fits := ⟨rfl, rfl, rfl, sizeFormat.plain report.size fits.size, rfl,
    Format.length_toDigits_le fits.bytesScanned, rfl,
    Finding.format.list.plain report.findings fits.findings, rfl,
    errorFormat.plain report.error fun _ _ => trivial, trivial⟩
  decode_encode _ := ofJson?_toJson
  fits_of_decode value report h := by
    obtain ⟨fields, -, h⟩ := Option.bind_eq_some_iff.mp h
    obtain ⟨source, -, h⟩ := Option.bind_eq_some_iff.mp h
    obtain ⟨size, hsize, h⟩ := Option.bind_eq_some_iff.mp h
    obtain ⟨bytesScanned, hbytes, h⟩ := Option.bind_eq_some_iff.mp h
    obtain ⟨findings, hfindings, h⟩ := Option.bind_eq_some_iff.mp h
    obtain ⟨error, -, h⟩ := Option.bind_eq_some_iff.mp h
    obtain rfl := Option.some.inj h
    exact {
      size := Fields.fieldOr_fits sizeFormat hsize nofun
      bytesScanned := Fields.field?_fits .natural hbytes
      findings := Fields.field?_fits Finding.format.list hfindings }

end Report

/-! ## what is written is read back -/

/-- Values that fit are read back from their texts without blanks, and to show again what
was read from any text changes nothing after the first time. -/
structure Json.Faithful {α : Type} (encode : α → Value) (decode : Value → Option α)
    (Fits : α → Prop) : Prop where
  reads_back : ∀ x, Fits x → readAs decode (encode x).compact = some x
  restates : ∀ text shown, restate encode decode text = some shown →
    restate encode decode shown = some shown

theorem Json.Format.faithful {α : Type} (format : Format α) :
    Faithful format.encode format.decode format.Fits where
  reads_back _ := format.readAs_compact
  restates _ _ := format.restate_restate

/-- **What is written as JSON is read back unchanged.**  So are the reports of a run, which
are shown over lines, and so is every anchor, class of anchors, finding and report. -/
theorem written_values_read_back :
    (∀ reports : List Report, (∀ report ∈ reports, report.Fits) →
      readAs (Value.list? Report.ofJson?) (Report.jsonText reports) = some reports) ∧
    Faithful Anchor.toJson Anchor.ofJson? Anchor.Fits ∧
    Faithful AnchorClass.toJson AnchorClass.ofJson? (fun _ => True) ∧
    Faithful Finding.toJson Finding.ofJson? Finding.Fits ∧
    Faithful Report.toJson Report.ofJson? Report.Fits :=
  ⟨fun _ fits => Report.format.list.readAs_pretty fits, Anchor.format.faithful,
    AnchorClass.format.faithful, Finding.format.faithful, Report.format.faithful⟩

/-- Reports with all that has to be escaped and the largest numbers, and without a size. -/
def hardReports : List Report := [
  { source := "dir\\\"quoted\"\n\x01é😀", size := some maxPosition, bytesScanned := maxPosition,
    findings := [⟨"", 0⟩, ⟨"\x1f/\\", maxPosition⟩] },
  { source := "", error := some "\t" }]

theorem written_values_read_back_sample :
    (∀ report ∈ hardReports, report.Fits) ∧
    readAs (Value.list? Report.ofJson?) (Report.jsonText hardReports) = some hardReports ∧
    (Anchor.fromEnd maxPosition).Fits ∧
    readAs Anchor.ofJson? (Anchor.fromEnd maxPosition).toJson.compact =
      some (.fromEnd maxPosition) ∧
    restate AnchorClass.toJson AnchorClass.ofJson? (Value.record [("FromEnd", .null)]).pretty =
      some AnchorClass.fromEnd.toJson.compact ∧
    restate AnchorClass.toJson AnchorClass.ofJson? AnchorClass.fromEnd.toJson.compact =
      some AnchorClass.fromEnd.toJson.compact := by
  have fits : ∀ report ∈ hardReports, report.Fits := List.forall_mem_cons.mpr
    ⟨⟨by decide, by decide, by decide⟩,
      List.forall_mem_singleton.mpr ⟨by decide, by decide, by decide⟩⟩
  have hanchor : (Anchor.fromEnd maxPosition).Fits := Nat.le_refl _
  have hplain : (Value.record [("FromEnd", .null)]).Plain := ⟨rfl, trivial, trivial⟩
  have hrestate : restate AnchorClass.toJson AnchorClass.ofJson?
      (Value.record [("FromEnd", .null)]).pretty = some AnchorClass.fromEnd.toJson.compact := by
    rw [restate, readAs, parse_pretty hplain]
    rfl
  obtain ⟨hreports, hanchors, hclasses, -⟩ := written_values_read_back
  exact ⟨fits, hreports _ fits, hanchor, hanchors.reads_back _ hanchor, hrestate,
    hclasses.restates _ _ hrestate⟩

end AnchorScan
