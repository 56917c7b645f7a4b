import AnchorScan.Proofs.JsonRecords
import AnchorScan.Proofs.Writing
import AnchorScan.Settings

/-!
# AnchorScan.Proofs.SettingsFile

Configuration files mention some of the settings and leave the others as they are.

* `Kind` and `kinds`: the kinds of values that settings have;
* `WellTyped`: a document mentions no setting twice, and each with a value of its kind;
* `Overrides`: settings are as a document mentions them, and otherwise as before;
* `WellTyped.exists_ofJson?` and `wellTyped_of_ofJson?`: such documents are read, and no others;
* `Fits.ofJson?_toJson`: settings that were written are read back;
* `Settings.load_exact`: what loading a configuration file gives and refuses.
-/

namespace AnchorScan

open Json

/-! ## texts as octets -/

/-- The octets of a text are those of no other text. -/
theorem fromUTF8?_octets (text : String) :
    String.fromUTF8? (octets text).toByteArray = some text := by
  have hoctets : (octets text).toByteArray = text.toByteArray := by
    apply ByteArray.ext
    rw [List.data_toByteArray, octets, String.toUTF8_eq_toByteArray, Array.toArray_toList]
  rw [hoctets, String.fromUTF8?, dif_pos text.isValidUTF8]
  rfl

/-! ## members of a record -/

namespace Json

theorem lookup_cons_of_ne {name key : String} (h : name ≠ key) (value : Value)
    (members : List (String × Value)) :
    ((key, value) :: members).lookup name = members.lookup name := by
  rw [List.lookup_cons, beq_false_of_ne h]

theorem lookup_named {names : List String} {name : String} (h : name ∈ names)
    (members : List (String × Value)) :
    (named names members).lookup name = members.lookup name := by
  induction members with
  | nil => rfl
  | cons member members ih =>
      obtain ⟨key, value⟩ := member
      rw [named_cons]
      by_cases hkey : name = key
      · simp [← hkey, h]
      · rw [lookup_cons_of_ne hkey, ← ih]
        split
        · exact lookup_cons_of_ne hkey value _
        · rfl

/-- Where no name is there twice, a member is found by its name. -/
theorem lookup_eq_some_iff {members : List (String × Value)}
    (nodup : (members.map Prod.fst).Nodup) {name : String} {value : Value} :
    members.lookup name = some value ↔ (name, value) ∈ members := by
  induction members with
  | nil => simp
  | cons member members ih =>
      obtain ⟨key, other⟩ := member
      obtain ⟨hnew, hnodup⟩ := List.nodup_cons.mp nodup
      by_cases hkey : name = key
      · have hnot : (name, value) ∉ members :=
          fun h => hnew (List.mem_map.mpr ⟨(name, value), h, hkey⟩)
        simp [hkey ▸ hnot, hkey, eq_comm]
      · rw [lookup_cons_of_ne hkey, ih hnodup]
        simp [hkey]

/-- Members with different names among some. -/
theorem nodup_named_iff {names : List String} {members : List (String × Value)} :
    ((named names members).map Prod.fst).Nodup ↔
      ∀ name ∈ names, (members.map Prod.fst).count name ≤ 1 := by
  have hkeys : (named names members).map Prod.fst =
      (members.map Prod.fst).filter (names.contains ·) := by
    rw [List.filter_map]
    rfl
  rw [hkeys, List.nodup_iff_count]
  constructor
  · intro h name hname
    have hcount := h name
    rwa [List.count_filter (by simpa using hname)] at hcount
  · intro h name
    by_cases hname : name ∈ names
    · rw [List.count_filter (by simpa using hname)]
      exact h name hname
    · have hnone : name ∉ (members.map Prod.fst).filter (names.contains ·) := by simp [hname]
      rw [List.count_eq_zero_of_not_mem hnone]
      exact Nat.zero_le 1

section

variable {α : Type} {fields : Fields} {name : String} {decode : Value → Option α} {absent : α}

theorem Fields.fieldOr_of_lookup {value : Value} (h : fields.lookup name = some value) :
    fields.fieldOr name decode absent = decode value := by
  rw [Fields.fieldOr, h]

/-- A field is read if it is not there, or there with a value of its kind. -/
theorem Fields.exists_fieldOr
    (h : ∀ value, fields.lookup name = some value → ∃ x, decode value = some x) :
    ∃ x, fields.fieldOr name decode absent = some x := by
  cases hlookup : fields.lookup name with
  | none => exact ⟨absent, by rw [Fields.fieldOr, hlookup]⟩
  | some value =>
      obtain ⟨x, hx⟩ := h value hlookup
      exact ⟨x, by rw [Fields.fieldOr_of_lookup hlookup, hx]⟩

/-- What is read is shown as the member that is there, or as what stands for it. -/
theorem Fields.lookup_or_of_fieldOr {encode : α → Value} {x : α}
    (exact : ∀ value, decode value = some x → value = encode x)
    (h : fields.fieldOr name decode absent = some x) :
    some (encode x) = (fields.lookup name).or (some (encode absent)) := by
  cases hlookup : fields.lookup name with
  | none =>
      rw [Fields.fieldOr, hlookup] at h
      rw [Option.none_or, ← Option.some.inj h]
  | some value =>
      rw [Fields.fieldOr_of_lookup hlookup] at h
      rw [Option.some_or, exact value h]

end

theorem text?_eq_some_iff {value : Value} {content : String} :
    value.text? = some content ↔ value = .text content := by
  unfold Value.text?
  split <;> grind [Value.text]

theorem bool?_eq_some_iff {value : Value} {choice : Bool} :
    value.bool? = some choice ↔ value = .bool choice := by
  unfold Value.bool?
  split <;> grind

end Json

namespace Settings

/-! ## what a document mentions -/

/-- What kind of value a setting has. -/
inductive Kind where
  | text
  /-- A number of 64 bits. -/
  | number
  | flag
  deriving DecidableEq

/-- The documents that are values of a kind. -/
def Kind.Admits : Kind → Value → Prop
  | text, value => ∃ content, value = .text content
  | number, value => ∃ n ≤ maxPosition, value = .natural n
  | flag, value => ∃ choice, value = .bool choice

/-- The kinds of the settings. -/
def kinds : List (String × Kind) :=
  [("signatures_file", .text), ("scan_buffer_size", .number), ("threads", .number),
    ("json_output", .flag), ("enable_progress_bars", .flag)]

/-- A document mentions no setting twice, and each with a value of its kind. -/
structure WellTyped (members : List (String × Value)) : Prop where
  once : ∀ name ∈ fieldNames, (members.map Prod.fst).count name ≤ 1
  admits : ∀ name kind, (name, kind) ∈ kinds → ∀ value, (name, value) ∈ members → kind.Admits value

/-- The settings with their names, as documents. -/
def shown (settings : Settings) : List (String × Value) :=
  [("signatures_file", .text settings.signaturesFile),
    ("scan_buffer_size", .natural settings.bufferSize),
    ("threads", .natural settings.threads),
    ("json_output", .bool settings.jsonOutput),
    ("enable_progress_bars", .bool settings.progressBars)]

/-- Settings are as a document mentions them, and where it does not, as others are. -/
def Overrides (members : List (String × Value)) (others settings : Settings) : Prop :=
  ∀ name ∈ fieldNames,
    settings.shown.lookup name = (members.lookup name).or (others.shown.lookup name)

/-! ### kinds of values -/

theorem admits_text_iff {value : Value} :
    Kind.text.Admits value ↔ ∃ content, value.text? = some content := by
  simp only [Kind.Admits, text?_eq_some_iff]

theorem admits_number_iff {value : Value} :
    Kind.number.Admits value ↔ ∃ n, value.natural? = some n := by
  simp only [Kind.Admits, Format.natural?_eq_some_iff, and_comm]

theorem admits_flag_iff {value : Value} :
    Kind.flag.Admits value ↔ ∃ choice, value.bool? = some choice := by
  simp only [Kind.Admits, bool?_eq_some_iff]

/-! ### reading what is mentioned -/

/-- Settings are read from fields, each from its own. -/
structure ReadFrom (fields : Json.Fields) (absent settings : Settings) : Prop where
  signaturesFile : fields.fieldOr "signatures_file" Value.text? absent.signaturesFile =
    some settings.signaturesFile
  bufferSize : fields.fieldOr "scan_buffer_size" Value.natural? absent.bufferSize =
    some settings.bufferSize
  threads : fields.fieldOr "threads" Value.natural? absent.threads = some settings.threads
  jsonOutput : fields.fieldOr "json_output" Value.bool? absent.jsonOutput = some settings.jsonOutput
  progressBars : fields.fieldOr "enable_progress_bars" Value.bool? absent.progressBars =
    some settings.progressBars

section

variable {members : List (String × Value)} {absent settings : Settings}

/-- Settings are read from a record whose known members have different names. -/
theorem ofJson?_record_eq_some_iff :
    ofJson? absent (.record members) = some settings ↔
      ((named fieldNames members).map Prod.fst).Nodup ∧
        ReadFrom (named fieldNames members) absent settings := by
  rw [ofJson?, fields?_record]
  constructor
  · intro h
    obtain ⟨fields, hfields, h⟩ := Option.bind_eq_some_iff.mp h
    obtain ⟨signaturesFile, hsignaturesFile, h⟩ := Option.bind_eq_some_iff.mp h
    obtain ⟨bufferSize, hbufferSize, h⟩ := Option.bind_eq_some_iff.mp h
    obtain ⟨threads, hthreads, h⟩ := Option.bind_eq_some_iff.mp h
    obtain ⟨jsonOutput, hjsonOutput, h⟩ := Option.bind_eq_some_iff.mp h
    obtain ⟨progressBars, hprogressBars, h⟩ := Option.bind_eq_some_iff.mp h
    obtain rfl := Option.some.inj h
    split at hfields
    · next hnodup =>
      obtain rfl := Option.some.inj hfields
      exact ⟨hnodup, hsignaturesFile, hbufferSize, hthreads, hjsonOutput, hprogressBars⟩
    · contradiction
  · rintro ⟨hnodup, reads⟩
    simp [hnodup, reads.signaturesFile, reads.bufferSize, reads.threads, reads.jsonOutput,
      reads.progressBars]

/-- A setting is read from every document that mentions it well. -/
theorem WellTyped.exists_fieldOr (wellTyped : WellTyped members) (name : String) (kind : Kind)
    (hkind : (name, kind) ∈ kinds) {α : Type} {decode : Value → Option α}
    (reads : ∀ value, kind.Admits value → ∃ x, decode value = some x) (absent : α) :
    ∃ x, Json.Fields.fieldOr (named fieldNames members) name decode absent = some x := by
  refine Json.Fields.exists_fieldOr fun value h => reads value ?_
  rw [lookup_eq_some_iff (nodup_named_iff.mpr wellTyped.once)] at h
  exact wellTyped.admits name kind hkind value (List.mem_of_mem_filter h)

/-- So are all settings. -/
theorem WellTyped.exists_ofJson? (wellTyped : WellTyped members) (absent : Settings) :
    ∃ settings, ofJson? absent (.record members) = some settings := by
  obtain ⟨signaturesFile, hsignaturesFile⟩ := wellTyped.exists_fieldOr "signatures_file" .text
    (by decide) (fun _ => admits_text_iff.mp) absent.signaturesFile
  obtain ⟨bufferSize, hbufferSize⟩ := wellTyped.exists_fieldOr "scan_buffer_size" .number
    (by decide) (fun _ => admits_number_iff.mp) absent.bufferSize
  obtain ⟨threads, hthreads⟩ := wellTyped.exists_fieldOr "threads" .number
    (by decide) (fun _ => admits_number_iff.mp) absent.threads
  obtain ⟨jsonOutput, hjsonOutput⟩ := wellTyped.exists_fieldOr "json_output" .flag
    (by decide) (fun _ => admits_flag_iff.mp) absent.jsonOutput
  obtain ⟨progressBars, hprogressBars⟩ := wellTyped.exists_fieldOr "enable_progress_bars" .flag
    (by decide) (fun _ => admits_flag_iff.mp) absent.progressBars
  exact ⟨⟨signaturesFile, bufferSize, threads, jsonOutput, progressBars⟩,
    ofJson?_record_eq_some_iff.mpr ⟨nodup_named_iff.mpr wellTyped.once,
      hsignaturesFile, hbufferSize, hthreads, hjsonOutput, hprogressBars⟩⟩

/-- Settings are read from no other documents. -/
theorem wellTyped_of_ofJson? (h : ofJson? absent (.record members) = some settings) :
    WellTyped members := by
  obtain ⟨hnodup, reads⟩ := ofJson?_record_eq_some_iff.mp h
  refine ⟨nodup_named_iff.mp hnodup, fun name kind hkind value hmem => ?_⟩
  have hname : name ∈ fieldNames := List.mem_map_of_mem (f := Prod.fst) hkind
  have hlookup : (named fieldNames members).lookup name = some value :=
    (lookup_eq_some_iff hnodup).mpr (List.mem_filter.mpr ⟨hmem, by simpa using hname⟩)
  simp only [kinds, List.mem_cons, Prod.mk.injEq, List.not_mem_nil, or_false] at hkind
  rcases hkind with ⟨rfl, rfl⟩ | ⟨rfl, rfl⟩ | ⟨rfl, rfl⟩ | ⟨rfl, rfl⟩ | ⟨rfl, rfl⟩
  · exact admits_text_iff.mpr ⟨_, Json.Fields.fieldOr_of_lookup hlookup ▸ reads.signaturesFile⟩
  · exact admits_number_iff.mpr ⟨_, Json.Fields.fieldOr_of_lookup hlookup ▸ reads.bufferSize⟩
  · exact admits_number_iff.mpr ⟨_, Json.Fields.fieldOr_of_lookup hlookup ▸ reads.threads⟩
  · exact admits_flag_iff.mpr ⟨_, Json.Fields.fieldOr_of_lookup hlookup ▸ reads.jsonOutput⟩
  · exact admits_flag_iff.mpr ⟨_, Json.Fields.fieldOr_of_lookup hlookup ▸ reads.progressBars⟩

/-- Settings that are read are as the document mentions them. -/
theorem overrides_of_ofJson? (h : ofJson? absent (.record members) = some settings) :
    Overrides members absent settings := by
  obtain ⟨-, reads⟩ := ofJson?_record_eq_some_iff.mp h
  intro name hname
  have hnatural (n : Nat) (value : Value) (h : value.natural? = some n) : value = .natural n :=
    (Format.natural?_eq_some_iff.mp h).1
  rw [← lookup_named hname members]
  simp only [fieldNames, List.mem_cons, List.not_mem_nil, or_false] at hname
  rcases hname with rfl | rfl | rfl | rfl | rfl
  · exact Json.Fields.lookup_or_of_fieldOr (fun _ => text?_eq_some_iff.mp) reads.signaturesFile
  · exact Json.Fields.lookup_or_of_fieldOr (hnatural _) reads.bufferSize
  · exact Json.Fields.lookup_or_of_fieldOr (hnatural _) reads.threads
  · exact Json.Fields.lookup_or_of_fieldOr (fun _ => bool?_eq_some_iff.mp) reads.jsonOutput
  · exact Json.Fields.lookup_or_of_fieldOr (fun _ => bool?_eq_some_iff.mp) reads.progressBars

end

/-! ## settings that were written -/

/-- The numbers among settings have at most 64 bits. -/
structure Fits (settings : Settings) : Prop where
  bufferSize : settings.bufferSize ≤ maxPosition
  threads : settings.threads ≤ maxPosition

theorem Fits.plain {settings : Settings} (fits : settings.Fits) : settings.toJson.Plain :=
  ⟨rfl, rfl, rfl, Format.length_toDigits_le fits.bufferSize, rfl,
    Format.length_toDigits_le fits.threads, rfl, trivial, rfl, trivial, trivial⟩

/-- Settings that were written are read, whatever stands for those that are not mentioned. -/
theorem Fits.ofJson?_toJson {settings : Settings} (fits : settings.Fits) (absent : Settings) :
    ofJson? absent settings.toJson = some settings := by
  have hfile := text?_eq_some_iff.mpr (rfl (a := Value.text settings.signaturesFile))
  have hsize := Format.natural?_eq_some_iff.mpr ⟨rfl, fits.bufferSize⟩
  have hthreads := Format.natural?_eq_some_iff.mpr ⟨rfl, fits.threads⟩
  rw [ofJson?, toJson, fields?_of_known (by simp [fieldNames]) (by simp)]
  simp [Fields.fieldOr_cons, hfile, hsize, hthreads, Value.bool?]

theorem fits_of_ofJson? {members : List (String × Value)} {absent settings : Settings}
    (h : ofJson? absent (.record members) = some settings) (fits : absent.Fits) :
    settings.Fits := by
  obtain ⟨-, reads⟩ := ofJson?_record_eq_some_iff.mp h
  exact ⟨Fields.fieldOr_fits .natural reads.bufferSize fits.bufferSize,
    Fields.fieldOr_fits .natural reads.threads fits.threads⟩

/-! ## loading -/

/-- What is said to settings that were asked for: the buffer size is checked first, then the
number of threads. -/
structure Judged (settings : Settings) (reply : Except Failure Settings) : Prop where
  usable : 0 < settings.bufferSize ∧ settings.bufferSize ≤ maxBufferSize → 0 < settings.threads →
    reply = .ok settings
  unusableSize : ¬ (0 < settings.bufferSize ∧ settings.bufferSize ≤ maxBufferSize) →
    reply = .error (.unusableBufferSize settings.bufferSize)
  noThreads : 0 < settings.bufferSize ∧ settings.bufferSize ≤ maxBufferSize →
    settings.threads = 0 → ∃ reason, reply = .error (.unusableSettings reason)

theorem judged_check (settings : Settings) :
    Judged settings (settings.check.map fun _ => settings) := by
  refine ⟨fun hsize hthreads => ?_, fun hsize => ?_, fun hsize hthreads => ?_⟩
  · rw [check, BufferSize.ofNat, dif_pos hsize]
    simp only [if_neg hthreads.ne', Except.map]
  · rw [check, BufferSize.ofNat, dif_neg hsize]
    rfl
  · rw [check, BufferSize.ofNat, dif_pos hsize]
    simp only [if_pos hthreads, Except.map]
    exact ⟨_, rfl⟩

/-- Settings that are shown alike are the same. -/
theorem eq_of_lookup_shown {settings other : Settings}
    (h : ∀ name ∈ fieldNames, settings.shown.lookup name = other.shown.lookup name) :
    settings = other := by
  have hfile : some (Value.text settings.signaturesFile) = some (.text other.signaturesFile) :=
    h "signatures_file" (by decide)
  have hsize : some (Value.natural settings.bufferSize) = some (.natural other.bufferSize) :=
    h "scan_buffer_size" (by decide)
  have hthreads : some (Value.natural settings.threads) = some (.natural other.threads) :=
    h "threads" (by decide)
  have hjson : some (Value.bool settings.jsonOutput) = some (.bool other.jsonOutput) :=
    h "json_output" (by decide)
  have hbars : some (Value.bool settings.progressBars) = some (.bool other.progressBars) :=
    h "enable_progress_bars" (by decide)
  cases settings
  cases other
  grind [Value.text]

/-- A document that mentions the settings well says which ones are meant. -/
theorem WellTyped.exists_overrides {members : List (String × Value)} (wellTyped : WellTyped members)
    (absent : Settings) :
    ∃ settings, ofJson? absent (.record members) = some settings ∧
      ∀ other, Overrides members absent other ↔ other = settings := by
  obtain ⟨settings, hread⟩ := wellTyped.exists_ofJson? absent
  have hoverrides := overrides_of_ofJson? hread
  refine ⟨settings, hread, fun other => ⟨fun h => ?_, fun h => h ▸ hoverrides⟩⟩
  exact eq_of_lookup_shown fun name hname => (h name hname).trans (hoverrides name hname).symm

section

variable {processors : Nat} {text : String} {members : List (String × Value)}

/-- Settings that are read from a file are checked. -/
theorem load_octets_of_read (holds : HoldsPadded text.toList (.record members))
    {settings : Settings} (h : ofJson? (standard processors) (.record members) = some settings) :
    load processors (.ok (octets text)) = settings.check.map fun _ => settings := by
  have hparse : parse text = some (.record members) := read_of_holdsPadded holds
  simp only [load, fromUTF8?_octets, ofText, hparse, h]

theorem load_octets_of_unread (holds : HoldsPadded text.toList (.record members))
    (h : ofJson? (standard processors) (.record members) = none) :
    ∃ reason, load processors (.ok (octets text)) = .error (.unreadableSettings reason) := by
  have hparse : parse text = some (.record members) := read_of_holdsPadded holds
  simp only [load, fromUTF8?_octets, ofText, hparse, h]
  exact ⟨_, rfl⟩

/-- Settings that were loaded are loaded again from each text that holds them. -/
theorem load_octets_again {settings : Settings} (fits : settings.Fits)
    (h : (settings.check.map fun _ => settings) = .ok settings)
    (hparse : parse text = some settings.toJson) :
    load processors (.ok (octets text)) = .ok settings := by
  simp only [load, fromUTF8?_octets, ofText, hparse, fits.ofJson?_toJson, h]

end

/-- Loading brings what was read. -/
theorem eq_of_check_map {settings loaded : Settings}
    (h : (settings.check.map fun _ => settings) = .ok loaded) : settings = loaded := by
  cases hcheck : settings.check with
  | error failure => simp [hcheck, Except.map] at h
  | ok buffer => simpa [hcheck, Except.map] using h

/-- **Loading a configuration file.**  Whatever the layout and the order of the document and
whatever else it holds: if it mentions the settings well, the settings that are meant are
checked, and if not, it is refused.  Loaded settings are loaded again from the texts that they
are written as, on any machine. -/
theorem load_exact (processors : Nat) {text : String} {members : List (String × Value)}
    (holds : HoldsPadded text.toList (.record members)) :
    (WellTyped members → ∃ settings,
      (∀ other, Overrides members (standard processors) other ↔ other = settings) ∧
      Judged settings (load processors (.ok (octets text)))) ∧
    (¬ WellTyped members → ∃ reason,
      load processors (.ok (octets text)) = .error (.unreadableSettings reason)) ∧
    (processors ≤ maxPosition → ∀ settings, load processors (.ok (octets text)) = .ok settings →
      ∀ elsewhere, load elsewhere (.ok (octets settings.toJson.compact)) = .ok settings ∧
        load elsewhere (.ok (octets settings.toJson.pretty)) = .ok settings) := by
  refine ⟨fun wellTyped => ?_, fun hill => ?_, fun hfits settings hload elsewhere => ?_⟩
  · obtain ⟨settings, hread, hmeant⟩ := wellTyped.exists_overrides (standard processors)
    refine ⟨settings, hmeant, ?_⟩
    rw [load_octets_of_read holds hread]
    exact judged_check settings
  · cases hread : ofJson? (standard processors) (.record members) with
    | none => exact load_octets_of_unread holds hread
    | some settings => exact absurd (wellTyped_of_ofJson? hread) hill
  · cases hread : ofJson? (standard processors) (.record members) with
    | none =>
        obtain ⟨reason, hrefused⟩ := load_octets_of_unread holds hread
        rw [hrefused] at hload
        contradiction
    | some read =>
        rw [load_octets_of_read holds hread] at hload
        obtain rfl := eq_of_check_map hload
        have hstandard : (standard processors).bufferSize ≤ maxPosition := of_decide_eq_true rfl
        have fits := fits_of_ofJson? hread ⟨hstandard, hfits⟩
        exact ⟨load_octets_again fits hload (parse_compact fits.plain),
          load_octets_again fits hload (parse_pretty fits.plain)⟩

/-- A file with something unknown in it, white space, and a setting whose name is escaped. -/
theorem load_exact_escaped_name :
    HoldsPadded "\x7b\"x\" : [null],\n\"thr\\u0065ads\":2\x7d".toList
        (.record [("x", .array [.null]), ("threads", .natural 2)]) ∧
      8 ≤ maxPosition ∧
      load 8 (.ok (octets "\x7b\"x\" : [null],\n\"thr\\u0065ads\":2\x7d")) =
        .ok { standard 8 with threads := 2 } ∧
      ∀ elsewhere, load elsewhere (.ok (octets { standard 8 with threads := 2 }.toJson.compact)) =
        .ok { standard 8 with threads := 2 } := by
  have hblank : Blank [' '] := List.all_eq_true.mp rfl
  have hbreak : Blank ['\n'] := List.all_eq_true.mp rfl
  have hx : Quoted ['x'] ['x'] := .plain (by decide) (by decide) (by decide) .nil
  have he : UnitText ['0', '0', '6', '5'] 'e'.toNat :=
    .intro (x := 0) (y := 0) (z := 6) (w := 5) (by decide) (by decide) (by decide) (by decide)
  have hads : Quoted ['a', 'd', 's'] ['a', 'd', 's'] :=
    .plain (by decide) (by decide) (by decide) <| .plain (by decide) (by decide) (by decide) <|
      .plain (by decide) (by decide) (by decide) .nil
  have hthreads : Quoted "thr\\u0065ads".toList "threads".toList :=
    .plain (by decide) (by decide) (by decide) <| .plain (by decide) (by decide) (by decide) <|
      .plain (by decide) (by decide) (by decide) <| .unit he hads
  have hlist : HoldsPadded ([' '] ++ ("[null]".toList ++ [])) (.array [.null]) :=
    .intro hblank (.array (.last (.intro blank_nil .null blank_nil))) blank_nil
  have htwo : HoldsPadded ([] ++ (['2'] ++ [])) (.natural 2) :=
    .intro blank_nil (.number (.ofNat 2)) blank_nil
  have holds : HoldsPadded "\x7b\"x\" : [null],\n\"thr\\u0065ads\":2\x7d".toList
      (.record [("x", .array [.null]), ("threads", .natural 2)]) :=
    .intro blank_nil (.object (.more (.intro blank_nil hx hblank hlist)
      (.last (.intro hbreak hthreads blank_nil htwo)))) blank_nil
  have wellTyped : WellTyped [("x", .array [.null]), ("threads", .natural 2)] := by
    refine ⟨by decide, fun name kind hkind value hmem => ?_⟩
    simp only [List.mem_cons, Prod.mk.injEq, List.not_mem_nil, or_false] at hmem
    rcases hmem with ⟨rfl, rfl⟩ | ⟨rfl, rfl⟩
    · simp [kinds] at hkind
    · obtain rfl : kind = .number := by simpa [kinds] using hkind
      exact ⟨2, by decide, rfl⟩
  obtain ⟨hwell, -, hagain⟩ := load_exact 8 holds
  obtain ⟨settings, hmeant, judged⟩ := hwell wellTyped
  have hoverrides : Overrides [("x", .array [.null]), ("threads", .natural 2)] (standard 8)
      { standard 8 with threads := 2 } := by
    intro name hname
    simp only [fieldNames, List.mem_cons, List.not_mem_nil, or_false] at hname
    rcases hname with rfl | rfl | rfl | rfl | rfl <;> rfl
  obtain rfl := (hmeant _).mp hoverrides
  have hload := judged.usable ⟨by decide, by decide⟩ (by decide)
  exact ⟨holds, by decide, hload, fun elsewhere => (hagain (by decide) _ hload elsewhere).1⟩

end Settings

end AnchorScan
