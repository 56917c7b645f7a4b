import AnchorScan.Proofs.FileText
import AnchorScan.Proofs.LogLines

/-!
# AnchorScan.Proofs.Warnings

Warnings of patterns that end in a bare blank.  The warning looks at a pattern as it
is written, before anybody knows whether it can be read; since no escape is written
with a blank at its end, the last octet of a pattern that can be read is then a blank
that stands for itself.

* `HasPattern`: the fields before a pattern are right, `hasPattern_iff` says that
  these are the lines whose fields can be told apart;
* `Entry.EndsInBlank`: a line calls for a warning, `Entry.warning?_eq_some_iff`;
* `Entry.warning?_eq_some_iff_endsInBare`: what the warning means for a pattern that
  can be read;
* `Reading.log_ofText_exact`: a file warns of the lines that call for it, up to the
  first that fails, and of nothing else.
-/

namespace AnchorScan

/-! ## the text of a pattern -/

/-- The identifier and the offset of a line are right, and `pattern` is what stands
behind them and their blanks. -/
inductive HasPattern : Bytes → String → Bytes → Prop
  | intro (opening : Opening) (offset : Numeral) (gap : Stretch isBlank) {pattern : Bytes}
      (whole : ¬ Begins isBlank pattern) :
      HasPattern (opening.text ++ (offset.digits.octets ++ (gap.octets ++ pattern)))
        (octetText opening.name.octets) pattern

/-- Once its fields are told apart, only the pattern of a line can be wrong. -/
theorem Fields.definition_eq_error {fields : Fields} {fault : LineFault}
    (h : fields.definition = .error fault) :
    fault = .emptyPattern ∨ ∃ escape, fault = .escape escape := by
  unfold definition at h
  split at h
  · next escape _ =>
    cases h
    exact .inr ⟨escape, rfl⟩
  · cases h
    exact .inl rfl
  · cases h

theorem hasPattern_of_readFields {line : Bytes} {fields : Fields} (h : readFields line = .ok fields) :
    HasPattern line fields.identifier fields.pattern := by
  rcases exists_written_or_faulty line with ⟨written, rfl⟩ | ⟨fault, faulty⟩
  · rw [WrittenLine.text, readFields_offset _ _ _ written.bare] at h
    cases h
    exact .intro written.opening written.offset written.gap written.bare
  · have hdefinition : fields.definition = .error fault := by
      have hread := faulty.readLine_eq
      rwa [readLine, h] at hread
    -- any other fault would have shown before the pattern
    obtain rfl | ⟨escape, rfl⟩ := Fields.definition_eq_error hdefinition
    · cases faulty with
      | emptyPattern opening offset gap =>
          have hnothing : ¬ Begins isBlank [] := Bool.false_ne_true
          have hread := readFields_offset opening offset gap hnothing
          rw [List.append_nil, h] at hread
          cases hread
          rw [← List.append_nil gap.octets]
          exact .intro opening offset gap hnothing
    · cases faulty with
      | escape opening offset gap tokens whole wrong =>
          rw [readFields_offset opening offset gap whole] at h
          cases h
          exact .intro opening offset gap whole

/-- **The fields of a line can be told apart if those before its pattern are right.** -/
theorem hasPattern_iff {line : Bytes} {identifier : String} {pattern : Bytes} :
    HasPattern line identifier pattern ↔
      ∃ fields, readFields line = .ok fields ∧ fields.identifier = identifier ∧
        fields.pattern = pattern := by
  constructor
  · rintro ⟨opening, offset, gap, whole⟩
    exact ⟨_, readFields_offset opening offset gap whole, rfl, rfl⟩
  · rintro ⟨fields, hread, rfl, rfl⟩
    exact hasPattern_of_readFields hread

/-! ## lines that call for a warning -/

/-- A pattern ends in a blank if a blank stands behind the rest of it. -/
theorem getLast?_isBlank_iff {pattern : Bytes} : pattern.getLast?.any isBlank = true ↔
    ∃ front blank, pattern = front ++ [blank] ∧ isBlank blank = true := by
  simp only [Option.any_eq_true, List.getLast?_eq_some_iff]
  constructor
  · rintro ⟨blank, ⟨front, rfl⟩, hblank⟩
    exact ⟨front, blank, rfl, hblank⟩
  · rintro ⟨front, blank, rfl, hblank⟩
    exact ⟨blank, ⟨front, rfl⟩, hblank⟩

namespace Entry

/-- The pattern of an entry, as it is written, ends in a blank. -/
def EndsInBlank (entry : Entry) (identifier : String) : Prop :=
  ∃ front blank, HasPattern entry.octets identifier (front ++ [blank]) ∧ isBlank blank = true

/-- The warning that reading an entry brings. -/
def warning? (entry : Entry) : Option Event :=
  match readFields entry.octets with
  | .error _ => none
  | .ok fields => if fields.endsInBlank then some (.trailingBlank fields.identifier) else none

/-- An entry brings a warning, with its identifier, if its pattern ends in a blank. -/
theorem warning?_eq_some_iff {entry : Entry} {event : Event} :
    entry.warning? = some event ↔
      ∃ identifier, entry.EndsInBlank identifier ∧ event = .trailingBlank identifier := by
  unfold warning? EndsInBlank
  simp only [hasPattern_iff]
  constructor
  · intro h
    split at h
    · cases h
    · next fields hread =>
      obtain ⟨hends, hevent⟩ := Option.ite_none_right_eq_some.mp h
      obtain ⟨front, blank, hpattern, hblank⟩ := getLast?_isBlank_iff.mp hends
      exact ⟨_, ⟨front, blank, ⟨fields, hread, rfl, hpattern⟩, hblank⟩, (Option.some.inj hevent).symm⟩
  · rintro ⟨identifier, ⟨front, blank, ⟨fields, hread, rfl, hpattern⟩, hblank⟩, rfl⟩
    rw [hread]
    exact if_pos (getLast?_isBlank_iff.mpr ⟨front, blank, hpattern, hblank⟩)

/-- The line of a warning names the identifier, at level warn. -/
theorem logLine_of_warning? {entry : Entry} {event : Event} (h : entry.warning? = some event) :
    ∃ identifier, entry.EndsInBlank identifier ∧ event.logLine = ⟨.warn, "Pattern of " ++
      identifier ++ " ends in unescaped whitespace, which is matched literally"⟩ := by
  obtain ⟨identifier, hends, rfl⟩ := warning?_eq_some_iff.mp h
  exact ⟨identifier, hends, rfl⟩

/-- A pattern that does not end in a blank brings no warning. -/
theorem warning?_eq_none {entry : Entry} {identifier : String} {pattern : Bytes}
    (h : HasPattern entry.octets identifier pattern) (hends : pattern.getLast?.any isBlank = false) :
    entry.warning? = none := by
  obtain ⟨fields, hread, -, rfl⟩ := hasPattern_iff.mp h
  unfold warning?
  rw [hread]
  exact if_neg (Bool.eq_false_iff.mp hends)

theorem toList_warning? {entry : Entry} {fields : Fields} (h : readFields entry.octets = .ok fields) :
    entry.warning?.toList = fields.warnings := by
  unfold warning? Fields.warnings
  rw [h]
  dsimp only
  split <;> rfl

end Entry

/-! ## blanks that stand for themselves -/

namespace Token

/-- The token is a blank that stands for itself. -/
def IsBare : Token → Prop
  | plain octet _ => isBlank octet = true
  | letter .. => False
  | hex .. => False

/-- The token is an escape. -/
def IsEscape : Token → Prop
  | plain .. => False
  | letter .. => True
  | hex .. => True

theorem IsEscape.not_isBare {token : Token} (h : token.IsEscape) : ¬ token.IsBare := by
  cases token with
  | plain => cases h
  | letter => exact id
  | hex => exact id

/-- No letter of an escape is a blank. -/
theorem isBlank_letter {letter value : UInt8} (known : (letter, value) ∈ letterEscapes) :
    isBlank letter = false := by
  have hall : letterEscapes.all (fun pair => !isBlank pair.1) = true := rfl
  simpa using List.all_eq_true.mp hall _ known

theorem isBlank_hexDigit (digit : HexDigit) : isBlank digit.octet = false := by
  have hwrites := digit.writes
  simp only [isBlank, decide_eq_false_iff_not, not_or, ← UInt8.toNat_inj, UInt8.reduceToNat]
  omega

/-- Of all tokens only a bare blank has a blank at its end. -/
theorem getLast?_text (token : Token) :
    token.text.getLast?.any isBlank = true ↔ token.IsBare := by
  cases token with
  | plain octet ne => exact Iff.rfl
  | letter letter value known => simp [text, IsBare, isBlank_letter known]
  | hex high low => simp [text, IsBare, isBlank_hexDigit low]

end Token

/-- The last of some tokens is a blank that stands for itself. -/
def EndsInBare (tokens : List Token) : Prop := ∃ token, tokens.getLast? = some token ∧ token.IsBare

/-- Tokens end in a blank if the last of them is one. -/
theorem endsInBare_iff {tokens : List Token} :
    (tokensText tokens).getLast?.any isBlank = true ↔ EndsInBare tokens := by
  unfold EndsInBare
  rcases List.eq_nil_or_concat tokens with rfl | ⟨front, token, rfl⟩
  · simp
  · have htext : tokensText (front ++ [token]) = tokensText front ++ token.text := by
      simp [tokensText]
    rw [List.concat_eq_append, htext, List.getLast?_append_of_ne_nil _ token.text_ne_nil,
      token.getLast?_text]
    simp

namespace Entry

variable {entry : Entry} {line : WrittenLine}

theorem hasPattern_of_written (h : entry.octets = line.text) :
    HasPattern entry.octets line.definition.identifier (tokensText line.tokens) := by
  rw [h]
  exact .intro line.opening line.offset line.gap line.bare

/-- A line that defines a signature calls for no warning unless a bare blank ends it. -/
theorem warning?_of_not_endsInBare (h : entry.octets = line.text) (hends : ¬ EndsInBare line.tokens) :
    entry.warning? = none :=
  warning?_eq_none (hasPattern_of_written h) (Bool.eq_false_iff.mpr (endsInBare_iff.not.mpr hends))

/-- A line that defines a signature calls for a warning if a bare blank ends it. -/
theorem warning?_eq_some_iff_endsInBare (h : entry.octets = line.text) :
    entry.warning? = some (.trailingBlank line.definition.identifier) ↔ EndsInBare line.tokens := by
  constructor
  · intro hwarning
    by_contra hends
    rw [warning?_of_not_endsInBare h hends] at hwarning
    cases hwarning
  · intro hends
    obtain ⟨front, blank, htext, hblank⟩ := getLast?_isBlank_iff.mp (endsInBare_iff.mpr hends)
    have hpattern := hasPattern_of_written h
    rw [htext] at hpattern
    exact warning?_eq_some_iff.mpr ⟨_, ⟨front, blank, hpattern, hblank⟩, rfl⟩

/-- A pattern with an escape at its end calls for no warning, whatever stands before. -/
theorem warning?_of_isEscape {identifier : String} {front : Bytes} {token : Token}
    (escape : token.IsEscape) (h : HasPattern entry.octets identifier (front ++ token.text)) :
    entry.warning? = none := by
  refine warning?_eq_none h ?_
  rw [List.getLast?_append_of_ne_nil _ token.text_ne_nil, Bool.eq_false_iff]
  exact token.getLast?_text.not.mpr escape.not_isBare

end Entry

/-! ## the log -/

/-- The entries that are looked at: all of them, or up to the first that fails. -/
def examined : List Entry → List Entry
  | [] => []
  | entry :: rest =>
    match readLine entry.octets with
    | .error _ => [entry]
    | .ok _ => entry :: examined rest

theorem examined_cons_of_wellWritten {entry : Entry} (h : entry.WellWritten) (rest : List Entry) :
    examined (entry :: rest) = entry :: examined rest := by
  obtain ⟨line, hline⟩ := h
  have hread : readLine entry.octets = .ok line.definition := by rw [hline, readLine_text]
  simp only [examined, hread]

theorem examined_of_wellWritten {entries : List Entry} (h : ∀ entry ∈ entries, entry.WellWritten) :
    examined entries = entries := by
  induction entries with
  | nil => rfl
  | cons entry rest ih =>
      obtain ⟨hentry, hrest⟩ := List.forall_mem_cons.mp h
      rw [examined_cons_of_wellWritten hentry, ih hrest]

theorem examined_of_fails {before : List Entry} {entry : Entry} (after : List Entry)
    (h : ∀ earlier ∈ before, earlier.WellWritten) (fails : ¬ entry.WellWritten) :
    examined (before ++ entry :: after) = before ++ [entry] := by
  induction before with
  | nil =>
      obtain ⟨fault, faulty⟩ := exists_faulty_iff.mpr fails
      have hread : readLine entry.octets = .error fault := faulty.readLine_eq
      simp only [List.nil_append, examined, hread]
  | cons earlier before ih =>
      obtain ⟨hearlier, hbefore⟩ := List.forall_mem_cons.mp h
      rw [List.cons_append, examined_cons_of_wellWritten hearlier, ih hbefore, List.cons_append]

/-- Lines warn of the entries among them that are looked at. -/
theorem Reading.log_ofLines (number : Nat) (lines : List Bytes) :
    (Reading.ofLines number lines).log =
      (examined (entriesFrom number lines)).filterMap Entry.warning? := by
  rw [List.filterMap_eq_flatMap_toList]
  induction lines generalizing number with
  | nil => rfl
  | cons line rest ih =>
      rw [Reading.ofLines, entriesFrom_cons]
      split
      · exact ih (number + 1)
      · rw [examined, readLine]
        cases hread : readFields (dropReturn line) with
        | error fault => simp [Entry.warning?, hread]
        | ok fields =>
            have hwarning : (Entry.warning? ⟨number, dropReturn line⟩).toList = fields.warnings :=
              Entry.toList_warning? hread
            cases hdefinition : fields.definition with
            | error fault => simp [hdefinition, hwarning]
            | ok definition => simp [hdefinition, hwarning, ih]

/-- **A definitions file warns exactly of the patterns that end in a bare blank.**  It
warns in order of every line that calls for it, up to the first line that fails and
with this one; each time a line of the log, at level warn, names the identifier.  A line
calls for a warning if identifier and offset are right and the pattern, as written, ends
in a blank; if the line defines a signature, then the last octet of its pattern is a blank
that stands for itself.  A pattern that ends in an escape calls for none, whatever it
stands for, nor does a line without a pattern. -/
theorem Reading.log_ofText_exact (text : Bytes) :
    ((∀ entry ∈ entries text, entry.WellWritten) →
        (Reading.ofText text).log = (entries text).filterMap Entry.warning?) ∧
      (∀ before entry after, entries text = before ++ entry :: after →
        (∀ earlier ∈ before, earlier.WellWritten) → ¬ entry.WellWritten →
          (Reading.ofText text).log = (before ++ [entry]).filterMap Entry.warning?) ∧
      (∀ (entry : Entry) event, entry.warning? = some event ↔
        ∃ identifier, entry.EndsInBlank identifier ∧ event = .trailingBlank identifier) ∧
      (∀ (entry : Entry) event, entry.warning? = some event →
        ∃ identifier, entry.EndsInBlank identifier ∧ event.logLine = ⟨.warn, "Pattern of " ++
          identifier ++ " ends in unescaped whitespace, which is matched literally"⟩) ∧
      (∀ (entry : Entry) (line : WrittenLine), entry.octets = line.text →
        (entry.warning? = some (.trailingBlank line.definition.identifier) ↔
            EndsInBare line.tokens) ∧
          (¬ EndsInBare line.tokens → entry.warning? = none) ∧
          line.definition.pattern.getLast? = line.tokens.getLast?.map Token.value) ∧
      (∀ (entry : Entry) identifier front (token : Token), token.IsEscape →
        HasPattern entry.octets identifier (front ++ token.text) → entry.warning? = none) ∧
      ∀ (entry : Entry) identifier, HasPattern entry.octets identifier [] →
        entry.warning? = none := by
  have hlog : (Reading.ofText text).log = (examined (entries text)).filterMap Entry.warning? := by
    rw [Reading.ofText, Reading.log_ofLines, lines_eq_splitOn, entries]
  rw [hlog]
  refine ⟨fun h => ?_, fun before entry after hentries hbefore fails => ?_,
    fun entry event => Entry.warning?_eq_some_iff, fun entry event => Entry.logLine_of_warning?,
    fun entry line hline => ?_,
    fun entry identifier front token escape => Entry.warning?_of_isEscape escape,
    fun entry identifier hpattern => Entry.warning?_eq_none hpattern rfl⟩
  · rw [examined_of_wellWritten h]
  · rw [hentries, examined_of_fails after hbefore fails]
  · have hlast : line.definition.pattern.getLast? = line.tokens.getLast?.map Token.value := by
      simp [WrittenLine.definition]
    exact ⟨Entry.warning?_eq_some_iff_endsInBare hline, Entry.warning?_of_not_endsInBare hline, hlast⟩

/-- Two lines that can be read, of which the first ends in a bare blank and the other in
a tab that is escaped, before one that ends in a blank and fails, and one that nobody
looks at; and a line that has no pattern. -/
theorem Reading.log_ofText_exact_sample :
    let bare : Bytes := [65, 32, 48, 32, 120, 32]
    let escaped : Bytes := [66, 32, 52, 32, 92, 116]
    let wrong : Bytes := [67, 32, 49, 32, 92, 113, 32]
    let front : Bytes := bare ++ 10 :: escaped
    let text : Bytes := front ++ 10 :: (wrong ++ 10 :: bare)
    let before : List Entry := [⟨1, bare⟩, ⟨2, escaped⟩]
    (entries front = before ∧ (∀ entry ∈ before, entry.WellWritten) ∧
        (Reading.ofText front).log = [.trailingBlank "A"] ∧ heard .warn (Reading.ofText front).log =
          [⟨.warn, "Pattern of A ends in unescaped whitespace, which is matched literally"⟩]) ∧
      (entries text = before ++ ⟨3, wrong⟩ :: [⟨4, bare⟩] ∧ ¬ Entry.WellWritten ⟨3, wrong⟩ ∧
        (Reading.ofText text).log = [.trailingBlank "A", .trailingBlank "C"]) ∧
      Entry.warning? ⟨2, escaped⟩ = none ∧ Entry.warning? ⟨5, [69, 32, 49, 32, 9]⟩ = none := by
  intro bare escaped wrong front text before
  have hfront : entries front = before := rfl
  have htext : entries text = before ++ ⟨3, wrong⟩ :: [⟨4, bare⟩] := rfl
  have hbare : readLine bare = .ok ⟨"A", .fromStart 0, [120, 32]⟩ := by decide +kernel
  have hescaped : readLine escaped = .ok ⟨"B", .fromStart 4, [9]⟩ := by decide +kernel
  have hwrong : readLine wrong = .error (.escape (.unsupported 113)) := by decide +kernel
  have hbefore : ∀ entry ∈ before, entry.WellWritten := by
    have hwell {number : Nat} {octets : Bytes} {definition : Definition}
        (h : readLine octets = .ok definition) : Entry.WellWritten ⟨number, octets⟩ :=
      Entry.wellWritten_iff.mpr ⟨definition, readLine_eq_ok_iff.mp h⟩
    simp only [before, List.forall_mem_cons]
    exact ⟨hwell hbare, hwell hescaped, nofun⟩
  have fails : ¬ Entry.WellWritten ⟨3, wrong⟩ :=
    exists_faulty_iff.mp ⟨_, readLine_eq_error_iff.mp hwrong⟩
  obtain ⟨hall, -, -⟩ := Reading.log_ofText_exact front
  obtain ⟨-, hfails, -, -, -, hescape, hnothing⟩ := Reading.log_ofText_exact text
  let tab : Token := .letter 116 9 (by decide)
  have htab : HasPattern escaped "B" ([] ++ tab.text) :=
    hasPattern_iff.mpr ⟨⟨"B", false, 4, [92, 116]⟩, by decide +kernel, rfl, rfl⟩
  have hempty : HasPattern [69, 32, 49, 32, 9] "E" [] :=
    hasPattern_iff.mpr ⟨⟨"E", false, 1, []⟩, by decide +kernel, rfl, rfl⟩
  exact ⟨⟨hfront, hbefore, (hall (hfront ▸ hbefore)).trans (by decide +kernel), by decide +kernel⟩,
    ⟨htext, fails, (hfails _ _ _ htext hbefore fails).trans (by decide +kernel)⟩,
    hescape _ _ _ tab trivial htab, hnothing _ _ hempty⟩

end AnchorScan
