import AnchorScan.DefinitionFile.Line
import AnchorScan.Proofs.PatternText
import Mathlib.Data.List.TakeWhile
import Mathlib.Data.Nat.Digits.Defs

/-!
# AnchorScan.Proofs.LineText

The language of lines that define a signature.  A `WrittenLine` is such a line,
taken apart into its fields; `Faulty` says of any other line which of its fields
is the first that is wrong.

* `exists_written_or_faulty`: a line is the one or the other;
* `readLine_eq_ok_iff` and `readLine_eq_error_iff`: reading a line gives the
  definition that it writes, or tells the first field that is wrong.
-/

namespace AnchorScan

/-! ## stretches of a class -/

/-- One or more octets of a class. -/
structure Stretch (kind : UInt8 → Bool) where
  octets : Bytes
  ne_nil : octets ≠ []
  all : ∀ octet ∈ octets, kind octet = true

/-- The first octet of a text is of a class. -/
def Begins (kind : UInt8 → Bool) (text : Bytes) : Prop := text.head?.any kind = true

theorem begins_cons {kind : UInt8 → Bool} {first : UInt8} {others : Bytes} :
    Begins kind (first :: others) ↔ kind first = true := Iff.rfl

theorem takeWhile_of_not_begins {kind : UInt8 → Bool} {text : Bytes} (h : ¬ Begins kind text) :
    text.takeWhile kind = [] := by
  cases text with
  | nil => rfl
  | cons first others => exact List.takeWhile_cons_of_neg (begins_cons.not.mp h)

theorem dropWhile_of_not_begins {kind : UInt8 → Bool} {text : Bytes} (h : ¬ Begins kind text) :
    text.dropWhile kind = text := by
  cases text with
  | nil => rfl
  | cons first others => exact List.dropWhile_cons_of_neg (begins_cons.not.mp h)

theorem not_begins_dropWhile (kind : UInt8 → Bool) (text : Bytes) :
    ¬ Begins kind (text.dropWhile kind) := by
  have hhead := List.head?_dropWhile_not kind text
  unfold Begins
  cases h : (text.dropWhile kind).head? with
  | none => simp
  | some first => simpa [h] using hhead

namespace Stretch

variable {kind other : UInt8 → Bool} {rest : Bytes}

theorem begins_append (stretch : Stretch kind) (rest : Bytes) :
    Begins kind (stretch.octets ++ rest) := by
  obtain ⟨octets, ne_nil, all⟩ := stretch
  cases octets with
  | nil => contradiction
  | cons first others => exact all first List.mem_cons_self

/-- A stretch of one class does not begin with an octet of a class apart from it. -/
theorem not_begins_append (stretch : Stretch kind)
    (apart : ∀ octet, kind octet = true → other octet = false) (rest : Bytes) :
    ¬ Begins other (stretch.octets ++ rest) := by
  obtain ⟨octets, ne_nil, all⟩ := stretch
  cases octets with
  | nil => contradiction
  | cons first others =>
      rw [List.cons_append, begins_cons, apart first (all first List.mem_cons_self)]
      exact Bool.false_ne_true

/-- A stretch that does not go on is all that is taken of its class. -/
theorem takeWhile_append (stretch : Stretch kind) (h : ¬ Begins kind rest) :
    (stretch.octets ++ rest).takeWhile kind = stretch.octets := by
  rw [List.takeWhile_append_of_pos stretch.all, takeWhile_of_not_begins h, List.append_nil]

theorem dropWhile_append (stretch : Stretch kind) (h : ¬ Begins kind rest) :
    (stretch.octets ++ rest).dropWhile kind = rest := by
  rw [List.dropWhile_append_of_pos stretch.all, dropWhile_of_not_begins h]

/-- A text that begins with a class begins with a stretch of it that does not go on. -/
theorem exists_append {text : Bytes} (h : Begins kind text) :
    ∃ (stretch : Stretch kind) (rest : Bytes), text = stretch.octets ++ rest ∧ ¬ Begins kind rest := by
  have hne : text.takeWhile kind ≠ [] := by
    cases text with
    | nil => cases h
    | cons first others =>
        rw [List.takeWhile_cons_of_pos (begins_cons.mp h)]
        exact List.cons_ne_nil _ _
  exact ⟨⟨text.takeWhile kind, hne, fun _ => List.mem_takeWhile_imp⟩, text.dropWhile kind,
    List.takeWhile_append_dropWhile.symm, not_begins_dropWhile kind text⟩

end Stretch

theorem isIdentifierOctet_of_isBlank (octet : UInt8) (h : isBlank octet = true) :
    isIdentifierOctet octet = false := by
  simp only [isBlank, decide_eq_true_iff] at h
  rcases h with rfl | rfl <;> decide

/-- Every octet is the number of a character. -/
theorem toNat_char (octet : UInt8) : (Char.ofNat octet.toNat).toNat = octet.toNat := by
  have hvalid : octet.toNat.isValidChar := .inl (Nat.lt_trans octet.toNat_lt (by decide))
  rw [Char.ofNat, dif_pos hvalid]
  rfl

/-! ## the fields of a line -/

/-- The sign of an offset, if it has one. -/
inductive Sign where
  | absent
  | plus
  | minus
  deriving DecidableEq

/-- The octets of a sign. -/
def Sign.text : Sign → Bytes
  | absent => []
  | plus => [43]
  | minus => [45]

/-- The octets that are signs. -/
def isSign (octet : UInt8) : Bool := octet = 43 ∨ octet = 45

/-- The number that decimal digits write. -/
def Stretch.value (digits : Stretch isDigit) : Nat :=
  Nat.ofDigits 10 (digits.octets.reverse.map fun digit => digit.toNat - 48)

/-- What stands before the digits of an offset. -/
structure Opening where
  name : Stretch isIdentifierOctet
  gap : Stretch isBlank
  sign : Sign

namespace Opening

/-- The octets before the digits of an offset. -/
def text (opening : Opening) : Bytes :=
  opening.name.octets ++ (opening.gap.octets ++ opening.sign.text)

/-- What follows belongs neither to the blanks nor to the sign. -/
def EndsBefore (opening : Opening) (rest : Bytes) : Prop :=
  opening.sign = .absent → ¬ Begins isBlank rest ∧ ¬ Begins isSign rest

end Opening

/-- Digits that write an offset. -/
structure Numeral where
  digits : Stretch isDigit
  length_le : digits.octets.length ≤ 20
  value_le : digits.value ≤ maxPosition

/-- A line that defines a signature. -/
structure WrittenLine where
  opening : Opening
  offset : Numeral
  gap : Stretch isBlank
  tokens : List Token
  tokens_ne_nil : tokens ≠ []
  /-- The pattern does not begin with a bare blank: that would belong to the gap. -/
  bare : ¬ Begins isBlank (tokensText tokens)

namespace WrittenLine

/-- The octets of the line. -/
def text (line : WrittenLine) : Bytes :=
  line.opening.text ++ (line.offset.digits.octets ++ (line.gap.octets ++ tokensText line.tokens))

/-- A minus sign counts a positive offset from the end. -/
def anchor (line : WrittenLine) : Anchor :=
  if line.opening.sign = .minus ∧ 0 < line.offset.digits.value then
    .fromEnd line.offset.digits.value
  else .fromStart line.offset.digits.value

/-- What the line defines. -/
def definition (line : WrittenLine) : Definition where
  identifier := octetText line.opening.name.octets
  anchor := line.anchor
  pattern := line.tokens.map Token.value

end WrittenLine

/-- The first field of a line that is wrong, all fields before it being right. -/
inductive Faulty : Bytes → LineFault → Prop
  | identifier {line : Bytes} (wrong : ¬ Begins isIdentifierOctet line) :
      Faulty line .invalidIdentifier
  | blankAfterIdentifier (name : Stretch isIdentifierOctet) {rest : Bytes}
      (whole : ¬ Begins isIdentifierOctet rest) (wrong : ¬ Begins isBlank rest) :
      Faulty (name.octets ++ rest) (.noBlankAfter .identifier)
  | digits (opening : Opening) {rest : Bytes} (whole : opening.EndsBefore rest)
      (wrong : ¬ Begins isDigit rest) :
      Faulty (opening.text ++ rest) .invalidOffset
  | tooLarge (opening : Opening) (digits : Stretch isDigit) {rest : Bytes}
      (whole : ¬ Begins isDigit rest)
      (wrong : 20 < digits.octets.length ∨ maxPosition < digits.value) :
      Faulty (opening.text ++ (digits.octets ++ rest)) .offsetTooLarge
  | blankAfterOffset (opening : Opening) (offset : Numeral) {rest : Bytes}
      (whole : ¬ Begins isDigit rest) (wrong : ¬ Begins isBlank rest) :
      Faulty (opening.text ++ (offset.digits.octets ++ rest)) (.noBlankAfter .offset)
  | escape (opening : Opening) (offset : Numeral) (gap : Stretch isBlank) (tokens : List Token)
      {rest : Bytes} {fault : EscapeFault} (whole : ¬ Begins isBlank (tokensText tokens ++ rest))
      (wrong : Stuck rest fault) :
      Faulty (opening.text ++ (offset.digits.octets ++ (gap.octets ++ (tokensText tokens ++ rest))))
        (.escape fault)
  | emptyPattern (opening : Opening) (offset : Numeral) (gap : Stretch isBlank) :
      Faulty (opening.text ++ (offset.digits.octets ++ gap.octets)) .emptyPattern

/-! ## every line is one or the other -/

/-- A sign stands at the front of a text, or none. -/
theorem exists_sign (text : Bytes) :
    ∃ (sign : Sign) (rest : Bytes), text = sign.text ++ rest ∧
      (sign = .absent → ¬ Begins isSign rest) := by
  by_cases h : Begins isSign text
  · cases text with
    | nil => cases h
    | cons first others =>
        rw [begins_cons, isSign, decide_eq_true_iff] at h
        rcases h with rfl | rfl
        · exact ⟨.plus, others, rfl, nofun⟩
        · exact ⟨.minus, others, rfl, nofun⟩
  · exact ⟨.absent, text, rfl, fun _ => h⟩

/-- Behind a sound offset stands a pattern, or what is wrong. -/
theorem exists_written_or_faulty_of_offset (opening : Opening) (offset : Numeral) {rest : Bytes}
    (whole : ¬ Begins isDigit rest) :
    (∃ line : WrittenLine, opening.text ++ (offset.digits.octets ++ rest) = line.text) ∨
      ∃ fault, Faulty (opening.text ++ (offset.digits.octets ++ rest)) fault := by
  by_cases hgap : Begins isBlank rest
  · obtain ⟨gap, pattern, rfl, hwhole⟩ := Stretch.exists_append hgap
    obtain ⟨tokens, last, rfl, rfl | ⟨fault, stuck⟩⟩ := exists_tokens pattern
    · rw [List.append_nil] at hwhole ⊢
      by_cases htokens : tokens = []
      · subst htokens
        rw [tokensText_nil, List.append_nil]
        exact .inr ⟨_, .emptyPattern opening offset gap⟩
      · exact .inl ⟨⟨opening, offset, gap, tokens, htokens, hwhole⟩, rfl⟩
    · exact .inr ⟨_, .escape opening offset gap tokens hwhole stuck⟩
  · exact .inr ⟨_, .blankAfterOffset opening offset whole hgap⟩

/-- **A line defines a signature, or has a first field that is wrong.** -/
theorem exists_written_or_faulty (line : Bytes) :
    (∃ written : WrittenLine, line = written.text) ∨ ∃ fault, Faulty line fault := by
  by_cases hname : Begins isIdentifierOctet line
  · obtain ⟨name, afterName, rfl, hwhole⟩ := Stretch.exists_append hname
    by_cases hgap : Begins isBlank afterName
    · obtain ⟨gap, afterGap, rfl, hwholeGap⟩ := Stretch.exists_append hgap
      obtain ⟨sign, afterSign, rfl, hsign⟩ := exists_sign afterGap
      let opening : Opening := ⟨name, gap, sign⟩
      have hends : opening.EndsBefore afterSign := by
        intro habsent
        obtain rfl : sign = .absent := habsent
        exact ⟨hwholeGap, hsign rfl⟩
      have htext : name.octets ++ (gap.octets ++ (sign.text ++ afterSign)) =
          opening.text ++ afterSign := by simp [Opening.text, opening]
      rw [htext]
      by_cases hdigits : Begins isDigit afterSign
      · obtain ⟨digits, rest, rfl, hwholeDigits⟩ := Stretch.exists_append hdigits
        by_cases hsize : digits.octets.length ≤ 20 ∧ digits.value ≤ maxPosition
        · exact exists_written_or_faulty_of_offset opening ⟨digits, hsize.1, hsize.2⟩ hwholeDigits
        · exact .inr ⟨_, .tooLarge opening digits hwholeDigits (by omega)⟩
      · exact .inr ⟨_, .digits opening hends hdigits⟩
    · exact .inr ⟨_, .blankAfterIdentifier name hwhole hgap⟩
  · exact .inr ⟨_, .identifier hname⟩

/-! ## reading the fields -/

theorem skipBlanks_gap (field : Field) (gap : Stretch isBlank) {rest : Bytes}
    (h : ¬ Begins isBlank rest) : skipBlanks field (gap.octets ++ rest) = .ok rest := by
  rw [skipBlanks, gap.dropWhile_append h]
  exact if_pos (gap.begins_append rest)

theorem skipBlanks_of_not_begins (field : Field) {rest : Bytes} (h : ¬ Begins isBlank rest) :
    skipBlanks field rest = .error (.noBlankAfter field) := by
  rw [skipBlanks]
  exact if_neg h

theorem readSign_text (sign : Sign) {rest : Bytes} (h : sign = .absent → ¬ Begins isSign rest) :
    readSign (sign.text ++ rest) = (decide (sign = .minus), rest) := by
  cases sign with
  | absent =>
      cases rest with
      | nil => rfl
      | cons first others =>
          have hfirst := h rfl
          rw [begins_cons, isSign, decide_eq_true_iff, not_or] at hfirst
          simp [Sign.text, readSign, hfirst.1, hfirst.2]
  | plus => rfl
  | minus => rfl

/-- The number is the one that its digits write. -/
theorem decimalValue_eq (digits : Stretch isDigit) : decimalValue digits.octets = digits.value := by
  rw [decimalValue, Stretch.value, Nat.ofDigits_eq_foldr, List.foldr_map, List.foldr_reverse]
  congr 1
  funext value digit
  simp only [Nat.cast_id]
  omega

theorem readOffset_digits (digits : Stretch isDigit) {rest : Bytes} (h : ¬ Begins isDigit rest) :
    readOffset (digits.octets ++ rest) =
      if digits.octets.length ≤ 20 ∧ digits.value ≤ maxPosition then .ok (digits.value, rest)
      else .error .offsetTooLarge := by
  rw [readOffset, digits.takeWhile_append h, digits.dropWhile_append h, decimalValue_eq]
  exact if_neg digits.ne_nil

theorem readOffset_of_not_begins {rest : Bytes} (h : ¬ Begins isDigit rest) :
    readOffset rest = .error .invalidOffset := by
  rw [readOffset, takeWhile_of_not_begins h]
  exact if_pos rfl

theorem readOffset_numeral (offset : Numeral) {rest : Bytes} (h : ¬ Begins isDigit rest) :
    readOffset (offset.digits.octets ++ rest) = .ok (offset.digits.value, rest) := by
  rw [readOffset_digits offset.digits h, if_pos ⟨offset.length_le, offset.value_le⟩]

/-- Reading a line whose opening is sound goes on with the offset. -/
theorem readFields_opening (opening : Opening) {rest : Bytes} (h : opening.EndsBefore rest) :
    readFields (opening.text ++ rest) = (readOffset rest).bind fun (offset, rest) =>
      (skipBlanks .offset rest).map fun pattern =>
        ⟨octetText opening.name.octets, decide (opening.sign = .minus), offset, pattern⟩ := by
  obtain ⟨name, gap, sign⟩ := opening
  have hname : ¬ Begins isIdentifierOctet (gap.octets ++ (sign.text ++ rest)) :=
    gap.not_begins_append isIdentifierOctet_of_isBlank _
  have hgap : ¬ Begins isBlank (sign.text ++ rest) := by
    cases sign with
    | absent => exact (h rfl).1
    | plus => exact Bool.false_ne_true
    | minus => exact Bool.false_ne_true
  have hsign : sign = .absent → ¬ Begins isSign rest := fun habsent => (h habsent).2
  have htext : Opening.text ⟨name, gap, sign⟩ ++ rest =
      name.octets ++ (gap.octets ++ (sign.text ++ rest)) := by simp [Opening.text]
  rw [htext, readFields, name.takeWhile_append hname, name.dropWhile_append hname,
    skipBlanks_gap .identifier gap hgap]
  refine (if_neg name.ne_nil).trans ?_
  simp only [readSign_text sign hsign]
  cases hoffset : readOffset rest with
  | error fault => rfl
  | ok numbered =>
      obtain ⟨offset, rest⟩ := numbered
      cases hskip : skipBlanks .offset rest with
      | error fault => simp [Except.bind, Except.map, hskip]
      | ok pattern => simp [Except.bind, Except.map, hskip]

/-- Where a sound offset ends, a number does. -/
theorem not_begins_isDigit_gap (gap : Stretch isBlank) (rest : Bytes) :
    ¬ Begins isDigit (gap.octets ++ rest) := by
  refine gap.not_begins_append (fun octet h => ?_) rest
  simp only [isBlank, decide_eq_true_iff] at h
  rcases h with rfl | rfl <;> decide

/-- Digits belong neither to the blanks nor to the sign before them. -/
theorem Opening.endsBefore_digits (opening : Opening) (digits : Stretch isDigit) (rest : Bytes) :
    opening.EndsBefore (digits.octets ++ rest) := by
  have apart (octet : UInt8) (h : isDigit octet = true) :
      isBlank octet = false ∧ isSign octet = false := by
    simp only [isDigit, decide_eq_true_iff, UInt8.le_iff_toNat_le] at h
    simp only [isBlank, isSign, decide_eq_false_iff_not, not_or]
    refine ⟨⟨?_, ?_⟩, ?_, ?_⟩ <;> (rintro rfl; revert h; decide)
  exact fun _ => ⟨digits.not_begins_append (fun octet h => (apart octet h).1) rest,
    digits.not_begins_append (fun octet h => (apart octet h).2) rest⟩

/-- A line whose offset is sound is read up to its pattern. -/
theorem readFields_offset (opening : Opening) (offset : Numeral) (gap : Stretch isBlank)
    {pattern : Bytes} (h : ¬ Begins isBlank pattern) :
    readFields (opening.text ++ (offset.digits.octets ++ (gap.octets ++ pattern))) =
      .ok ⟨octetText opening.name.octets, decide (opening.sign = .minus), offset.digits.value,
        pattern⟩ := by
  rw [readFields_opening opening (opening.endsBefore_digits offset.digits _),
    readOffset_numeral offset (not_begins_isDigit_gap gap pattern)]
  simp only [Except.bind, skipBlanks_gap .offset gap h, Except.map]

/-! ## reading lines -/

/-- Reads the fields of a line, then its pattern. -/
def readLine (line : Bytes) : Except LineFault Definition :=
  match readFields line with
  | .error fault => .error fault
  | .ok fields => fields.definition

theorem Fields.definition_of_unescape {fields : Fields} {pattern : Bytes}
    (h : unescape fields.pattern = .ok pattern) (hne : pattern ≠ []) :
    fields.definition = .ok ⟨fields.identifier, fields.anchor, pattern⟩ := by
  cases pattern with
  | nil => contradiction
  | cons first others => simp only [Fields.definition, h]

theorem readLine_text (line : WrittenLine) : readLine line.text = .ok line.definition := by
  have hread := unescape_tokensText line.tokens
  rw [readLine, WrittenLine.text, readFields_offset line.opening line.offset line.gap line.bare]
  refine (Fields.definition_of_unescape hread (by simpa using line.tokens_ne_nil)).trans ?_
  simp [WrittenLine.definition, WrittenLine.anchor, Fields.anchor]

/-- The first field that is wrong is the one that reading tells of. -/
theorem Faulty.readLine_eq {line : Bytes} {fault : LineFault} (faulty : Faulty line fault) :
    readLine line = .error fault := by
  cases faulty with
  | identifier wrong =>
      rw [readLine, readFields, takeWhile_of_not_begins wrong]
      rfl
  | @blankAfterIdentifier name rest whole wrong =>
      rw [readLine, readFields, name.takeWhile_append whole, name.dropWhile_append whole,
        skipBlanks_of_not_begins .identifier wrong, if_neg name.ne_nil]
  | @digits opening rest whole wrong =>
      rw [readLine, readFields_opening opening whole, readOffset_of_not_begins wrong]
      rfl
  | @tooLarge opening digits rest whole wrong =>
      rw [readLine, readFields_opening opening (opening.endsBefore_digits digits rest),
        readOffset_digits digits whole, if_neg (by omega)]
      rfl
  | @blankAfterOffset opening offset rest whole wrong =>
      rw [readLine, readFields_opening opening (opening.endsBefore_digits offset.digits rest),
        readOffset_numeral offset whole]
      simp only [Except.bind, skipBlanks_of_not_begins .offset wrong, Except.map]
  | @escape opening offset gap tokens rest fault whole wrong =>
      have hread : unescape (tokensText tokens ++ rest) = .error fault :=
        unescape_eq_error_iff.mpr ⟨tokens, rest, rfl, wrong⟩
      rw [readLine, readFields_offset opening offset gap whole]
      simp only [Fields.definition, hread]
  | emptyPattern opening offset gap =>
      have hnothing : ¬ Begins isBlank [] := Bool.false_ne_true
      have hread := readFields_offset opening offset gap hnothing
      rw [List.append_nil] at hread
      rw [readLine, hread]
      rfl

/-- **Reading a line gives the definition that it writes**, and gives nothing else. -/
theorem readLine_eq_ok_iff {line : Bytes} {definition : Definition} :
    readLine line = .ok definition ↔
      ∃ written : WrittenLine, line = written.text ∧ definition = written.definition := by
  constructor
  · intro h
    rcases exists_written_or_faulty line with ⟨written, rfl⟩ | ⟨fault, faulty⟩
    · rw [readLine_text] at h
      exact ⟨written, rfl, (Except.ok.inj h).symm⟩
    · rw [faulty.readLine_eq] at h
      cases h
  · rintro ⟨written, rfl, rfl⟩
    exact readLine_text written

/-- **Reading a line tells the first field that is wrong**, and tells nothing else. -/
theorem readLine_eq_error_iff {line : Bytes} {fault : LineFault} :
    readLine line = .error fault ↔ Faulty line fault := by
  constructor
  · intro h
    rcases exists_written_or_faulty line with ⟨written, rfl⟩ | ⟨fault', faulty⟩
    · rw [readLine_text] at h
      cases h
    · rw [faulty.readLine_eq] at h
      cases h
      exact faulty
  · exact Faulty.readLine_eq

end AnchorScan
