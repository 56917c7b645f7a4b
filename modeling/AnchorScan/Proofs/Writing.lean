import AnchorScan.Proofs.FileText

/-!
# AnchorScan.Proofs.Writing

Definitions files written from signatures: one line for each, with the texts of
its anchor and of its pattern, every octet of the pattern as an escape.

* `Definition.Expressible`: the definitions that a file can hold;
* `writtenLine`: the line of a signature, taken apart into its fields;
* `Reading.ofText_fileText`: reading undoes writing, and a list of definitions
  can be read from some file just when all of them are expressible.
-/

namespace AnchorScan

/-! ## writing -/

/-- The octets of a text. -/
def octets (text : String) : Bytes := text.toUTF8.data.toList

namespace Signature

/-- The pattern in hexadecimal with an escape for every pair of digits, instead
of the spaces between them. -/
def escapedHex (signature : Signature) : String :=
  String.ofList ((signature.hexText.toList.splitOn ' ').flatMap fun pair => '\\' :: 'x' :: pair)

/-- The line of a definitions file that defines the signature. -/
def line (signature : Signature) : String :=
  signature.identifier ++ " " ++ signature.anchor.text ++ " " ++ signature.escapedHex

end Signature

/-- A definitions file with a line for each signature. -/
def fileText (signatures : List Signature) : String :=
  "\n".intercalate (signatures.map Signature.line)

/-- The definitions that a file can hold. -/
structure Definition.Expressible (definition : Definition) : Prop where
  identifier_ne : definition.identifier ≠ ""
  identifier_all : ∀ c ∈ definition.identifier.toList, c.isAlphanum ∨ c = '_'
  anchor_ne : definition.anchor ≠ .fromEnd 0
  offset_le : definition.anchor.offset ≤ maxPosition
  pattern_ne_nil : definition.pattern ≠ []

/-! ## octets of printable text -/

theorem octets_eq_flatMap (text : String) :
    octets text = text.toList.flatMap String.utf8EncodeChar := by
  rw [octets, String.toUTF8_eq_toByteArray, ← String.utf8Encode_toList, List.utf8Encode,
    List.toList_data_toByteArray]

theorem octets_append (first second : String) :
    octets (first ++ second) = octets first ++ octets second := by
  simp only [octets_eq_flatMap, String.toList_append, List.flatMap_append]

theorem octets_intercalate (texts : List String) :
    octets ("\n".intercalate texts) = [10].intercalate (texts.map octets) := by
  induction texts with
  | nil => rfl
  | cons text rest ih =>
      cases rest with
      | nil => simp
      | cons next others =>
          have hfeed : octets "\n" = [10] := by decide
          rw [String.intercalate_cons_cons, octets_append, octets_append, ih, hfeed]
          simp

/-- ASCII characters that are no controls. -/
def IsPrintable (c : Char) : Prop := 32 ≤ c.toNat ∧ c.toNat < 127

instance (c : Char) : Decidable (IsPrintable c) := inferInstanceAs (Decidable (_ ∧ _))

theorem IsPrintable.toNat_toUInt8 {c : Char} (h : IsPrintable c) : c.toUInt8.toNat = c.toNat := by
  have hlt := h.2
  rw [Char.toUInt8, UInt32.toNat_toUInt8]
  exact Nat.mod_eq_of_lt (by rw [Char.toNat] at hlt; omega)

/-- A printable character has the octet with its number. -/
theorem octets_of_printable {text : String} (h : ∀ c ∈ text.toList, IsPrintable c) :
    octets text = text.toList.map Char.toUInt8 := by
  rw [octets_eq_flatMap, List.map_eq_flatMap]
  refine List.flatMap_congr fun c hc => ?_
  have hsize : c.utf8Size = 1 := by
    have hlt := (h c hc).2
    rw [Char.utf8Size_eq_one_iff, UInt32.le_iff_toNat_le]
    rw [Char.toNat] at hlt
    have : (127 : UInt32).toNat = 127 := rfl
    omega
  rw [String.utf8EncodeChar_eq_singleton hsize, Char.toUInt8]

/-! ## written fields -/

/-- The numbers of the characters and of the octets that make up identifiers. -/
def IsIdentifierNumber (number : Nat) : Prop :=
  (48 ≤ number ∧ number ≤ 57) ∨ (65 ≤ number ∧ number ≤ 90) ∨ (97 ≤ number ∧ number ≤ 122) ∨
    number = 95

theorem isIdentifierNumber_octet_iff {octet : UInt8} :
    IsIdentifierNumber octet.toNat ↔ isIdentifierOctet octet = true := by
  simp only [IsIdentifierNumber, isIdentifierOctet, isDigit, decide_eq_true_iff,
    UInt8.le_iff_toNat_le, ← UInt8.toNat_inj, UInt8.reduceToNat]

theorem isIdentifierNumber_char_iff {c : Char} :
    IsIdentifierNumber c.toNat ↔ c.isAlphanum ∨ c = '_' := by
  have hclasses : c.isAlphanum = ((decide ('A'.val ≤ c.val ∧ c.val ≤ 'Z'.val) ||
      (decide ('a'.val ≤ c.val) && decide (c.val ≤ 'z'.val))) ||
      (decide ('0'.val ≤ c.val) && decide (c.val ≤ '9'.val))) := rfl
  simp only [hclasses, IsIdentifierNumber, Bool.or_eq_true, Bool.and_eq_true, decide_eq_true_iff,
    UInt32.le_iff_toNat_le, ← Char.toNat_inj, Char.toNat_val, Char.reduceToNat]
  omega

theorem isPrintable_of_identifier {c : Char} (h : c.isAlphanum ∨ c = '_') :
    IsPrintable c ∧ isIdentifierOctet c.toUInt8 = true := by
  have hnumber := isIdentifierNumber_char_iff.mpr h
  have hprint : IsPrintable c := by
    unfold IsIdentifierNumber at hnumber
    unfold IsPrintable
    omega
  refine ⟨hprint, isIdentifierNumber_octet_iff.mp ?_⟩
  rwa [hprint.toNat_toUInt8]

theorem isPrintable_of_isDigit {c : Char} (h : c.isDigit = true) :
    IsPrintable c ∧ isDigit c.toUInt8 = true := by
  simp only [Char.isDigit_iff_toNat, Char.reduceToNat] at h
  have hprint : IsPrintable c := by unfold IsPrintable; omega
  refine ⟨hprint, ?_⟩
  simp only [isDigit, decide_eq_true_iff, UInt8.le_iff_toNat_le, UInt8.reduceToNat,
    hprint.toNat_toUInt8]
  exact h

theorem isDigit_of_mem_toDigits {value : Nat} {c : Char} (h : c ∈ Nat.toDigits 10 value) :
    IsPrintable c ∧ isDigit c.toUInt8 = true :=
  isPrintable_of_isDigit (Nat.isDigit_of_mem_toDigits (by decide) (by decide) h)

/-- The digits of a number. -/
def decimal (value : Nat) : Stretch isDigit where
  octets := (Nat.toDigits 10 value).map Char.toUInt8
  ne_nil := by simp
  all := by
    intro octet hoctet
    obtain ⟨c, hc, rfl⟩ := List.mem_map.mp hoctet
    exact (isDigit_of_mem_toDigits hc).2

theorem decimal_value (value : Nat) : (decimal value).value = value := by
  rw [← decimalValue_eq, decimal, decimalValue, List.foldl_map]
  calc (Nat.toDigits 10 value).foldl (fun value c => 10 * value + (c.toUInt8.toNat - 48)) 0
      = Nat.ofDigitChars 10 (Nat.toDigits 10 value) 0 := by
        rw [Nat.ofDigitChars_eq_foldl]
        refine List.foldl_ext _ _ _ fun value c hc => ?_
        rw [(isDigit_of_mem_toDigits hc).1.toNat_toUInt8]
        rfl
    _ = value := Nat.ofDigitChars_ten_toDigits

/-- The digits of an offset. -/
def numeral (offset : Nat) (h : offset ≤ maxPosition) : Numeral where
  digits := decimal offset
  length_le := by
    rw [decimal, List.length_map]
    exact Nat.toDigits_length 10 offset 20 (by decide) (Nat.lt_of_le_of_lt h (by decide))
  value_le := by rwa [decimal_value]

/-- The upper-case digit of a value. -/
def hexDigit (value : Nat) (h : value < 16) : HexDigit where
  octet := (upperHexDigit value).toUInt8
  value := value
  writes := by
    revert value
    decide

/-- The escape of an octet in two upper-case digits. -/
def hexToken (octet : UInt8) : Token :=
  .hex (hexDigit (octet.toNat / 16) (by have := octet.toNat_lt; omega))
    (hexDigit (octet.toNat % 16) (Nat.mod_lt _ (by decide)))

theorem hexToken_value (octet : UInt8) : (hexToken octet).value = octet := by
  rw [hexToken, Token.value, hexDigit, hexDigit, Nat.div_add_mod, UInt8.ofNat_toNat]

theorem map_value_hexToken (pattern : Bytes) :
    (pattern.map hexToken).map Token.value = pattern := by
  rw [List.map_map]
  exact (List.map_congr_left fun octet _ => hexToken_value octet).trans (List.map_id pattern)

theorem hexToken_text (octet : UInt8) :
    (hexToken octet).text = ('\\' :: 'x' :: upperHex octet).map Char.toUInt8 := rfl

theorem isPrintable_upperHexDigit :
    ∀ value < 16, IsPrintable (upperHexDigit value) ∧ upperHexDigit value ≠ ' ' := by
  decide

theorem isPrintable_upperHex {octet : UInt8} {c : Char} (h : c ∈ upperHex octet) :
    IsPrintable c ∧ c ≠ ' ' := by
  have hoctet := octet.toNat_lt
  rw [upperHex, List.mem_pair] at h
  rcases h with rfl | rfl
  · exact isPrintable_upperHexDigit _ (by omega)
  · exact isPrintable_upperHexDigit _ (by omega)

theorem spacedHex_eq_intercalate (pattern : Bytes) :
    spacedHex pattern = [' '].intercalate (pattern.map upperHex) := by
  induction pattern with
  | nil => rfl
  | cons octet rest ih =>
      cases rest with
      | nil => simp [spacedHex]
      | cons next others =>
          rw [spacedHex, ih]
          · simp
          · simp

theorem Signature.escapedHex_toList (signature : Signature) :
    signature.escapedHex.toList =
      signature.pattern.flatMap fun octet => '\\' :: 'x' :: upperHex octet := by
  have hspaces : ∀ pair ∈ signature.pattern.map upperHex, ' ' ∉ pair := by
    intro pair hpair hspace
    obtain ⟨octet, -, rfl⟩ := List.mem_map.mp hpair
    exact (isPrintable_upperHex hspace).2 rfl
  have hne : signature.pattern.map upperHex ≠ [] := by
    simpa using signature.pattern_ne_nil
  rw [escapedHex, String.toList_ofList, hexText, String.toList_ofList, spacedHex_eq_intercalate,
    List.splitOn_intercalate ' ' hspaces hne, List.flatMap_map]

theorem tokensText_map_hexToken (pattern : Bytes) :
    tokensText (pattern.map hexToken) =
      (pattern.flatMap fun octet => '\\' :: 'x' :: upperHex octet).map Char.toUInt8 := by
  simp only [tokensText, List.flatMap_map, List.map_flatMap, hexToken_text]

/-! ## written lines -/

/-- The sign that an anchor is written with. -/
def Anchor.sign : Anchor → Sign
  | fromStart _ => .plus
  | fromEnd _ => .minus

/-- An anchor is written as the character of its sign and decimal digits. -/
theorem Anchor.exists_text (anchor : Anchor) :
    ∃ c, IsPrintable c ∧ anchor.sign.text = [c.toUInt8] ∧
      anchor.text.toList = c :: Nat.toDigits 10 anchor.offset := by
  cases anchor with
  | fromStart offset => exact ⟨'+', by decide, rfl, by simp [text, Anchor.offset]⟩
  | fromEnd offset => exact ⟨'-', by decide, rfl, by simp [text, Anchor.offset]⟩

/-- The identifier of a definition, as a line has it. -/
def Definition.Expressible.name {definition : Definition} (h : definition.Expressible) :
    Stretch isIdentifierOctet where
  octets := definition.identifier.toList.map Char.toUInt8
  ne_nil := by simpa using h.identifier_ne
  all := by
    intro octet hoctet
    obtain ⟨c, hc, rfl⟩ := List.mem_map.mp hoctet
    exact (isPrintable_of_identifier (h.identifier_all c hc)).2

/-- A single space. -/
def space : Stretch isBlank where
  octets := [32]
  ne_nil := List.cons_ne_nil 32 []
  all := List.forall_mem_singleton.mpr rfl

/-- The line of a signature. -/
def writtenLine (signature : Signature) (h : signature.Expressible) : WrittenLine where
  opening := ⟨h.name, space, signature.anchor.sign⟩
  offset := numeral signature.anchor.offset h.offset_le
  gap := space
  tokens := signature.pattern.map hexToken
  tokens_ne_nil := by simpa using signature.pattern_ne_nil
  bare := by
    cases hpattern : signature.pattern with
    | nil => exact absurd hpattern signature.pattern_ne_nil
    | cons octet rest => exact Bool.false_ne_true

theorem Signature.line_toList (signature : Signature) :
    signature.line.toList = signature.identifier.toList ++ ' ' :: (signature.anchor.text.toList ++
      ' ' :: signature.pattern.flatMap fun octet => '\\' :: 'x' :: upperHex octet) := by
  rw [line, String.toList_append, escapedHex_toList]
  simp

theorem Signature.isPrintable_line {signature : Signature} (h : signature.Expressible) :
    ∀ c ∈ signature.line.toList, IsPrintable c := by
  obtain ⟨sign, hsign, -, htext⟩ := signature.anchor.exists_text
  have hspace : IsPrintable ' ' := by decide
  simp only [line_toList, htext, List.forall_mem_append, List.forall_mem_cons, List.mem_flatMap]
  refine ⟨fun c hc => (isPrintable_of_identifier (h.identifier_all c hc)).1, hspace,
    ⟨hsign, fun c hc => (isDigit_of_mem_toDigits hc).1⟩, hspace, ?_⟩
  rintro c ⟨octet, -, hc⟩
  revert c
  rw [List.forall_mem_cons, List.forall_mem_cons]
  exact ⟨by decide, by decide, fun c hc => (isPrintable_upperHex hc).1⟩

theorem octets_line {signature : Signature} (h : signature.Expressible) :
    octets signature.line = (writtenLine signature h).text := by
  obtain ⟨sign, -, hsign, htext⟩ := signature.anchor.exists_text
  rw [octets_of_printable (Signature.isPrintable_line h), Signature.line_toList, htext]
  simp only [WrittenLine.text, Opening.text, writtenLine, numeral, decimal, hsign,
    tokensText_map_hexToken, Definition.Expressible.name, space, List.map_append, List.map_cons,
    List.append_assoc, List.cons_append, List.nil_append]
  rfl

theorem writtenLine_anchor {signature : Signature} (h : signature.Expressible) :
    (writtenLine signature h).anchor = signature.anchor := by
  have hvalue : (writtenLine signature h).offset.digits.value = signature.anchor.offset :=
    decimal_value signature.anchor.offset
  have hsign : (writtenLine signature h).opening.sign = signature.anchor.sign := rfl
  rw [WrittenLine.anchor, hvalue, hsign]
  cases hanchor : signature.anchor with
  | fromStart offset => exact if_neg fun hminus => Sign.noConfusion hminus.1
  | fromEnd offset =>
      have hpos : 0 < offset := Nat.pos_of_ne_zero fun hzero => h.anchor_ne (hzero ▸ hanchor)
      exact if_pos ⟨rfl, hpos⟩

theorem octetText_map_toUInt8 {chars : List Char} (h : ∀ c ∈ chars, IsPrintable c) :
    octetText (chars.map Char.toUInt8) = String.ofList chars := by
  rw [octetText, List.map_map]
  congr 1
  refine (List.map_congr_left fun c hc => ?_).trans (List.map_id chars)
  rw [Function.comp_apply, (h c hc).toNat_toUInt8, Char.ofNat_toNat, id]

theorem writtenLine_definition {signature : Signature} (h : signature.Expressible) :
    (writtenLine signature h).definition = signature.toDefinition := by
  have hname : octetText h.name.octets = signature.identifier := by
    refine (octetText_map_toUInt8 fun c hc => ?_).trans String.ofList_toList
    exact (isPrintable_of_identifier (h.identifier_all c hc)).1
  rw [WrittenLine.definition, writtenLine_anchor h]
  exact congr (congrArg (fun identifier => Definition.mk identifier signature.anchor) hname)
    (map_value_hexToken signature.pattern)

/-! ## written files -/

/-- A line that begins with an identifier is neither a comment nor blank. -/
theorem isSkipped_of_begins {line : Bytes} (h : Begins isIdentifierOctet line) :
    isSkipped line = false := by
  cases line with
  | nil => cases h
  | cons first others =>
      have hcomment : first ≠ 35 := by
        rintro rfl
        exact absurd (begins_cons.mp h) (by decide)
      have hblank : ¬ isBlank first = true := fun hblank =>
        Bool.false_ne_true ((isIdentifierOctet_of_isBlank first hblank).symm.trans h)
      simp [isSkipped, hcomment, hblank]

theorem WrittenLine.isSkipped_text (line : WrittenLine) : isSkipped line.text = false := by
  refine isSkipped_of_begins ?_
  rw [text, Opening.text, List.append_assoc]
  exact line.opening.name.begins_append _

/-- A written line has neither line feeds nor carriage returns. -/
theorem le_of_mem_octets_line {signature : Signature} (h : signature.Expressible) :
    ∀ octet ∈ octets signature.line, 32 ≤ octet.toNat := by
  intro octet hoctet
  rw [octets_of_printable (Signature.isPrintable_line h)] at hoctet
  obtain ⟨c, hc, rfl⟩ := List.mem_map.mp hoctet
  have hprint := Signature.isPrintable_line h c hc
  rw [hprint.toNat_toUInt8]
  exact hprint.1

theorem dropReturn_octets_line {signature : Signature} (h : signature.Expressible) :
    dropReturn (octets signature.line) = octets signature.line := by
  refine if_neg fun hlast => ?_
  have hle := le_of_mem_octets_line h 13 (List.mem_of_getLast? hlast)
  exact absurd hle (by decide)

/-- Blank lines have no entries. -/
theorem entriesFrom_blanks {blanks : List Bytes} (h : ∀ line ∈ blanks, line = []) (number : Nat) :
    entriesFrom number blanks = [] := by
  induction blanks generalizing number with
  | nil => rfl
  | cons line rest ih =>
      obtain ⟨rfl, hrest⟩ := List.forall_mem_cons.mp h
      rw [entriesFrom_cons, ih hrest]
      rfl

/-- The lines of signatures are entries that write the signatures, whatever blank
lines follow them. -/
theorem forall₂_writes {signatures : List Signature} (h : ∀ s ∈ signatures, s.Expressible)
    {blanks : List Bytes} (hblanks : ∀ line ∈ blanks, line = []) (number : Nat) :
    List.Forall₂ Entry.Writes
      (entriesFrom number (signatures.map (fun s => octets s.line) ++ blanks))
      (signatures.map Signature.toDefinition) := by
  induction signatures generalizing number with
  | nil =>
      rw [List.map_nil, List.nil_append, entriesFrom_blanks hblanks]
      exact .nil
  | cons signature rest ih =>
      obtain ⟨hsignature, hrest⟩ := List.forall_mem_cons.mp h
      rw [List.map_cons, List.map_cons, List.cons_append, entriesFrom_cons,
        dropReturn_octets_line hsignature, octets_line hsignature,
        if_neg (by rw [WrittenLine.isSkipped_text]; exact Bool.false_ne_true)]
      exact .cons ⟨_, rfl, (writtenLine_definition hsignature).symm⟩ (ih hrest (number + 1))

/-- Apart at its line feeds, a written file is its lines, and blank lines behind
them if there are none or the last one has a line feed too. -/
theorem splitOn_fileText {signatures : List Signature} (h : ∀ s ∈ signatures, s.Expressible)
    {ending : String} (hending : ending = "" ∨ ending = "\n") :
    ∃ blanks : List Bytes, (∀ line ∈ blanks, line = []) ∧
      (octets (fileText signatures ++ ending)).splitOn 10 =
        signatures.map (fun s => octets s.line) ++ blanks := by
  have hfeed : octets "\n" = [10] := by decide
  have hfeeds : ∀ line ∈ signatures.map fun s => octets s.line, (10 : UInt8) ∉ line := by
    intro line hline hmem
    obtain ⟨signature, hsignature, rfl⟩ := List.mem_map.mp hline
    exact absurd (le_of_mem_octets_line (h signature hsignature) 10 hmem) (by decide)
  by_cases hne : signatures = []
  · subst hne
    rcases hending with rfl | rfl
    · exact ⟨[[]], by simp, by decide⟩
    · exact ⟨[[], []], by simp, by decide⟩
  · have hlines : (octets (fileText signatures)).splitOn 10 =
        signatures.map fun s => octets s.line := by
      rw [fileText, octets_intercalate, List.map_map]
      exact List.splitOn_intercalate 10 hfeeds (by simpa using hne)
    rcases hending with rfl | rfl
    · exact ⟨[], by simp, by rw [String.append_empty, hlines, List.append_nil]⟩
    · refine ⟨[[]], by simp, ?_⟩
      rw [octets_append, hfeed, List.splitOn_append_cons_self, hlines]
      rfl

/-- Reading undoes writing. -/
theorem reply_ofText_fileText {signatures : List Signature} (h : ∀ s ∈ signatures, s.Expressible)
    {ending : String} (hending : ending = "" ∨ ending = "\n") :
    (Reading.ofText (octets (fileText signatures ++ ending))).reply =
      .ok (signatures.map Signature.toDefinition) := by
  obtain ⟨blanks, hblanks, hlines⟩ := splitOn_fileText h hending
  rw [Reading.reply_ofText, entries, hlines, readEntries_eq_ok_iff]
  exact forall₂_writes h hblanks 1

/-! ## what can be read -/

theorem isAlphanum_of_isIdentifierOctet {octet : UInt8} (h : isIdentifierOctet octet = true) :
    (Char.ofNat octet.toNat).isAlphanum ∨ Char.ofNat octet.toNat = '_' := by
  rwa [← isIdentifierNumber_char_iff, toNat_char, isIdentifierNumber_octet_iff]

/-- What a line defines can be written again. -/
theorem WrittenLine.expressible (line : WrittenLine) : line.definition.Expressible where
  identifier_ne := by
    simpa [definition, octetText] using line.opening.name.ne_nil
  identifier_all := by
    intro c hc
    rw [definition, octetText, String.toList_ofList] at hc
    obtain ⟨octet, hoctet, rfl⟩ := List.mem_map.mp hc
    exact isAlphanum_of_isIdentifierOctet (line.opening.name.all octet hoctet)
  anchor_ne := by
    rw [definition, anchor]
    split
    · next hminus =>
        intro hzero
        exact Nat.ne_of_gt hminus.2 (Anchor.fromEnd.inj hzero)
    · exact Anchor.noConfusion
  offset_le := by
    have hle := line.offset.value_le
    rw [definition, anchor]
    split
    · exact hle
    · exact hle
  pattern_ne_nil := by simpa [definition] using line.tokens_ne_nil

theorem expressible_of_forall₂ {entries : List Entry} {definitions : List Definition}
    (h : List.Forall₂ Entry.Writes entries definitions) : ∀ d ∈ definitions, d.Expressible := by
  induction h with
  | nil => exact nofun
  | cons writes _ ih =>
      obtain ⟨line, -, rfl⟩ := writes
      exact List.forall_mem_cons.mpr ⟨line.expressible, ih⟩

theorem expressible_of_reply {text : Bytes} {definitions : List Definition}
    (h : (Reading.ofText text).reply = .ok definitions) : ∀ d ∈ definitions, d.Expressible := by
  rw [Reading.reply_ofText, readEntries_eq_ok_iff] at h
  exact expressible_of_forall₂ h

/-- Expressible definitions are those of signatures. -/
theorem exists_signatures {definitions : List Definition} (h : ∀ d ∈ definitions, d.Expressible) :
    ∃ signatures : List Signature, signatures.map Signature.toDefinition = definitions := by
  refine ⟨definitions.pmap (fun d hd => ⟨d, 0, 0, hd⟩) fun d hd => (h d hd).pattern_ne_nil, ?_⟩
  simp [List.map_pmap]

/-- **Reading definitions undoes writing them.**  Reading a file with a line for
each of some expressible signatures, be there a line feed behind the last line or
not, gives their definitions.  Whatever file is read, its definitions are
expressible; so the lists of expressible definitions are the ones that can be
read. -/
theorem Reading.ofText_fileText :
    (∀ signatures : List Signature, (∀ signature ∈ signatures, signature.Expressible) →
      ∀ ending, ending = "" ∨ ending = "\n" →
        (Reading.ofText (octets (fileText signatures ++ ending))).reply =
          .ok (signatures.map Signature.toDefinition)) ∧
    (∀ text definitions, (Reading.ofText text).reply = .ok definitions →
      ∀ definition ∈ definitions, definition.Expressible) ∧
    ∀ definitions, (∃ text, (Reading.ofText text).reply = .ok definitions) ↔
      ∀ definition ∈ definitions, definition.Expressible := by
  refine ⟨fun _ h _ hending => reply_ofText_fileText h hending,
    fun _ _ h => expressible_of_reply h, fun definitions => ⟨?_, fun h => ?_⟩⟩
  · rintro ⟨text, h⟩
    exact expressible_of_reply h
  · obtain ⟨signatures, rfl⟩ := exists_signatures h
    rw [List.forall_mem_map] at h
    exact ⟨_, reply_ofText_fileText h (.inl rfl)⟩

/-- A signature from each end of the stream, with octets that no line can hold bare. -/
theorem Reading.ofText_fileText_sample :
    (Reading.ofText (octets (fileText
        [⟨⟨"mz_1", .fromStart 0, [77, 90]⟩, 0, 0, List.cons_ne_nil 77 [90]⟩,
          ⟨⟨"tail", .fromEnd maxPosition, [10, 92, 255]⟩, 1, 2, List.cons_ne_nil 10 [92, 255]⟩] ++
        "\n"))).reply =
      .ok [⟨"mz_1", .fromStart 0, [77, 90]⟩, ⟨"tail", .fromEnd maxPosition, [10, 92, 255]⟩] := by
  refine Reading.ofText_fileText.1 _ (fun signature hmem => ?_) "\n" (.inr rfl)
  rcases List.mem_pair.mp hmem with rfl | rfl
  · exact ⟨by decide, by simp, by decide, by decide, by decide⟩
  · exact ⟨by decide, by simp, by decide, by decide, by decide⟩

end AnchorScan
