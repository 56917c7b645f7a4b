import AnchorScan.Json.Reader
import AnchorScan.Json.Writer

/-!
# AnchorScan.Proofs.JsonText

Strings and numbers as the grammar of JSON has them.  They are read as what they
stand for, whatever stands behind them, as long as that does not go on with the
number.

* `Quoted`: what may stand between quotation marks, and the text that it stands for;
* `Numeral`: a number, part by part;
* `Quoted.readText` and `Numeral.readNumber`: both are read;
* `quoted_writeText` and `Numeral.ofNat`: what is written is among them.
-/

namespace AnchorScan.Json

/-! ## strings -/

/-- The letters that stand for a character behind a backslash. -/
def charEscapes : List (Char × Char) :=
  [('"', '"'), ('\\', '\\'), ('/', '/'), ('b', '\x08'), ('f', '\x0c'), ('n', '\n'), ('r', '\r'),
    ('t', '\t')]

/-- The hexadecimal digits of either case, with their values. -/
def hexDigits : List (Char × Nat) :=
  "0123456789abcdef".toList.zipIdx ++ "ABCDEF".toList.zipIdx 10

/-- Four hexadecimal digits, and the code unit that they write. -/
inductive UnitText : List Char → Nat → Prop
  | intro {a b c d : Char} {x y z w : Nat} (ha : (a, x) ∈ hexDigits) (hb : (b, y) ∈ hexDigits)
      (hc : (c, z) ∈ hexDigits) (hd : (d, w) ∈ hexDigits) :
      UnitText [a, b, c, d] (16 * (16 * (16 * x + y) + z) + w)

/-- What may stand between quotation marks, and the characters that it stands for.
No half of a surrogate pair stands alone. -/
inductive Quoted : List Char → List Char → Prop
  | nil : Quoted [] []
  | plain {c : Char} {text content : List Char} (ne_quote : c ≠ '"') (ne_slash : c ≠ '\\')
      (le_toNat : 32 ≤ c.toNat) (rest : Quoted text content) : Quoted (c :: text) (c :: content)
  | letter {mark c : Char} {text content : List Char} (known : (mark, c) ∈ charEscapes)
      (rest : Quoted text content) : Quoted ('\\' :: mark :: text) (c :: content)
  /-- A character by its number. -/
  | unit {c : Char} {digits text content : List Char} (unit : UnitText digits c.toNat)
      (rest : Quoted text content) : Quoted ('\\' :: 'u' :: (digits ++ text)) (c :: content)
  /-- A character that needs two code units. -/
  | pair {c : Char} {high low text content : List Char} (le_toNat : 0x10000 ≤ c.toNat)
      (first : UnitText high (0xD800 + (c.toNat - 0x10000) / 0x400))
      (second : UnitText low (0xDC00 + (c.toNat - 0x10000) % 0x400))
      (rest : Quoted text content) :
      Quoted ('\\' :: 'u' :: (high ++ '\\' :: 'u' :: (low ++ text))) (c :: content)

theorem hexDigit?_of_mem {c : Char} {value : Nat} (h : (c, value) ∈ hexDigits) :
    hexDigit? c = some value := by
  have hall : hexDigits.all (fun digit => hexDigit? digit.1 = some digit.2) = true := by decide
  simpa using List.all_eq_true.mp hall _ h

theorem escape?_of_mem {mark c : Char} (h : (mark, c) ∈ charEscapes) :
    mark ≠ 'u' ∧ escape? mark = some c := by
  have hall : charEscapes.all (fun pair => pair.1 ≠ 'u' ∧ escape? pair.1 = some pair.2) = true := by
    decide
  simpa using List.all_eq_true.mp hall _ h

/-! ### pieces -/

/-- An escape of one letter is read as the character that it stands for. -/
theorem readPieces_letter {mark c : Char} (known : (mark, c) ∈ charEscapes) (rest : List Char) :
    readPieces ('\\' :: mark :: rest) =
      (readPieces rest).map fun (pieces, rest) => (.char c :: pieces, rest) := by
  obtain ⟨hmark, hescape⟩ := escape?_of_mem known
  rw [readPieces.eq_def]
  simp only [Char.reduceEq, ↓reduceIte, hmark, hescape]
  cases readPieces rest <;> rfl

/-- Four digits are read as the code unit that they write. -/
theorem UnitText.codeUnit? {digits : List Char} {code : Nat} (unit : UnitText digits code) :
    ∃ a b c d, digits = [a, b, c, d] ∧ codeUnit? a b c d = some code := by
  cases unit with
  | intro ha hb hc hd =>
      refine ⟨_, _, _, _, rfl, ?_⟩
      rw [Json.codeUnit?, hexDigit?_of_mem ha, hexDigit?_of_mem hb, hexDigit?_of_mem hc,
        hexDigit?_of_mem hd]

/-- An escape of four digits is read as a code unit. -/
theorem readPieces_unit {digits : List Char} {code : Nat} (unit : UnitText digits code)
    (rest : List Char) :
    readPieces ('\\' :: 'u' :: (digits ++ rest)) =
      (readPieces rest).map fun (pieces, rest) => (.codeUnit code :: pieces, rest) := by
  obtain ⟨a, b, c, d, rfl, hcode⟩ := unit.codeUnit?
  simp only [List.cons_append, List.nil_append]
  rw [readPieces.eq_def]
  simp only [Char.reduceEq, ↓reduceIte, hcode]
  cases readPieces rest <;> rfl

/-- Every other character is read as it stands. -/
theorem readPieces_plain {c : Char} (ne_quote : c ≠ '"') (ne_slash : c ≠ '\\')
    (le_toNat : 32 ≤ c.toNat) (rest : List Char) :
    readPieces (c :: rest) =
      (readPieces rest).map fun (pieces, rest) => (.char c :: pieces, rest) := by
  rw [readPieces.eq_def]
  simp only [ne_quote, ne_slash, Nat.not_lt.mpr le_toNat, ↓reduceIte]

/-- Characters have no numbers of surrogates. -/
theorem not_surrogate (c : Char) :
    isHighSurrogate c.toNat = false ∧ isLowSurrogate c.toNat = false := by
  have hvalid : c.toNat < 0xD800 ∨ 0xDFFF < c.toNat ∧ c.toNat < 0x110000 := c.valid
  simp only [isHighSurrogate, isLowSurrogate, decide_eq_false_iff_not]
  omega

theorem joinPieces_unit (c : Char) (pieces : List Piece) :
    joinPieces (.codeUnit c.toNat :: pieces) = (joinPieces pieces).map (c :: ·) := by
  obtain ⟨hhigh, hlow⟩ := not_surrogate c
  rw [joinPieces.eq_def]
  simp only [hhigh, hlow, Char.ofNat_toNat, Bool.false_eq_true, ↓reduceIte]

theorem joinPieces_pair {c : Char} (le_toNat : 0x10000 ≤ c.toNat) (pieces : List Piece) :
    joinPieces (.codeUnit (0xD800 + (c.toNat - 0x10000) / 0x400) ::
        .codeUnit (0xDC00 + (c.toNat - 0x10000) % 0x400) :: pieces) =
      (joinPieces pieces).map (c :: ·) := by
  have hvalid : c.toNat < 0xD800 ∨ 0xDFFF < c.toNat ∧ c.toNat < 0x110000 := c.valid
  have hhigh : isHighSurrogate (0xD800 + (c.toNat - 0x10000) / 0x400) = true := by
    simp only [isHighSurrogate, decide_eq_true_eq]
    omega
  have hlow : isLowSurrogate (0xDC00 + (c.toNat - 0x10000) % 0x400) = true := by
    simp only [isLowSurrogate, decide_eq_true_eq]
    omega
  have hnumber : 0x10000 + 0x400 * (0xD800 + (c.toNat - 0x10000) / 0x400 - 0xD800) +
      (0xDC00 + (c.toNat - 0x10000) % 0x400 - 0xDC00) = c.toNat := by omega
  rw [joinPieces.eq_def]
  simp only [hhigh, hlow, hnumber, Char.ofNat_toNat, ↓reduceIte]

/-- What stands between quotation marks is read up to the closing one, in pieces
that are joined to its characters. -/
theorem Quoted.exists_pieces {text content : List Char} (quoted : Quoted text content)
    (rest : List Char) :
    ∃ pieces, readPieces (text ++ '"' :: rest) = some (pieces, rest) ∧
      joinPieces pieces = some content := by
  induction quoted with
  | nil => exact ⟨[], by rw [List.nil_append, readPieces.eq_def]; rfl, rfl⟩
  | plain ne_quote ne_slash le_toNat _ ih =>
      obtain ⟨pieces, hread, hjoin⟩ := ih
      rw [List.cons_append, readPieces_plain ne_quote ne_slash le_toNat, hread]
      refine ⟨_, rfl, ?_⟩
      rw [joinPieces, hjoin, Option.map_some]
  | letter known _ ih =>
      obtain ⟨pieces, hread, hjoin⟩ := ih
      rw [List.cons_append, List.cons_append, readPieces_letter known, hread]
      refine ⟨_, rfl, ?_⟩
      rw [joinPieces, hjoin, Option.map_some]
  | unit unit _ ih =>
      obtain ⟨pieces, hread, hjoin⟩ := ih
      simp only [List.cons_append, List.append_assoc]
      rw [readPieces_unit unit, hread]
      refine ⟨_, rfl, ?_⟩
      rw [joinPieces_unit, hjoin, Option.map_some]
  | pair le_toNat first second _ ih =>
      obtain ⟨pieces, hread, hjoin⟩ := ih
      simp only [List.cons_append, List.append_assoc]
      rw [readPieces_unit first, readPieces_unit second, hread]
      refine ⟨_, rfl, ?_⟩
      rw [joinPieces_pair le_toNat, hjoin, Option.map_some]

/-- **A string is read as what it stands for.** -/
theorem Quoted.readText {text content : List Char} (quoted : Quoted text content)
    (rest : List Char) :
    readText (text ++ '"' :: rest) = some (some (String.ofList content), rest) := by
  obtain ⟨pieces, hread, hjoin⟩ := quoted.exists_pieces rest
  simp only [Json.readText, hread, hjoin, Option.map_some]

/-! ### written strings -/

/-- A control character is the one with its number. -/
theorem eq_of_toNat_eq {c : Char} {number : Nat} (h : c.toNat = number) :
    c = Char.ofNat number := by
  rw [← h, Char.ofNat_toNat]

/-- A control character is written with the digits of its number. -/
theorem unitText_hexDigit {number : Nat} (h : number < 32) :
    UnitText ['0', '0', hexDigit (number / 16), hexDigit (number % 16)] number := by
  have hdigit : ∀ value < 16, (hexDigit value, value) ∈ hexDigits := by decide
  have hunit := UnitText.intro (hdigit 0 (by decide)) (hdigit 0 (by decide))
    (hdigit (number / 16) (by omega)) (hdigit (number % 16) (by omega))
  have hnumber : 16 * (16 * (16 * 0 + 0) + number / 16) + number % 16 = number := by omega
  rwa [hnumber] at hunit

/-- A character is written as what stands for it. -/
theorem quoted_writeChar (c : Char) {text content : List Char} (rest : Quoted text content) :
    Quoted (writeChar c ++ text) (c :: content) := by
  unfold writeChar
  split
  · next h => subst h; exact .letter (by decide) rest
  split
  · next h => subst h; exact .letter (by decide) rest
  split
  · next ne_quote ne_slash le_toNat => exact .plain ne_quote ne_slash le_toNat rest
  split
  · next h => rw [eq_of_toNat_eq h]; exact .letter (by decide) rest
  split
  · next h => rw [eq_of_toNat_eq h]; exact .letter (by decide) rest
  split
  · next h => rw [eq_of_toNat_eq h]; exact .letter (by decide) rest
  split
  · next h => rw [eq_of_toNat_eq h]; exact .letter (by decide) rest
  split
  · next h => rw [eq_of_toNat_eq h]; exact .letter (by decide) rest
  · next hcontrol _ _ _ _ _ => exact .unit (unitText_hexDigit (Nat.not_le.mp hcontrol)) rest

/-- A string is written as what stands for it. -/
theorem quoted_writeText (content : String) :
    ∃ text, writeText (some content) = '"' :: (text ++ ['"']) ∧ Quoted text content.toList := by
  refine ⟨content.toList.flatMap writeChar, rfl, ?_⟩
  induction content.toList with
  | nil => exact .nil
  | cons c rest ih => exact quoted_writeChar c ih

/-! ## numbers -/

/-- One decimal digit or more. -/
structure IsDigits (text : List Char) : Prop where
  ne_nil : text ≠ []
  all : ∀ c ∈ text, c.isDigit = true

/-- A number: a sign or none, a whole part that has no zero in front, a fraction or
none, and an exponent or none. -/
structure Numeral where
  sign : List Char
  whole : List Char
  fraction : List Char
  exponent : List Char
  sign_eq : sign = [] ∨ sign = ['-']
  whole_eq : whole = ['0'] ∨ IsDigits whole ∧ whole.head? ≠ some '0'
  fraction_eq : fraction = [] ∨ ∃ digits, IsDigits digits ∧ fraction = '.' :: digits
  exponent_eq : exponent = [] ∨ ∃ mark ∈ ['e', 'E'], ∃ sign ∈ [[], ['+'], ['-']],
    ∃ digits, IsDigits digits ∧ exponent = mark :: (sign ++ digits)

namespace Numeral

/-- The characters of a number. -/
def text (numeral : Numeral) : List Char :=
  numeral.sign ++ (numeral.whole ++ (numeral.fraction ++ numeral.exponent))

/-- The document that a number is: a natural number if it is a few plain digits. -/
def value (numeral : Numeral) : Value :=
  if numeral.sign ++ numeral.fraction ++ numeral.exponent = [] ∧
      numeral.whole.length ≤ maxNaturalDigits then
    .natural (Nat.ofDigitChars 10 numeral.whole 0)
  else .number (String.ofList numeral.text)

end Numeral

/-! ### what stands behind a number -/

/-- What may stand behind a number: nothing that would go on with it. -/
def Ends (rest : List Char) : Prop :=
  ∀ c ∈ rest.head?, c.isDigit = false ∧ c ≠ '.' ∧ c ≠ 'e' ∧ c ≠ 'E'

/-- What does not go on with digits. -/
def EndsDigits (rest : List Char) : Prop := ∀ c ∈ rest.head?, c.isDigit = false

theorem Ends.endsDigits {rest : List Char} (ends : Ends rest) : EndsDigits rest :=
  fun c h => (ends c h).1

theorem endsDigits_exponent (numeral : Numeral) {rest : List Char} (ends : Ends rest) :
    EndsDigits (numeral.exponent ++ rest) := by
  rcases numeral.exponent_eq with h | ⟨mark, hmark, sign, -, digits, -, h⟩
  · rw [h]
    exact ends.endsDigits
  · rw [h]
    simp only [List.mem_cons, List.not_mem_nil, or_false] at hmark
    rcases hmark with rfl | rfl <;> exact fun c hc => Option.some.inj hc ▸ rfl

theorem endsDigits_fraction (numeral : Numeral) {rest : List Char} (ends : Ends rest) :
    EndsDigits (numeral.fraction ++ (numeral.exponent ++ rest)) := by
  rcases numeral.fraction_eq with h | ⟨digits, -, h⟩
  · rw [h]
    exact endsDigits_exponent numeral ends
  · rw [h]
    exact fun c hc => Option.some.inj hc ▸ rfl

/-! ### parts of a number -/

theorem isDecimal_eq (c : Char) : isDecimal c = c.isDigit := by
  have hdigit : c.isDigit = (decide ('0'.val ≤ c.val) && decide (c.val ≤ '9'.val)) := rfl
  rw [hdigit, ← Bool.decide_and]
  rfl

/-- Digits are told apart from what does not go on with them. -/
theorem IsDigits.span {digits rest : List Char} (h : IsDigits digits) (ends : EndsDigits rest) :
    (digits ++ rest).takeWhile isDecimal = digits ∧
      (digits ++ rest).dropWhile isDecimal = rest := by
  have hall : ∀ c ∈ digits, isDecimal c = true := fun c hc => (isDecimal_eq c).trans (h.all c hc)
  rw [List.takeWhile_append_of_pos hall, List.dropWhile_append_of_pos hall]
  cases rest with
  | nil => simp
  | cons c rest =>
      have hc : isDecimal c = false := (isDecimal_eq c).trans (ends c rfl)
      simp [hc]

theorem IsDigits.readDigits {digits rest : List Char} (h : IsDigits digits)
    (ends : EndsDigits rest) : readDigits (digits ++ rest) = some (digits, rest) := by
  obtain ⟨htake, hdrop⟩ := h.span ends
  unfold Json.readDigits
  rw [htake, hdrop]
  split
  · next hnil => exact absurd rfl h.ne_nil
  · rfl

namespace Numeral

variable (numeral : Numeral)

theorem readWhole {rest : List Char} (ends : EndsDigits rest) :
    readWhole (numeral.whole ++ rest) = some (numeral.whole, rest) := by
  rcases numeral.whole_eq with h | ⟨hdigits, hzero⟩
  · rw [h]
    rfl
  · obtain ⟨htake, hdrop⟩ := hdigits.span ends
    obtain ⟨c, others, hwhole⟩ := List.exists_cons_of_ne_nil hdigits.ne_nil
    rw [hwhole] at htake hdrop hzero ⊢
    rw [List.cons_append] at htake hdrop ⊢
    unfold Json.readWhole
    split
    · next heq => exact absurd (congrArg some (List.cons.inj heq).1) hzero
    · rw [htake, hdrop]

theorem readFraction {rest : List Char} (ends : Ends rest) :
    readFraction (numeral.fraction ++ (numeral.exponent ++ rest)) =
      some (numeral.fraction, numeral.exponent ++ rest) := by
  rcases numeral.fraction_eq with h | ⟨digits, hdigits, h⟩
  · rw [h, List.nil_append]
    unfold Json.readFraction
    split
    · next heq =>
        rcases numeral.exponent_eq with hexp | ⟨mark, hmark, sign, -, digits, -, hexp⟩
        · rw [hexp, List.nil_append] at heq
          exact absurd rfl (ends '.' (by rw [heq]; rfl)).2.1
        · rw [hexp] at heq
          rw [(List.cons.inj heq).1] at hmark
          exact absurd hmark (by decide)
    · rfl
  · rw [h, List.cons_append, Json.readFraction,
      hdigits.readDigits (endsDigits_exponent numeral ends),
      Option.map_some]

theorem readExponent {rest : List Char} (ends : Ends rest) :
    readExponent (numeral.exponent ++ rest) = some (numeral.exponent, rest) := by
  rcases numeral.exponent_eq with h | ⟨mark, hmark, sign, hsign, digits, hdigits, h⟩
  · rw [h, List.nil_append]
    cases rest with
    | nil => rfl
    | cons c rest =>
        obtain ⟨-, -, he, hE⟩ := ends c rfl
        rw [Json.readExponent, if_neg (by simp [he, hE])]
  · have hread := hdigits.readDigits ends.endsDigits
    have hsigned : readSign (sign ++ (digits ++ rest)) = (sign, digits ++ rest) := by
      simp only [List.mem_cons, List.not_mem_nil, or_false] at hsign
      rcases hsign with rfl | rfl | rfl
      · obtain ⟨c, others, rfl⟩ := List.exists_cons_of_ne_nil hdigits.ne_nil
        have hdigit := hdigits.all c List.mem_cons_self
        rw [List.nil_append, List.cons_append]
        unfold readSign
        split
        · next heq =>
            rw [(List.cons.inj heq).1] at hdigit
            exact absurd hdigit (by decide)
        · next heq =>
            rw [(List.cons.inj heq).1] at hdigit
            exact absurd hdigit (by decide)
        · rfl
      · rfl
      · rfl
    rw [h, List.cons_append, Json.readExponent, if_pos (by simpa using hmark), List.append_assoc]
    simp only [hsigned, hread, Option.map_some]

/-- A number without a sign begins with a digit. -/
theorem exists_whole : ∃ c rest, numeral.whole = c :: rest ∧ c.isDigit = true := by
  rcases numeral.whole_eq with h | ⟨hdigits, -⟩
  · exact ⟨'0', [], h, rfl⟩
  · obtain ⟨c, others, hwhole⟩ := List.exists_cons_of_ne_nil hdigits.ne_nil
    exact ⟨c, others, hwhole, hdigits.all c (by simp [hwhole])⟩

/-- **A number is read as what it stands for.** -/
theorem readNumber {rest : List Char} (ends : Ends rest) :
    readNumber (numeral.text ++ rest) = some (numeral.value, rest) := by
  have hwhole := numeral.readWhole (endsDigits_fraction numeral ends)
  have hfraction := numeral.readFraction ends
  have hexponent := numeral.readExponent ends
  have hvalue : Nat.ofDigitChars 10 numeral.whole 0 = decimal numeral.whole :=
    Nat.ofDigitChars_eq_foldl
  have htext : numeral.text ++ rest =
      numeral.sign ++ (numeral.whole ++ (numeral.fraction ++ (numeral.exponent ++ rest))) := by
    simp [text]
  unfold Json.readNumber
  rw [htext]
  split
  next sign unsigned hsign =>
    -- The reader takes a minus sign for the sign, and a whole part has none.
    obtain ⟨rfl, rfl⟩ : sign = numeral.sign ∧
        unsigned = numeral.whole ++ (numeral.fraction ++ (numeral.exponent ++ rest)) := by
      rcases numeral.sign_eq with hplain | hminus
      · obtain ⟨c, others, hfirst, hdigit⟩ := numeral.exists_whole
        rw [hplain, hfirst] at hsign ⊢
        split at hsign
        · next heq =>
            rw [(List.cons.inj heq).1] at hdigit
            exact absurd hdigit (by decide)
        · cases hsign
          exact ⟨rfl, rfl⟩
      · rw [hminus] at hsign ⊢
        cases hsign
        exact ⟨rfl, rfl⟩
    simp only [hwhole, hfraction, hexponent, Option.bind_eq_bind, Option.bind_some, value, hvalue]
    split
    · rfl
    · simp [text]

/-! ### written numbers -/

/-- Only zero is written with a leading zero. -/
theorem head_toDigits {value : Nat} (h : 0 < value) :
    (Nat.toDigits 10 value).head? ≠ some '0' := by
  have hone : ∀ digit < 10, 0 < digit → Nat.digitChar digit ≠ '0' := by decide
  induction value using Nat.strongRecOn with
  | ind value ih =>
      rw [Nat.toDigits_eq_if (by decide)]
      by_cases hlt : value < 10
      · rw [if_pos hlt]
        simpa using hone value hlt h
      · rw [if_neg hlt, List.head?_append, Option.or_of_isSome (by simp)]
        exact ih (value / 10) (by omega) (by omega)

/-- The digits of a natural number. -/
def ofNat (value : Nat) : Numeral where
  sign := []
  whole := Nat.toDigits 10 value
  fraction := []
  exponent := []
  sign_eq := .inl rfl
  whole_eq := by
    by_cases h : value = 0
    · exact .inl (by rw [h, Nat.toDigits_zero])
    · exact .inr ⟨⟨Nat.toDigits_ne_nil, fun c hc =>
        Nat.isDigit_of_mem_toDigits (by decide) (by decide) hc⟩,
        head_toDigits (Nat.pos_of_ne_zero h)⟩
  fraction_eq := .inl rfl
  exponent_eq := .inl rfl

theorem text_ofNat (value : Nat) : (ofNat value).text = Nat.toDigits 10 value := by
  simp [text, ofNat]

/-- The digits of a number that is not too long stand for it. -/
theorem value_ofNat {value : Nat} (h : (Nat.toDigits 10 value).length ≤ maxNaturalDigits) :
    (ofNat value).value = .natural value := by
  rw [Numeral.value, if_pos ⟨rfl, h⟩, ofNat, Nat.ofDigitChars_ten_toDigits]

end Numeral

end AnchorScan.Json
