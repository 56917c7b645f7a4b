import AnchorScan.DefinitionFile.Escape
import Mathlib.Data.List.Basic

/-!
# AnchorScan.Proofs.PatternText

The language of written patterns.  A written pattern is a run of tokens, each of
which writes one octet; a text that is no such run has a place where tokens end
and nothing that stands there is one.

* `Token`: the tokens, `HexDigit` and `letterEscapes` what they are made of;
* `Stuck`: the ways in which no token stands at the front of a text;
* `exists_tokens`: every text is tokens up to its end or up to such a place;
* `unescape_eq_ok_iff` and `unescape_eq_error_iff`: reading a pattern gives what
  its tokens write, or tells why there is no token where they end.
-/

namespace AnchorScan

/-! ## tokens -/

/-- A hexadecimal digit of either case, with its value. -/
structure HexDigit where
  octet : UInt8
  value : Nat
  writes : value < 10 ∧ octet.toNat = 48 + value ∨
    10 ≤ value ∧ value < 16 ∧ (octet.toNat = 55 + value ∨ octet.toNat = 87 + value)

/-- The letters of escapes, and the octets that they stand for: backslash, alert,
backspace, form feed, line feed, carriage return, horizontal and vertical tab. -/
def letterEscapes : List (UInt8 × UInt8) :=
  [(92, 92), (97, 7), (98, 8), (102, 12), (110, 10), (114, 13), (116, 9), (118, 11)]

/-- How one octet of a pattern is written. -/
inductive Token where
  /-- An octet other than the backslash writes itself. -/
  | plain (octet : UInt8) (ne : octet ≠ backslash)
  | letter (letter value : UInt8) (known : (letter, value) ∈ letterEscapes)
  | hex (high low : HexDigit)

namespace Token

/-- The octets of a token. -/
def text : Token → Bytes
  | plain octet _ => [octet]
  | letter octet _ _ => [backslash, octet]
  | hex high low => [backslash, hexMark, high.octet, low.octet]

/-- The octet that a token writes. -/
def value : Token → UInt8
  | plain octet _ => octet
  | letter _ value _ => value
  | hex high low => UInt8.ofNat (16 * high.value + low.value)

theorem text_ne_nil (token : Token) : token.text ≠ [] := by
  cases token <;> simp [text]

end Token

/-- The text of tokens, one behind the other. -/
def tokensText (tokens : List Token) : Bytes := tokens.flatMap Token.text

@[simp] theorem tokensText_nil : tokensText [] = [] := rfl

@[simp] theorem tokensText_cons (token : Token) (rest : List Token) :
    tokensText (token :: rest) = token.text ++ tokensText rest := List.flatMap_cons

/-- No token stands at the front of a text that is not empty, and why. -/
inductive Stuck : Bytes → EscapeFault → Prop
  | trailingBackslash : Stuck [backslash] .trailingBackslash
  | invalidHex {rest : Bytes}
      (none : ∀ (high low : HexDigit) (more : Bytes), rest ≠ high.octet :: low.octet :: more) :
      Stuck (backslash :: hexMark :: rest) .invalidHex
  | unsupported {letter : UInt8} {rest : Bytes} (ne : letter ≠ hexMark)
      (unknown : ∀ value, (letter, value) ∉ letterEscapes) :
      Stuck (backslash :: letter :: rest) (.unsupported letter)

/-! ## letters and digits -/

theorem letterEscape?_eq_some_iff {letter value : UInt8} :
    letterEscape? letter = some value ↔ (letter, value) ∈ letterEscapes := by
  simp only [letterEscape?, letterEscapes, List.mem_cons, Prod.mk.injEq, List.not_mem_nil, or_false]
  grind

/-- The letter of hexadecimal escapes is none of the others. -/
theorem ne_hexMark_of_mem_letterEscapes {letter value : UInt8}
    (h : (letter, value) ∈ letterEscapes) : letter ≠ hexMark := by
  rintro rfl
  rw [← letterEscape?_eq_some_iff] at h
  cases h

/-- A digit is read as its value. -/
theorem hexDigitValue?_octet (digit : HexDigit) :
    hexDigitValue? digit.octet = some digit.value := by
  obtain ⟨octet, value, writes⟩ := digit
  simp only [hexDigitValue?, UInt8.le_iff_toNat_le]
  rcases writes with ⟨hlt, hoctet⟩ | ⟨hle, hlt, hupper | hlower⟩
  · rw [if_pos (by simp; omega), hoctet, Nat.add_sub_cancel_left]
  · rw [if_neg (by simp; omega), if_neg (by simp; omega), if_pos (by simp; omega), hupper,
      Nat.add_sub_cancel_left]
  · rw [if_neg (by simp; omega), if_pos (by simp; omega), hlower, Nat.add_sub_cancel_left]

/-- What is read as a digit is one. -/
theorem exists_hexDigit {octet : UInt8} {value : Nat} (h : hexDigitValue? octet = some value) :
    ∃ digit : HexDigit, digit.octet = octet ∧ digit.value = value := by
  refine ⟨⟨octet, value, ?_⟩, rfl, rfl⟩
  simp only [hexDigitValue?, UInt8.le_iff_toNat_le] at h
  split at h
  · next hdigit => cases h; simp at hdigit; omega
  · split at h
    · next hlower => cases h; simp at hlower; omega
    · split at h
      · next hupper => cases h; simp at hupper; omega
      · cases h

theorem hexPair?_octets (high low : HexDigit) :
    hexPair? high.octet low.octet = some (Token.hex high low).value := by
  simp only [hexPair?, hexDigitValue?_octet, Token.value]

theorem exists_hexDigits {high low value : UInt8} (h : hexPair? high low = some value) :
    ∃ first second : HexDigit, first.octet = high ∧ second.octet = low := by
  unfold hexPair? at h
  split at h
  · next hhigh hlow =>
      obtain ⟨first, hfirst, -⟩ := exists_hexDigit hhigh
      obtain ⟨second, hsecond, -⟩ := exists_hexDigit hlow
      exact ⟨first, second, hfirst, hsecond⟩
  · cases h

/-! ## reading tokens -/

theorem unescape_cons_of_ne {octet : UInt8} (ne : octet ≠ backslash) (rest : Bytes) :
    unescape (octet :: rest) = (unescape rest).map (octet :: ·) := by
  rw [unescape.eq_def]
  exact if_pos ne

theorem unescape_letter {letter : UInt8} (ne : letter ≠ hexMark) (rest : Bytes) :
    unescape (backslash :: letter :: rest) = match letterEscape? letter with
      | some value => (unescape rest).map (value :: ·)
      | none => .error (.unsupported letter) := by
  rw [unescape.eq_def]
  exact (if_neg (not_not.mpr rfl)).trans (if_neg ne)

theorem unescape_hexMark (rest : Bytes) :
    unescape (backslash :: hexMark :: rest) = match rest with
      | high :: low :: rest =>
        match hexPair? high low with
        | some value => (unescape rest).map (value :: ·)
        | none => .error .invalidHex
      | _ => .error .invalidHex := by
  rw [unescape.eq_def]
  exact (if_neg (not_not.mpr rfl)).trans (if_pos rfl)

/-- Reading a token gives the octet that it writes. -/
theorem unescape_text_append (token : Token) (rest : Bytes) :
    unescape (token.text ++ rest) = (unescape rest).map (token.value :: ·) := by
  cases token with
  | plain octet ne => exact unescape_cons_of_ne ne rest
  | letter letter value known =>
      show unescape (backslash :: letter :: rest) = _
      rw [unescape_letter (ne_hexMark_of_mem_letterEscapes known),
        letterEscape?_eq_some_iff.mpr known, Token.value]
  | hex high low =>
      show unescape (backslash :: hexMark :: high.octet :: low.octet :: rest) = _
      rw [unescape_hexMark]
      simp only [hexPair?_octets]

/-- Where no token stands, reading tells why. -/
theorem Stuck.unescape_eq {rest : Bytes} {fault : EscapeFault} (stuck : Stuck rest fault) :
    unescape rest = .error fault := by
  cases stuck with
  | trailingBackslash => rfl
  | @invalidHex rest none =>
      rw [unescape_hexMark]
      split
      · next high low more =>
          cases hpair : hexPair? high low with
          | none => rfl
          | some value =>
              obtain ⟨first, second, rfl, rfl⟩ := exists_hexDigits hpair
              exact absurd rfl (none first second more)
      · rfl
  | @unsupported letter rest ne unknown =>
      rw [unescape_letter ne]
      cases hletter : letterEscape? letter with
      | none => rfl
      | some value => exact absurd (letterEscape?_eq_some_iff.mp hletter) (unknown value)

/-- At the front of a text that is not empty stands a token, or none. -/
theorem exists_token {text : Bytes} (h : text ≠ []) :
    (∃ token rest, text = Token.text token ++ rest) ∨ ∃ fault, Stuck text fault := by
  match text with
  | octet :: rest =>
    by_cases hescape : octet = backslash
    · subst hescape
      match rest with
      | [] => exact .inr ⟨_, .trailingBackslash⟩
      | letter :: rest =>
        by_cases hhex : letter = hexMark
        · subst hhex
          by_cases hdigits : ∃ (high low : HexDigit) (more : Bytes),
              rest = high.octet :: low.octet :: more
          · obtain ⟨high, low, more, rfl⟩ := hdigits
            exact .inl ⟨.hex high low, more, rfl⟩
          · push Not at hdigits
            exact .inr ⟨_, .invalidHex hdigits⟩
        · by_cases hknown : ∃ value, (letter, value) ∈ letterEscapes
          · obtain ⟨value, known⟩ := hknown
            exact .inl ⟨.letter letter value known, rest, rfl⟩
          · push Not at hknown
            exact .inr ⟨_, .unsupported hhex hknown⟩
    · exact .inl ⟨.plain octet hescape, rest, rfl⟩

/-- **Every text is tokens, up to its end or to a place where none stands.** -/
theorem exists_tokens (text : Bytes) :
    ∃ tokens rest, text = tokensText tokens ++ rest ∧ (rest = [] ∨ ∃ fault, Stuck rest fault) := by
  by_cases h : text = []
  · exact ⟨[], [], h, .inl rfl⟩
  · rcases exists_token h with ⟨token, rest, hrest⟩ | stuck
    · have hpos : 0 < token.text.length := List.length_pos_iff.mpr token.text_ne_nil
      obtain ⟨tokens, last, hlast, hend⟩ := exists_tokens rest
      exact ⟨token :: tokens, last, by rw [hrest, hlast, tokensText_cons, List.append_assoc], hend⟩
    · exact ⟨[], text, rfl, .inr stuck⟩
termination_by text.length
decreasing_by
  rw [hrest, List.length_append]
  omega

/-- Reading tokens gives what they write, before what follows them. -/
theorem unescape_tokensText_append (tokens : List Token) (rest : Bytes) :
    unescape (tokensText tokens ++ rest) = (unescape rest).map (tokens.map Token.value ++ ·) := by
  induction tokens with
  | nil => cases h : unescape rest <;> simp [h, Except.map]
  | cons token others ih =>
      rw [tokensText_cons, List.append_assoc, unescape_text_append, ih]
      cases unescape rest <;> rfl

theorem unescape_tokensText (tokens : List Token) :
    unescape (tokensText tokens) = .ok (tokens.map Token.value) := by
  have h := unescape_tokensText_append tokens []
  rw [List.append_nil] at h
  rw [h]
  simp [unescape, Except.map]

/-- **Reading a pattern gives what its tokens write**, and it gives nothing else. -/
theorem unescape_eq_ok_iff {text pattern : Bytes} :
    unescape text = .ok pattern ↔
      ∃ tokens, text = tokensText tokens ∧ pattern = tokens.map Token.value := by
  constructor
  · intro h
    obtain ⟨tokens, rest, rfl, rfl | ⟨fault, stuck⟩⟩ := exists_tokens text
    · rw [List.append_nil, unescape_tokensText] at h
      exact ⟨tokens, List.append_nil _, (Except.ok.inj h).symm⟩
    · rw [unescape_tokensText_append, stuck.unescape_eq] at h
      cases h
  · rintro ⟨tokens, rfl, rfl⟩
    exact unescape_tokensText tokens

/-- **Reading fails where tokens end before the text does**, and tells why none
stands there. -/
theorem unescape_eq_error_iff {text : Bytes} {fault : EscapeFault} :
    unescape text = .error fault ↔
      ∃ tokens rest, text = tokensText tokens ++ rest ∧ Stuck rest fault := by
  constructor
  · intro h
    obtain ⟨tokens, rest, rfl, rfl | ⟨fault', stuck⟩⟩ := exists_tokens text
    · rw [List.append_nil, unescape_tokensText] at h
      cases h
    · rw [unescape_tokensText_append, stuck.unescape_eq] at h
      cases h
      exact ⟨tokens, rest, rfl, stuck⟩
  · rintro ⟨tokens, rest, rfl, stuck⟩
    rw [unescape_tokensText_append, stuck.unescape_eq]
    rfl

end AnchorScan
