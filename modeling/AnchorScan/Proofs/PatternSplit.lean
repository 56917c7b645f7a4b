import AnchorScan.Proofs.Writing

/-!
# AnchorScan.Proofs.PatternSplit

A written pattern is taken apart in one way only.  No token begins where another
could stand instead, so tokens are told apart from the left, and where they end
before the text does, what stands there says what is wrong.

* `Token.text_append_inj`: the first token of a text is settled, and so is what
  follows it;
* `tokensText_append_inj`: so are all tokens up to where none stands;
* `exists_visible`: every pattern can be written in visible ASCII;
* `unescape_exact`: what reading a pattern gives and refuses, and why.
-/

namespace AnchorScan

/-! ## tokens told apart -/

/-- An octet is one digit at most. -/
theorem HexDigit.eq_of_octet_eq {first second : HexDigit} (h : first.octet = second.octet) :
    first = second := by
  have hvalue : some first.value = some second.value := by
    rw [← hexDigitValue?_octet, ← hexDigitValue?_octet, h]
  obtain ⟨octet, value, writes⟩ := first
  obtain ⟨octet', value', writes'⟩ := second
  cases h
  cases hvalue
  rfl

/-- A letter stands for one octet at most. -/
theorem value_eq_of_mem_letterEscapes {letter value value' : UInt8}
    (h : (letter, value) ∈ letterEscapes) (h' : (letter, value') ∈ letterEscapes) :
    value = value' := by
  rw [← letterEscape?_eq_some_iff] at h h'
  exact Option.some.inj (h.symm.trans h')

/-- **The token at the front of a text is the only one there**, and what follows
it is settled with it. -/
theorem Token.text_append_inj {first second : Token} {rest rest' : Bytes}
    (h : first.text ++ rest = second.text ++ rest') : first = second ∧ rest = rest' := by
  cases first with
  | plain octet ne =>
      cases second with
      | plain octet' ne' =>
          cases h
          exact ⟨rfl, rfl⟩
      | letter letter' value' known' => exact absurd (List.cons.inj h).1 ne
      | hex high' low' => exact absurd (List.cons.inj h).1 ne
  | letter letter value known =>
      cases second with
      | plain octet' ne' => exact absurd (List.cons.inj h).1.symm ne'
      | letter letter' value' known' =>
          cases h
          cases value_eq_of_mem_letterEscapes known known'
          exact ⟨rfl, rfl⟩
      | hex high' low' =>
          cases h
          exact absurd rfl (ne_hexMark_of_mem_letterEscapes known)
  | hex high low =>
      cases second with
      | plain octet' ne' => exact absurd (List.cons.inj h).1.symm ne'
      | letter letter' value' known' =>
          cases h
          exact absurd rfl (ne_hexMark_of_mem_letterEscapes known')
      | hex high' low' =>
          simp only [text, List.cons_append, List.nil_append, List.cons.injEq, true_and] at h
          obtain ⟨hhigh, hlow, hrest⟩ := h
          rw [HexDigit.eq_of_octet_eq hhigh, HexDigit.eq_of_octet_eq hlow]
          exact ⟨rfl, hrest⟩

/-- No token stands at the front of a text. -/
def Tokenless (text : Bytes) : Prop := ∀ (token : Token) (rest : Bytes), text ≠ token.text ++ rest

theorem tokenless_nil : Tokenless [] := by
  intro token rest h
  exact token.text_ne_nil (List.append_eq_nil_iff.mp h.symm).1

theorem Stuck.tokenless {text : Bytes} {fault : EscapeFault} (stuck : Stuck text fault) :
    Tokenless text := by
  intro token rest h
  cases stuck with
  | trailingBackslash =>
      cases token with
      | plain octet ne => exact ne (List.cons.inj h).1.symm
      | letter letter value known => cases h
      | hex high low => cases h
  | invalidHex none =>
      cases token with
      | plain octet ne => exact ne (List.cons.inj h).1.symm
      | letter letter value known =>
          cases h
          exact ne_hexMark_of_mem_letterEscapes known rfl
      | hex high low =>
          cases h
          exact none high low _ rfl
  | unsupported ne unknown =>
      cases token with
      | plain octet ne' => exact ne' (List.cons.inj h).1.symm
      | letter letter value known =>
          cases h
          exact unknown value known
      | hex high low =>
          cases h
          exact ne rfl

/-- **Tokens are told apart** up to where none stands. -/
theorem tokensText_append_inj {first second : List Token} {rest rest' : Bytes}
    (h : tokensText first ++ rest = tokensText second ++ rest') (tokenless : Tokenless rest)
    (tokenless' : Tokenless rest') : first = second ∧ rest = rest' := by
  induction first generalizing second with
  | nil =>
      cases second with
      | nil => exact ⟨rfl, h⟩
      | cons token others =>
          rw [tokensText_cons, List.append_assoc] at h
          exact absurd h (tokenless token _)
  | cons token others ih =>
      cases second with
      | nil =>
          rw [tokensText_cons, List.append_assoc] at h
          exact absurd h.symm (tokenless' token _)
      | cons token' others' =>
          simp only [tokensText_cons, List.append_assoc] at h
          obtain ⟨rfl, hothers⟩ := Token.text_append_inj h
          obtain ⟨rfl, hrest⟩ := ih hothers
          exact ⟨rfl, hrest⟩

/-! ## faults told apart -/

theorem toNat_charOfNat {number : Nat} (h : number.isValidChar) :
    (Char.ofNat number).toNat = number := by
  rw [Char.ofNat, dif_pos h]
  rfl

theorem EscapeFault.toList_message_unsupported (octet : UInt8) :
    (unsupported octet).message.toList =
      "unsupported escape \\".toList ++ [Char.ofNat octet.toNat] := by
  change ("unsupported escape \\" ++ String.singleton (Char.ofNat octet.toNat)).toList = _
  rw [String.toList_append, String.toList_singleton]

/-- **The text of a fault tells which it is**, and which octet it names. -/
theorem EscapeFault.message_injective : Function.Injective EscapeFault.message := by
  have hother {fault : EscapeFault} (h : fault.message.toList.head? ≠ some 'u') (octet : UInt8) :
      fault.message ≠ (unsupported octet).message := by
    intro heq
    rw [heq, toList_message_unsupported] at h
    exact h rfl
  intro first second h
  cases first with
  | trailingBackslash =>
      cases second with
      | trailingBackslash => rfl
      | invalidHex => exact absurd h (by decide)
      | unsupported octet => exact absurd h (hother (by decide) octet)
  | invalidHex =>
      cases second with
      | trailingBackslash => exact absurd h (by decide)
      | invalidHex => rfl
      | unsupported octet => exact absurd h (hother (by decide) octet)
  | unsupported octet =>
      cases second with
      | trailingBackslash => exact absurd h.symm (hother (by decide) octet)
      | invalidHex => exact absurd h.symm (hother (by decide) octet)
      | unsupported octet' =>
          have htexts := congrArg String.toList h
          rw [toList_message_unsupported, toList_message_unsupported] at htexts
          have hchars := List.singleton_inj.mp (List.append_cancel_left htexts)
          have hvalid (octet : UInt8) : octet.toNat.isValidChar := by
            have hlt := octet.toNat_lt
            exact .inl (by omega)
          have hsame : octet = octet' := by
            rw [← UInt8.toNat_inj, ← toNat_charOfNat (hvalid octet), hchars,
              toNat_charOfNat (hvalid octet')]
          rw [hsame]

/-! ## patterns in visible text -/

theorem IsPrintable.toUInt8_visible {c : Char} (h : IsPrintable c) (ne : c ≠ ' ') :
    c.toUInt8 < 128 ∧ isBlank c.toUInt8 = false ∧ c.toUInt8 ≠ 10 ∧ c.toUInt8 ≠ 13 := by
  have hnumber := h.toNat_toUInt8
  have hspace : c.toNat ≠ 32 := fun hc => ne (Char.toNat_inj.mp hc)
  obtain ⟨hle, hlt⟩ := h
  simp only [isBlank, decide_eq_false_iff_not, ← UInt8.toNat_inj, UInt8.lt_iff_toNat_lt, hnumber,
    UInt8.reduceToNat, ne_eq, not_or]
  omega

/-- **Every pattern can be written in ASCII** without blanks and line ends. -/
theorem exists_visible (pattern : Bytes) :
    ∃ tokens, tokens.map Token.value = pattern ∧ ∀ octet ∈ tokensText tokens,
      octet < 128 ∧ isBlank octet = false ∧ octet ≠ 10 ∧ octet ≠ 13 := by
  refine ⟨pattern.map hexToken, map_value_hexToken pattern, fun octet h => ?_⟩
  rw [tokensText_map_hexToken, List.mem_map] at h
  obtain ⟨c, hc, rfl⟩ := h
  obtain ⟨written, -, hc⟩ := List.mem_flatMap.mp hc
  rcases List.mem_cons.mp hc with rfl | hc
  · decide
  rcases List.mem_cons.mp hc with rfl | hc
  · decide
  obtain ⟨hprint, hspace⟩ := isPrintable_upperHex hc
  exact hprint.toUInt8_visible hspace

/-! ## reading -/

/-- A text fails with the text of one fault only. -/
theorem mapError_message_eq_error_iff {reply : Except EscapeFault Bytes} {fault : EscapeFault} :
    reply.mapError EscapeFault.message = .error fault.message ↔ reply = .error fault := by
  cases reply with
  | ok pattern => exact ⟨nofun, nofun⟩
  | error found =>
      rw [Except.mapError, Except.error.injEq, Except.error.injEq]
      exact EscapeFault.message_injective.eq_iff

/-- Where tokens end, with the text or because none stands there, is settled. -/
theorem tokenless_of_end {rest : Bytes} (h : rest = [] ∨ ∃ fault, Stuck rest fault) :
    Tokenless rest := by
  rcases h with rfl | ⟨fault, stuck⟩
  · exact tokenless_nil
  · exact stuck.tokenless

/-- What was read stays as it is, whatever follows. -/
theorem unescape_append {text pattern : Bytes} (h : unescape text = .ok pattern) (more : Bytes) :
    unescape (text ++ more) = (unescape more).map (pattern ++ ·) := by
  obtain ⟨tokens, rfl, rfl⟩ := unescape_eq_ok_iff.mp h
  exact unescape_tokensText_append tokens more

theorem unescape_eq_trailingBackslash_iff {text : Bytes} :
    unescape text = .error .trailingBackslash ↔
      ∃ tokens, text = tokensText tokens ++ [backslash] := by
  rw [unescape_eq_error_iff]
  constructor
  · rintro ⟨tokens, rest, rfl, stuck⟩
    cases stuck
    exact ⟨tokens, rfl⟩
  · rintro ⟨tokens, rfl⟩
    exact ⟨tokens, _, rfl, .trailingBackslash⟩

theorem unescape_eq_invalidHex_iff {text : Bytes} :
    unescape text = .error .invalidHex ↔
      ∃ tokens rest, text = tokensText tokens ++ backslash :: hexMark :: rest ∧
        ∀ (high low : HexDigit) (more : Bytes), rest ≠ high.octet :: low.octet :: more := by
  rw [unescape_eq_error_iff]
  constructor
  · rintro ⟨tokens, rest, rfl, stuck⟩
    cases stuck with
    | invalidHex none => exact ⟨tokens, _, rfl, none⟩
  · rintro ⟨tokens, rest, rfl, none⟩
    exact ⟨tokens, _, rfl, .invalidHex none⟩

theorem unescape_eq_unsupported_iff {text : Bytes} {octet : UInt8} :
    unescape text = .error (.unsupported octet) ↔
      ∃ tokens rest, text = tokensText tokens ++ backslash :: octet :: rest ∧
        octet ≠ hexMark ∧ ∀ value, (octet, value) ∉ letterEscapes := by
  rw [unescape_eq_error_iff]
  constructor
  · rintro ⟨tokens, rest, rfl, stuck⟩
    cases stuck with
    | unsupported ne unknown => exact ⟨tokens, _, rfl, ne, unknown⟩
  · rintro ⟨tokens, rest, rfl, ne, unknown⟩
    exact ⟨tokens, _, rfl, .unsupported ne unknown⟩

/-- **Patterns are read exactly as they are written.**  A text gives a pattern if
it is tokens up to its end, which then write the pattern; tokens and the place
where they end are settled by the text, and what follows is read on its own.  A
text that fails does so where its tokens end: there it stops after a backslash, or
has a hexadecimal escape without its two digits, or a letter that starts no escape,
which is named.  Every pattern can be written in ASCII without blanks and line
ends. -/
theorem unescape_exact (text : Bytes) :
    (∀ pattern, unescape text = .ok pattern ↔
      ∃ tokens, text = tokensText tokens ∧ pattern = tokens.map Token.value) ∧
    (∀ first rest second rest', text = tokensText first ++ rest → text = tokensText second ++ rest' →
      (rest = [] ∨ ∃ fault, Stuck rest fault) → (rest' = [] ∨ ∃ fault, Stuck rest' fault) →
        first = second ∧ rest = rest') ∧
    (∀ pattern, unescape text = .ok pattern →
      ∀ more, unescape (text ++ more) = (unescape more).map (pattern ++ ·)) ∧
    ((unescape text).mapError EscapeFault.message = .error "trailing backslash" ↔
      ∃ tokens, text = tokensText tokens ++ [backslash]) ∧
    ((unescape text).mapError EscapeFault.message = .error "invalid \\x escape" ↔
      ∃ tokens rest, text = tokensText tokens ++ backslash :: hexMark :: rest ∧
        ∀ (high low : HexDigit) (more : Bytes), rest ≠ high.octet :: low.octet :: more) ∧
    (∀ octet, (unescape text).mapError EscapeFault.message =
        .error ("unsupported escape \\" ++ String.singleton (Char.ofNat octet.toNat)) ↔
      ∃ tokens rest, text = tokensText tokens ++ backslash :: octet :: rest ∧
        octet ≠ hexMark ∧ ∀ value, (octet, value) ∉ letterEscapes) ∧
    ∀ pattern, ∃ written, unescape written = .ok pattern ∧ ∀ octet ∈ written,
      octet < 128 ∧ isBlank octet = false ∧ octet ≠ 10 ∧ octet ≠ 13 := by
  have htold {fault : EscapeFault} : (unescape text).mapError EscapeFault.message =
      .error fault.message ↔ unescape text = .error fault := mapError_message_eq_error_iff
  refine ⟨fun pattern => unescape_eq_ok_iff, fun first rest second rest' h h' hend hend' => ?_,
    fun pattern h more => unescape_append h more, ?_, ?_, fun octet => ?_, fun pattern => ?_⟩
  · exact tokensText_append_inj (h.symm.trans h') (tokenless_of_end hend) (tokenless_of_end hend')
  · exact htold.trans unescape_eq_trailingBackslash_iff
  · exact htold.trans unescape_eq_invalidHex_iff
  · exact htold.trans unescape_eq_unsupported_iff
  · obtain ⟨tokens, hvalue, hvisible⟩ := exists_visible pattern
    exact ⟨tokensText tokens, unescape_eq_ok_iff.mpr ⟨tokens, rfl, hvalue.symm⟩, hvisible⟩

/-- A pair of backslashes is an escape, and what follows it is none; a third one
begins an escape that nothing ends. -/
theorem unescape_exact_sample :
    unescape ([92, 92] ++ [120, 52]) = .ok [92, 120, 52] ∧
      (unescape [92, 92, 92]).mapError EscapeFault.message = .error "trailing backslash" ∧
      (unescape [92, 92, 92, 120, 52]).mapError EscapeFault.message = .error "invalid \\x escape" := by
  obtain ⟨hread, -, happend, -⟩ := unescape_exact [92, 92]
  obtain ⟨-, -, -, htrailing, -⟩ := unescape_exact [92, 92, 92]
  obtain ⟨-, -, -, -, hhex, -⟩ := unescape_exact [92, 92, 92, 120, 52]
  let pair : Token := .letter 92 92 (by decide)
  have hpair : unescape [92, 92] = .ok [92] := (hread _).mpr ⟨[pair], rfl, rfl⟩
  exact ⟨(happend _ hpair [120, 52]).trans (by decide), htrailing.mpr ⟨[pair], rfl⟩,
    hhex.mpr ⟨[pair], [52], rfl, fun _ _ _ h => nomatch (List.cons.inj h).2⟩⟩

end AnchorScan
