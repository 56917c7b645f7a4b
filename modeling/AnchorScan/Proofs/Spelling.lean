import AnchorScan.Proofs.LineByLine
import AnchorScan.Proofs.Writing
import Mathlib.Logic.Relation

/-!
# AnchorScan.Proofs.Spelling

One list of definitions can be spelled in many ways.  What a definitions file gives
does not depend on carriage returns before its line feeds; and as long as it can be
read, neither on comments and blank lines, nor on how much blank sets fields apart,
nor on plus signs and leading zeros.

* `WithReturns`: a text with carriage returns at ends of lines;
* `Respaced`: a line and one that is spelled differently;
* `Respelled`: lines of a file, and lines that spell the same in another way;
* `Reading.ofText_respelled`: all spellings give the same.
-/

namespace AnchorScan

/-! ## carriage returns -/

/-- A text, and the text with a carriage return before some of its line feeds and
perhaps at its end. -/
inductive WithReturns : Bytes → Bytes → Prop
  | nil : WithReturns [] []
  | atEnd : WithReturns [] [13]
  | keep (octet : UInt8) {text other : Bytes} (rest : WithReturns text other) :
      WithReturns (octet :: text) (octet :: other)
  | beforeFeed {text other : Bytes} (rest : WithReturns text other) :
      WithReturns (10 :: text) (13 :: 10 :: other)

/-- Line by line, a carriage return is added or not. -/
theorem WithReturns.forall₂_lines {text other : Bytes} (returns : WithReturns text other) :
    List.Forall₂ (fun line other => other = line ∨ other = line ++ [13])
      (text.splitOn 10) (other.splitOn 10) := by
  induction returns with
  | nil => exact .cons (.inl rfl) .nil
  | atEnd => exact .cons (.inr rfl) .nil
  | beforeFeed rest ih => exact .cons (.inr rfl) ih
  | @keep octet text other rest ih =>
      rw [List.splitOn_cons_eq_if_modifyHead, List.splitOn_cons_eq_if_modifyHead]
      generalize text.splitOn 10 = lines, other.splitOn 10 = others at ih
      split
      · exact .cons (.inl rfl) ih
      · cases ih with
        | nil => exact .nil
        | cons same others =>
            refine .cons ?_ others
            rcases same with rfl | rfl
            · exact .inl rfl
            · exact .inr rfl

theorem dropReturn_of_not_ends {line : Bytes} (h : line.getLast? ≠ some 13) :
    dropReturn line = line := if_neg h

@[simp] theorem dropReturn_append_return (line : Bytes) : dropReturn (line ++ [13]) = line := by
  simp [dropReturn]

/-- In front of other octets a carriage return stays. -/
theorem dropReturn_append {front : Bytes} (h : 13 ∉ front) (rest : Bytes) :
    dropReturn (front ++ rest) = front ++ dropReturn rest := by
  by_cases hrest : rest = []
  · subst hrest
    have hfront : front.getLast? ≠ some 13 := fun hlast => h (List.mem_of_getLast? hlast)
    have hnil : dropReturn [] = [] := rfl
    rw [hnil, List.append_nil, dropReturn_of_not_ends hfront]
  · unfold dropReturn
    rw [List.getLast?_append_of_ne_nil front hrest, List.dropLast_append_of_ne_nil hrest]
    split <;> rfl

/-- What begins behind a carriage return that is dropped, begins with it. -/
theorem begins_of_dropReturn {kind : UInt8 → Bool} {line : Bytes} (h : Begins kind (dropReturn line)) :
    Begins kind line := by
  unfold dropReturn at h
  split at h
  · cases line with
    | nil => cases h
    | cons first others =>
        cases others with
        | nil => cases h
        | cons next others => exact h
  · exact h

theorem begins_dropReturn {kind : UInt8 → Bool} (hkind : kind 13 = false) {line : Bytes}
    (h : Begins kind line) : Begins kind (dropReturn line) := by
  cases line with
  | nil => cases h
  | cons first others =>
      have hne : first ≠ 13 := by
        rintro rfl
        exact Bool.false_ne_true (hkind.symm.trans (begins_cons.mp h))
      have hfront : (13 : UInt8) ∉ [first] := by simpa using hne.symm
      rw [← List.singleton_append, dropReturn_append hfront]
      exact h

/-! ## blanks, signs and zeros -/

/-- A stretch has no carriage return if its class has none. -/
theorem Stretch.return_not_mem {kind : UInt8 → Bool} (stretch : Stretch kind)
    (hkind : kind 13 = false) : 13 ∉ stretch.octets := fun hmem =>
  Bool.false_ne_true (hkind.symm.trans (stretch.all 13 hmem))

theorem Opening.return_not_mem (opening : Opening) : 13 ∉ opening.text := by
  have hname := opening.name.return_not_mem (by decide)
  have hgap := opening.gap.return_not_mem (by decide)
  have hsign : 13 ∉ opening.sign.text := by cases opening.sign <;> decide
  simp [Opening.text, hname, hgap, hsign]

/-- Digits with zeros in front of them. -/
def Stretch.withZeros (count : Nat) (digits : Stretch isDigit) : Stretch isDigit where
  octets := List.replicate count 48 ++ digits.octets
  ne_nil := by simp [digits.ne_nil]
  all octet h := by
    rcases List.mem_append.mp h with hzero | hdigit
    · rw [List.eq_of_mem_replicate hzero]
      rfl
    · exact digits.all octet hdigit

/-- Leading zeros count for nothing. -/
theorem Stretch.value_withZeros (count : Nat) (digits : Stretch isDigit) :
    (digits.withZeros count).value = digits.value := by
  rw [← decimalValue_eq, ← decimalValue_eq, withZeros, decimalValue, List.foldl_append]
  congr 1
  induction count with
  | zero => rfl
  | succ count ih => simpa [List.replicate_succ] using ih

/-- A line, and one that differs in a run of blanks behind a field, or has a plus
sign before an offset without a sign, or zeros before the digits of one. -/
inductive Respaced : Bytes → Bytes → Prop
  | afterIdentifier (name : Stretch isIdentifierOctet) (gap other : Stretch isBlank) {rest : Bytes}
      (whole : ¬ Begins isBlank rest) :
      Respaced (name.octets ++ (gap.octets ++ rest)) (name.octets ++ (other.octets ++ rest))
  | afterOffset (opening : Opening) (digits : Stretch isDigit) (gap other : Stretch isBlank)
      {rest : Bytes} (whole : ¬ Begins isBlank rest) :
      Respaced (opening.text ++ (digits.octets ++ (gap.octets ++ rest)))
        (opening.text ++ (digits.octets ++ (other.octets ++ rest)))
  | plus (name : Stretch isIdentifierOctet) (gap : Stretch isBlank) {rest : Bytes}
      (unsigned : Begins isDigit rest) :
      Respaced (name.octets ++ (gap.octets ++ rest)) (name.octets ++ (gap.octets ++ 43 :: rest))
  | zeros (opening : Opening) (count : Nat) (digits : Stretch isDigit) {rest : Bytes}
      (whole : ¬ Begins isDigit rest) (length_le : count + digits.octets.length ≤ 20) :
      Respaced (opening.text ++ (digits.octets ++ rest))
        (opening.text ++ (List.replicate count 48 ++ digits.octets ++ rest))

namespace Respaced

variable {line other : Bytes}

/-- A carriage return at the end of both lines makes no difference. -/
theorem dropReturn (respaced : Respaced line other) :
    Respaced (AnchorScan.dropReturn line) (AnchorScan.dropReturn other) := by
  have hname (name : Stretch isIdentifierOctet) := name.return_not_mem (by decide)
  have hgap (gap : Stretch isBlank) := gap.return_not_mem (by decide)
  have hdigits (digits : Stretch isDigit) := digits.return_not_mem (by decide)
  cases respaced with
  | @afterIdentifier name gap other rest whole =>
      simp only [dropReturn_append (hname name), dropReturn_append (hgap gap),
        dropReturn_append (hgap other)]
      exact .afterIdentifier name gap other (mt begins_of_dropReturn whole)
  | @afterOffset opening digits gap other rest whole =>
      simp only [dropReturn_append opening.return_not_mem, dropReturn_append (hdigits digits),
        dropReturn_append (hgap gap), dropReturn_append (hgap other)]
      exact .afterOffset opening digits gap other (mt begins_of_dropReturn whole)
  | @plus name gap rest unsigned =>
      have hplus : (13 : UInt8) ∉ [43] := by decide
      rw [← List.singleton_append]
      simp only [dropReturn_append (hname name), dropReturn_append (hgap gap),
        dropReturn_append hplus]
      exact .plus name gap (begins_dropReturn (by decide) unsigned)
  | @zeros opening count digits rest whole length_le =>
      have hzeros := hdigits (digits.withZeros count)
      unfold Stretch.withZeros at hzeros
      simp only [dropReturn_append opening.return_not_mem, dropReturn_append (hdigits digits),
        dropReturn_append hzeros]
      exact .zeros opening count digits (mt begins_of_dropReturn whole) length_le

/-- Both lines begin with an identifier. -/
theorem begins (respaced : Respaced line other) :
    Begins isIdentifierOctet line ∧ Begins isIdentifierOctet other := by
  have hopening (opening : Opening) (rest : Bytes) :
      Begins isIdentifierOctet (opening.text ++ rest) := by
    rw [Opening.text, List.append_assoc]
    exact opening.name.begins_append _
  cases respaced with
  | afterIdentifier name => exact ⟨name.begins_append _, name.begins_append _⟩
  | afterOffset opening => exact ⟨hopening opening _, hopening opening _⟩
  | plus name => exact ⟨name.begins_append _, name.begins_append _⟩
  | zeros opening => exact ⟨hopening opening _, hopening opening _⟩

/-- Both lines have the same fields, or the same field is wrong. -/
theorem readFields_eq (respaced : Respaced line other) : readFields other = readFields line := by
  cases respaced with
  | @afterIdentifier name gap other rest whole =>
      -- a sign may follow the blanks; it belongs to the opening
      obtain ⟨sign, rest, rfl, hsign⟩ := exists_sign rest
      have hread (gap : Stretch isBlank) := @readFields_opening ⟨name, gap, sign⟩ rest fun habsent => by
        obtain rfl : sign = .absent := habsent
        exact ⟨whole, hsign rfl⟩
      simp only [Opening.text, List.append_assoc] at hread
      rw [hread gap, hread other]
  | @afterOffset opening digits gap other rest whole =>
      have hread (gap : Stretch isBlank) :
          readFields (opening.text ++ (digits.octets ++ (gap.octets ++ rest))) =
            if digits.octets.length ≤ 20 ∧ digits.value ≤ maxPosition then
              .ok ⟨octetText opening.name.octets, decide (opening.sign = .minus), digits.value, rest⟩
            else .error .offsetTooLarge := by
        rw [readFields_opening opening (opening.endsBefore_digits digits _),
          readOffset_digits digits (not_begins_isDigit_gap gap rest)]
        split
        · simp [Except.bind, Except.map, skipBlanks_gap .offset gap whole]
        · rfl
      rw [hread gap, hread other]
  | @plus name gap rest unsigned =>
      obtain ⟨digits, rest, rfl, -⟩ := Stretch.exists_append unsigned
      have hread (sign : Sign) := readFields_opening ⟨name, gap, sign⟩
        (Opening.endsBefore_digits ⟨name, gap, sign⟩ digits rest)
      have habsent := hread .absent
      have hplus := hread .plus
      simp only [Opening.text, Sign.text, List.append_assoc, List.append_nil, List.singleton_append]
        at habsent hplus
      rw [habsent, hplus]
      simp
  | @zeros opening count digits rest whole length_le =>
      have hlength : (digits.withZeros count).octets.length = count + digits.octets.length := by
        simp [Stretch.withZeros]
      have hle : digits.octets.length ≤ 20 := by omega
      have hread := readOffset_digits (digits.withZeros count) whole
      rw [hlength, Stretch.value_withZeros] at hread
      have hzeros := readFields_opening opening
        (opening.endsBefore_digits (digits.withZeros count) rest)
      rw [hread] at hzeros
      rw [readFields_opening opening (opening.endsBefore_digits digits rest),
        readOffset_digits digits whole]
      simpa [Stretch.withZeros, length_le, hle] using hzeros

/-- **A line gives the same in any spelling**, be there a carriage return or not. -/
theorem ofLine_eq (respaced : Respaced line other) (number : Nat) :
    Reading.ofLine number other = Reading.ofLine number line := by
  have hdropped := respaced.dropReturn
  unfold Reading.ofLine
  rw [isSkipped_of_begins hdropped.begins.1, isSkipped_of_begins hdropped.begins.2,
    hdropped.readFields_eq]

end Respaced

/-! ## comments and blank lines -/

theorem IsFiller.isSkipped {line : Bytes} (h : IsFiller line) : isSkipped (dropReturn line) = true := by
  rw [isSkipped_iff]
  rcases h with hcomment | hblank
  · obtain ⟨others, rfl⟩ := List.head?_eq_some_iff.mp hcomment
    have hfront : (13 : UInt8) ∉ [35] := by decide
    rw [← List.singleton_append, dropReturn_append hfront]
    exact .inl rfl
  · have hlast : line.getLast? ≠ some 13 := fun hlast =>
      absurd (hblank 13 (List.mem_of_getLast? hlast)) (by decide)
    rw [dropReturn_of_not_ends hlast]
    exact .inr hblank

/-- Lines, and lines with one more that is a comment or blank, or with one of them
in another spelling. -/
inductive Respelled : List Bytes → List Bytes → Prop
  | insert (before : List Bytes) {line : Bytes} (filler : IsFiller line) (after : List Bytes) :
      Respelled (before ++ after) (before ++ line :: after)
  | respace (before : List Bytes) {line other : Bytes} (respaced : Respaced line other)
      (after : List Bytes) : Respelled (before ++ line :: after) (before ++ other :: after)

variable {lines others : List Bytes} {definitions : List Definition} {log : List Event}

/-- One change of spelling leaves what lines give as it is, if they can be read. -/
theorem Respelled.ofLines_eq_ok_iff (respelled : Respelled lines others) (number : Nat) :
    Reading.ofLines number lines = ⟨.ok definitions, log⟩ ↔
      Reading.ofLines number others = ⟨.ok definitions, log⟩ := by
  cases respelled with
  | @insert before line filler after =>
      -- what comes behind the new line only counts one line more
      have hskipped := Reading.ofLine_of_skipped filler.isSkipped
      simp only [Reading.ofLines_append, Reading.ofLines_cons, hskipped, Reading.nothing_andThen,
        Reading.ofLines_add _ 1, Reading.andThen_eq_ok_iff, Reading.below_eq_ok_iff]
  | @respace before line other respaced after =>
      simp only [Reading.ofLines_append, Reading.ofLines_cons, respaced.ofLine_eq]

/-- So do any number of them, forth and back. -/
theorem ofLines_eq_ok_iff_of_respelled (h : Relation.EqvGen Respelled lines others) (number : Nat) :
    Reading.ofLines number lines = ⟨.ok definitions, log⟩ ↔
      Reading.ofLines number others = ⟨.ok definitions, log⟩ := by
  induction h with
  | rel lines others respelled => exact respelled.ofLines_eq_ok_iff number
  | refl lines => exact Iff.rfl
  | symm lines others _ ih => exact ih.symm
  | trans lines middle others _ _ ih ih' => exact ih.trans ih'

/-- **The spelling of a definitions file does not matter.**  If no line of a text ends
in a carriage return, the text gives the same with carriage returns before some of
its line feeds and at its end, failures and warnings included.  A text that can be
read gives the same definitions and warnings after any changes of spelling, forth
and back: with more comments and blank lines, with other runs of blanks between
fields, with a plus sign or without, and with more leading zeros or fewer. -/
theorem Reading.ofText_respelled (text : Bytes) :
    (∀ other, WithReturns text other → (∀ line ∈ text.splitOn 10, line.getLast? ≠ some 13) →
        Reading.ofText other = Reading.ofText text) ∧
      ∀ definitions, (Reading.ofText text).reply = .ok definitions →
        ∀ other : Bytes, Relation.EqvGen Respelled (text.splitOn 10) (other.splitOn 10) →
          Reading.ofText other = Reading.ofText text := by
  constructor
  · intro other returns hends
    rw [Reading.ofText_eq, Reading.ofText_eq]
    refine Reading.ofLines_congr ?_ 1
    refine ((List.forall₂_and_left _ _).mpr ⟨hends, returns.forall₂_lines⟩).imp ?_
    rintro line other ⟨hline, rfl | rfl⟩ number
    · rfl
    · simp only [Reading.ofLine, dropReturn_append_return, dropReturn_of_not_ends hline]
  · intro definitions hreply other hrespelled
    have htext : Reading.ofLines 1 (text.splitOn 10) = ⟨.ok definitions, (Reading.ofText text).log⟩ := by
      rw [← Reading.ofText_eq, ← hreply]
    rw [Reading.ofText_eq other, (ofLines_eq_ok_iff_of_respelled hrespelled 1).mp htext, ← hreply]

/-- A text that fails, with carriage returns; and one that can be read, behind a
comment, with more blanks, without its plus sign and with a leading zero. -/
theorem Reading.ofText_respelled_sample :
    let broken : Bytes := [122, 10, 97, 32, 49, 32, 98]
    let returned : Bytes := [122, 13, 10, 97, 32, 49, 32, 98, 13]
    let text : Bytes := [97, 32, 43, 55, 32, 98, 32]
    let other : Bytes := [35, 10, 97, 9, 32, 48, 55, 32, 98, 32]
    (WithReturns broken returned ∧ (∀ line ∈ broken.splitOn 10, line.getLast? ≠ some 13) ∧
        Reading.ofText returned = Reading.ofText broken) ∧
      (Reading.ofText text).reply = .ok [⟨"a", .fromStart 7, [98, 32]⟩] ∧
      Relation.EqvGen Respelled (text.splitOn 10) (other.splitOn 10) ∧
      Reading.ofText other = Reading.ofText text := by
  intro broken returned text other
  have returns : WithReturns broken returned :=
    .keep 122 (.beforeFeed (.keep 97 (.keep 32 (.keep 49 (.keep 32 (.keep 98 .atEnd))))))
  have hsplit : broken.splitOn 10 = [[122], [97, 32, 49, 32, 98]] := rfl
  have hends : ∀ line ∈ broken.splitOn 10, line.getLast? ≠ some 13 := by simp [hsplit]
  have hreply : (Reading.ofText text).reply = .ok [⟨"a", .fromStart 7, [98, 32]⟩] := by
    decide +kernel
  let name : Stretch isIdentifierOctet := ⟨[97], by decide, List.all_eq_true.mp rfl⟩
  let wide : Stretch isBlank := ⟨[9, 32], by decide, List.all_eq_true.mp rfl⟩
  let digits : Stretch isDigit := ⟨[55], by decide, List.all_eq_true.mp rfl⟩
  have hsign : ¬ Begins isBlank [43, 55, 32, 98, 32] := Bool.false_ne_true
  have hdigit : Begins isDigit [55, 32, 98, 32] := rfl
  have hblank : ¬ Begins isDigit [32, 98, 32] := Bool.false_ne_true
  have hcomment : Respelled [[97, 32, 43, 55, 32, 98, 32]] [[35], [97, 32, 43, 55, 32, 98, 32]] :=
    .insert [] (.inl rfl) [[97, 32, 43, 55, 32, 98, 32]]
  have hblanks : Respelled [[35], [97, 32, 43, 55, 32, 98, 32]]
      [[35], [97, 9, 32, 43, 55, 32, 98, 32]] :=
    .respace [[35]] (.afterIdentifier name space wide hsign) []
  have hplus : Respelled [[35], [97, 9, 32, 55, 32, 98, 32]]
      [[35], [97, 9, 32, 43, 55, 32, 98, 32]] :=
    .respace [[35]] (.plus name wide hdigit) []
  have hzero : Respelled [[35], [97, 9, 32, 55, 32, 98, 32]]
      [[35], [97, 9, 32, 48, 55, 32, 98, 32]] :=
    .respace [[35]] (.zeros ⟨name, wide, .absent⟩ 1 digits hblank (by decide)) []
  have hrespelled : Relation.EqvGen Respelled (text.splitOn 10) (other.splitOn 10) :=
    .trans _ _ _ (.rel _ _ hcomment) (.trans _ _ _ (.rel _ _ hblanks)
      (.trans _ _ _ (.symm _ _ (.rel _ _ hplus)) (.rel _ _ hzero)))
  exact ⟨⟨returns, hends, (Reading.ofText_respelled broken).1 returned returns hends⟩, hreply,
    hrespelled, (Reading.ofText_respelled text).2 _ hreply other hrespelled⟩

end AnchorScan
