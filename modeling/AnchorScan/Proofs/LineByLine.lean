import AnchorScan.Proofs.FileText

/-!
# AnchorScan.Proofs.LineByLine

Definitions files are read line by line.  A line gives a reading of its own, which
depends on its octets and its number alone, and a file gives what its lines give,
one behind the other, up to the first that fails.

* `Reading.andThen`: one reading behind another, with `Reading.nothing` as its unit;
* `Reading.ofLines_append`: lines in two parts give one reading behind the other;
* `Reading.ofLines_add`: lines that stand further down give the same, but for the
  number that a failure tells;
* `Reading.ofText_join`: what two texts give that a line feed joins.
-/

namespace AnchorScan

/-- A failure in a text that stands so many lines further down. -/
def Failure.below (count : Nat) : Failure → Failure
  | unreadableLine line reason => unreadableLine (line + count) reason
  | failure => failure

namespace Reading

/-! ## one reading behind another -/

/-- The reading that brings nothing. -/
def nothing : Reading := ⟨.ok [], []⟩

/-- A reading and another behind it, which is not come to if the first failed. -/
def andThen : Reading → Reading → Reading
  | ⟨.error failure, log⟩, _ => ⟨.error failure, log⟩
  | ⟨.ok definitions, log⟩, next => ⟨next.reply.map (definitions ++ ·), log ++ next.log⟩

/-- The reading of a text that stands so many lines further down. -/
def below (count : Nat) (reading : Reading) : Reading :=
  ⟨reading.reply.mapError (Failure.below count), reading.log⟩

section

variable {definitions others : List Definition} {log : List Event} {failure : Failure}

theorem error_andThen (next : Reading) : (⟨.error failure, log⟩ : Reading).andThen next =
    ⟨.error failure, log⟩ := rfl

theorem ok_andThen (next : Reading) : (⟨.ok definitions, log⟩ : Reading).andThen next =
    ⟨next.reply.map (definitions ++ ·), log ++ next.log⟩ := rfl

@[simp] theorem nothing_andThen (reading : Reading) : nothing.andThen reading = reading := by
  obtain ⟨reply, log⟩ := reading
  cases reply <;> rfl

theorem andThen_assoc (first second third : Reading) :
    (first.andThen second).andThen third = first.andThen (second.andThen third) := by
  obtain ⟨first, firstLog⟩ := first
  obtain ⟨second, secondLog⟩ := second
  obtain ⟨third, thirdLog⟩ := third
  cases first with
  | error failure => rfl
  | ok definitions =>
      cases second with
      | error failure => rfl
      | ok others => cases third <;> simp [andThen, Except.map]

/-- Both readings have to succeed. -/
theorem andThen_eq_ok_iff {first second : Reading} :
    first.andThen second = ⟨.ok definitions, log⟩ ↔
      ∃ front frontLog back backLog, first = ⟨.ok front, frontLog⟩ ∧ second = ⟨.ok back, backLog⟩ ∧
        definitions = front ++ back ∧ log = frontLog ++ backLog := by
  constructor
  · intro h
    obtain ⟨reply, frontLog⟩ := first
    obtain ⟨next, backLog⟩ := second
    cases reply with
    | error failure => cases h
    | ok front =>
        cases next with
        | error failure => cases h
        | ok back =>
            cases h
            exact ⟨front, frontLog, back, backLog, rfl, rfl, rfl, rfl⟩
  · rintro ⟨front, frontLog, back, backLog, rfl, rfl, rfl, rfl⟩
    rfl

@[simp] theorem nothing_below (count : Nat) : nothing.below count = nothing := rfl

/-- Further down, all of a reading is. -/
theorem andThen_below (count : Nat) (first second : Reading) :
    (first.andThen second).below count = (first.below count).andThen (second.below count) := by
  obtain ⟨reply, log⟩ := first
  obtain ⟨next, nextLog⟩ := second
  cases reply with
  | error failure => rfl
  | ok definitions => cases next <;> rfl

/-- What succeeds does so wherever it stands. -/
theorem below_eq_ok_iff {count : Nat} {reading : Reading} :
    reading.below count = ⟨.ok definitions, log⟩ ↔ reading = ⟨.ok definitions, log⟩ := by
  obtain ⟨reply, readingLog⟩ := reading
  cases reply with
  | error failure => exact ⟨nofun, nofun⟩
  | ok found => rfl

end

/-! ## lines -/

/-- What a line gives that has the given number. -/
def ofLine (number : Nat) (line : Bytes) : Reading :=
  if isSkipped (dropReturn line) then nothing
  else
    match readFields (dropReturn line) with
    | .error fault => ⟨.error (.unreadableLine number fault.message), []⟩
    | .ok fields =>
      match fields.definition with
      | .error fault => ⟨.error (.unreadableLine number fault.message), fields.warnings⟩
      | .ok definition => ⟨.ok [definition], fields.warnings⟩

theorem ofLine_of_skipped {line : Bytes} (h : isSkipped (dropReturn line) = true) (number : Nat) :
    ofLine number line = nothing := if_pos h

/-- Lines give what the first gives, and the others behind it. -/
theorem ofLines_cons (number : Nat) (line : Bytes) (rest : List Bytes) :
    ofLines number (line :: rest) = (ofLine number line).andThen (ofLines (number + 1) rest) := by
  rw [ofLines, ofLine]
  split
  · rw [nothing_andThen]
  · cases readFields (dropReturn line) with
    | error fault => rfl
    | ok fields =>
        cases hdefinition : fields.definition with
        | error fault => simp only [hdefinition, error_andThen]
        | ok definition =>
            simp only [hdefinition, ok_andThen]
            rfl

/-- **Lines in two parts give one reading behind the other.** -/
theorem ofLines_append (number : Nat) (first second : List Bytes) :
    ofLines number (first ++ second) =
      (ofLines number first).andThen (ofLines (number + first.length) second) := by
  induction first generalizing number with
  | nil => exact (nothing_andThen _).symm
  | cons line rest ih =>
      have hnumber : number + 1 + rest.length = number + (line :: rest).length := by
        rw [List.length_cons]
        omega
      rw [List.cons_append, ofLines_cons, ofLines_cons, ih, andThen_assoc, hnumber]

/-- The number of a line shows in its failure alone. -/
theorem ofLine_add (number count : Nat) (line : Bytes) :
    ofLine (number + count) line = (ofLine number line).below count := by
  unfold ofLine
  split
  · rw [nothing_below]
  · cases readFields (dropReturn line) with
    | error fault => rfl
    | ok fields =>
        cases hdefinition : fields.definition with
        | error fault => simp only [hdefinition]; rfl
        | ok definition => simp only [hdefinition]; rfl

/-- **Lines further down give the same**, but for the number that a failure tells. -/
theorem ofLines_add (number count : Nat) (lines : List Bytes) :
    ofLines (number + count) lines = (ofLines number lines).below count := by
  induction lines generalizing number with
  | nil => rfl
  | cons line rest ih =>
      have hnumber : number + count + 1 = number + 1 + count := by omega
      rw [ofLines_cons, ofLines_cons, andThen_below, ofLine_add, hnumber, ih]

/-- Lines that give the same one by one give the same together. -/
theorem ofLines_congr {lines others : List Bytes} (h : List.Forall₂
      (fun line other => ∀ number, ofLine number other = ofLine number line) lines others)
    (number : Nat) : ofLines number others = ofLines number lines := by
  induction h generalizing number with
  | nil => rfl
  | cons same _ ih => rw [ofLines_cons, ofLines_cons, same, ih]

/-! ## texts -/

/-- A text has one more line than line feeds. -/
theorem length_splitOn (text : Bytes) : (text.splitOn 10).length = text.count 10 + 1 := by
  induction text with
  | nil => rfl
  | cons octet rest ih =>
      rw [List.splitOn_cons_eq_if_modifyHead, List.count_cons]
      split
      · rw [List.length_cons, ih]
      · rw [List.length_modifyHead, ih]

theorem ofText_eq (text : Bytes) : ofText text = ofLines 1 (text.splitOn 10) := by
  rw [ofText, lines_eq_splitOn]

/-- Two texts that a line feed joins are read one behind the other. -/
theorem ofText_append (first second : Bytes) :
    ofText (first ++ 10 :: second) =
      (ofText first).andThen ((ofText second).below (first.count 10 + 1)) := by
  rw [ofText_eq, ofText_eq, ofText_eq, List.splitOn_append_cons_self, ofLines_append,
    length_splitOn, ofLines_add]

/-- A text that cannot be read has a line that cannot. -/
theorem exists_line_of_error {text : Bytes} {failure : Failure}
    (h : (ofText text).reply = .error failure) :
    ∃ line reason, failure = .unreadableLine line reason := by
  rw [reply_ofText, readEntries_eq_error_iff] at h
  obtain ⟨-, entry, -, fault, -, -, -, rfl⟩ := h
  exact ⟨entry.number, fault.message, rfl⟩

/-- **Two texts that a line feed joins give what each of them gives.**  If both can
be read, so can they together, and definitions and warnings follow each other.  If
the first cannot, all is as without the second.  If only the second cannot, the
failure is the same but for the lines of the first, which count. -/
theorem ofText_join (first second : Bytes) :
    let joined := ofText (first ++ 10 :: second)
    (∀ definitions others, (ofText first).reply = .ok definitions →
        (ofText second).reply = .ok others →
          joined.reply = .ok (definitions ++ others) ∧
            joined.log = (ofText first).log ++ (ofText second).log) ∧
      (∀ failure, (ofText first).reply = .error failure →
        joined.reply = .error failure ∧ joined.log = (ofText first).log) ∧
      ∀ definitions failure, (ofText first).reply = .ok definitions →
        (ofText second).reply = .error failure →
          ∃ line reason, failure = .unreadableLine line reason ∧
            joined.reply = .error (.unreadableLine (line + first.count 10 + 1) reason) ∧
            joined.log = (ofText first).log ++ (ofText second).log := by
  intro joined
  have hjoined : joined = (ofText first).andThen ((ofText second).below (first.count 10 + 1)) :=
    ofText_append first second
  rw [hjoined]
  have hline (failure : Failure) (h : (ofText second).reply = .error failure) :
      ∃ line reason, failure = .unreadableLine line reason := exists_line_of_error h
  generalize ofText first = front, ofText second = back at hline
  obtain ⟨reply, log⟩ := front
  obtain ⟨next, nextLog⟩ := back
  refine ⟨?_, ?_, ?_⟩
  · rintro definitions others hfront hback
    obtain rfl : reply = .ok definitions := hfront
    obtain rfl : next = .ok others := hback
    exact ⟨rfl, rfl⟩
  · rintro failure hfront
    obtain rfl : reply = .error failure := hfront
    exact ⟨rfl, rfl⟩
  · rintro definitions failure hfront hback
    obtain rfl : reply = .ok definitions := hfront
    obtain ⟨line, reason, rfl⟩ := hline failure hback
    obtain rfl : next = .error (.unreadableLine line reason) := hback
    exact ⟨line, reason, rfl, rfl, rfl⟩

/-- Two lines, of which the second ends in a blank, before a text that can be read
and before one that fails in its second line; and behind a text that fails. -/
theorem ofText_join_sample :
    let front : Bytes := [35, 120, 13, 10, 97, 32, 48, 32, 98, 32]
    let back : Bytes := [99, 32, 45, 49, 32, 100]
    let broken : Bytes := [10, 122]
    ((ofText (front ++ 10 :: back)).reply =
        .ok [⟨"a", .fromStart 0, [98, 32]⟩, ⟨"c", .fromEnd 1, [100]⟩] ∧
      (ofText (front ++ 10 :: back)).log = [.trailingBlank "a"]) ∧
    ((ofText broken).reply =
        .error (.unreadableLine 2 "expected whitespace after identifier") ∧
      (ofText (front ++ 10 :: broken)).reply =
        .error (.unreadableLine 4 "expected whitespace after identifier")) ∧
    ((ofText (broken ++ 10 :: front)).reply = (ofText broken).reply ∧
      (ofText (broken ++ 10 :: front)).log = []) := by
  intro front back broken
  have hfront : (ofText front).reply = .ok [⟨"a", .fromStart 0, [98, 32]⟩] := by decide +kernel
  have hback : (ofText back).reply = .ok [⟨"c", .fromEnd 1, [100]⟩] := by decide +kernel
  have hbroken : (ofText broken).reply =
      .error (.unreadableLine 2 "expected whitespace after identifier") := by decide +kernel
  obtain ⟨hreply, hlog⟩ := (ofText_join front back).1 _ _ hfront hback
  obtain ⟨hbehind, hbehindLog⟩ := (ofText_join broken front).2.1 _ hbroken
  obtain ⟨line, reason, hline, hjoined, -⟩ := (ofText_join front broken).2.2 _ _ hfront hbroken
  cases hline
  exact ⟨⟨hreply, hlog.trans (by decide +kernel)⟩, ⟨hbroken, hjoined⟩,
    hbehind.trans hbroken.symm, hbehindLog.trans (by decide +kernel)⟩

end Reading

end AnchorScan
