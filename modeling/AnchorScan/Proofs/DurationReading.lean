import AnchorScan.Proofs.RoundingError
import AnchorScan.Report.Duration

/-!
# AnchorScan.Proofs.DurationReading

Where spans are shown with fewer than sixty seconds, and where with sixty.  The minutes are
counted before the seconds are rounded, so the last twentieth of a second before a full minute
is shown as sixty seconds.  All other spans are read back up to a twentieth of a second, unless
the floating-point number of their seconds is rounded past one of the numbers where the tenths
change.

* `readMinutes` and `readSeconds`: read the text of a span back;
* `Duration.abs_value_inSeconds_sub_le`: how exact the floating-point number of seconds is;
* `Duration.Settled`: no number where the tenths change is in reach of it;
* `Duration.shownInMinutes_of_lt`, `Duration.not_shownInMinutes_of_lt`: spans from a minute on;
* `Duration.exists_readSeconds_text`: spans from a second up to a minute;
* `Duration.text_exact`: both, and `Duration.text_of_sixty_seconds`: spans that are not shown as
  they should.
-/

namespace AnchorScan

/-! ## reading spans -/

/-- Reads a number of seconds, which stands in front of its unit. -/
def readSeconds (text : List Char) : Option ℚ :=
  if text.getLast? = some 's' then some (readDecimal text.dropLast) else none

/-- Reads minutes and seconds, each in front of their unit. -/
def readMinutes (text : List Char) : Option (ℚ × ℚ) :=
  match cut 'm' text with
  | (minutes, ' ' :: seconds) => (readSeconds seconds).map (readDecimal minutes, ·)
  | _ => none

theorem readSeconds_append (seconds : String) :
    readSeconds (seconds ++ "s").toList = some (readDecimal seconds.toList) := by
  have htext : (seconds ++ "s").toList = seconds.toList ++ ['s'] := by simp
  rw [htext]
  simp [readSeconds]

theorem readMinutes_append (minutes : Nat) (seconds : String) :
    readMinutes (toString minutes ++ "m " ++ seconds ++ "s").toList =
      some ((minutes : ℚ), readDecimal seconds.toList) := by
  have htext : (toString minutes ++ "m " ++ seconds ++ "s").toList =
      (toString minutes).toList ++ 'm' :: ' ' :: (seconds ++ "s").toList := by simp
  rw [htext, readMinutes, cut_append (not_mem_toString (by decide))]
  simp only [readSeconds_append, readDecimal_toString, Option.map_some]

namespace Duration

/-! ## the number of seconds -/

/-- A span in seconds. -/
def value (span : Duration) : ℚ := span.seconds + span.nanoseconds / 1000000000

/-- The seconds of a span beyond its last full minute. -/
def rest (span : Duration) : ℚ := (span.seconds % 60 : Nat) + span.nanoseconds / 1000000000

/-- What a span has beyond its whole seconds, as a floating-point number. -/
def fraction (span : Duration) : Binary64 := Binary64.nearest span.nanoseconds 1000000000

section

variable {span : Duration}

theorem value_eq_add_rest (span : Duration) :
    span.value = (span.seconds / 60 : Nat) * 60 + span.rest := by
  have hseconds : (span.seconds : ℚ) = (span.seconds / 60 : Nat) * 60 + (span.seconds % 60 : Nat) := by
    exact_mod_cast (Nat.div_add_mod' span.seconds 60).symm
  rw [value, rest, hseconds]
  ring

theorem nanoseconds_le (span : Duration) : (span.nanoseconds : ℚ) ≤ 999999999 := by
  have hlt := span.nanoseconds_lt
  exact_mod_cast Nat.le_of_lt_succ hlt

theorem rest_lt (span : Duration) : span.rest < 60 := by
  have hle := span.nanoseconds_le
  have hseconds : ((span.seconds % 60 : Nat) : ℚ) ≤ 59 := by
    exact_mod_cast Nat.le_of_lt_succ (Nat.mod_lt _ (by decide))
  unfold rest
  linarith

theorem abs_value_fraction_sub_le (span : Duration) :
    |span.fraction.value - span.nanoseconds / 1000000000| ≤ 1 / 2 ^ 54 := by
  have hlt : span.nanoseconds < 2 ^ 0 * 1000000000 := by simpa using span.nanoseconds_lt
  have herror := Binary64.abs_value_nearest_sub_le (by decide) hlt
  simpa [fraction] using herror

/-- The part of a second is not rounded to a whole one. -/
theorem grains_fraction_lt (span : Duration) : span.fraction.grains < Binary64.one := by
  have herror := abs_le.mp span.abs_value_fraction_sub_le
  have hle := span.nanoseconds_le
  have hvalue : span.fraction.value < 1 := by linarith
  have hgrains := mul_lt_mul_of_pos_right hvalue Binary64.cast_one_pos
  rw [Binary64.value_mul_one, one_mul] at hgrains
  exact_mod_cast hgrains

theorem grains_add_fraction_lt {bits : Nat} (h : span.seconds < 2 ^ bits) :
    span.seconds * Binary64.one + span.fraction.grains < 2 ^ bits * Binary64.one := by
  have hfraction := span.grains_fraction_lt
  calc span.seconds * Binary64.one + span.fraction.grains
      < (span.seconds + 1) * Binary64.one := by rw [Nat.add_mul, Nat.one_mul]; omega
    _ ≤ 2 ^ bits * Binary64.one := Nat.mul_le_mul_right _ h

theorem inSeconds_eq (h : span.seconds < 2 ^ 53) : span.inSeconds =
    Binary64.nearest (span.seconds * Binary64.one + span.fraction.grains) Binary64.one := by
  rw [inSeconds, Binary64.add, Binary64.grains_ofNat_of_lt h]
  rfl

/-- The floating-point number of seconds is rounded by at most the `2 ^ 54`-th part of a power of
two above them, and before that the part of a second by as much of one second. -/
theorem abs_value_inSeconds_sub_le {bits : Nat} (hbits : bits ≤ 53) (h : span.seconds < 2 ^ bits) :
    |span.inSeconds.value - span.value| ≤ (2 ^ bits + 1) / 2 ^ 54 := by
  have hsum := Binary64.abs_value_nearest_sub_le Binary64.one_pos (grains_add_fraction_lt h)
  rw [← inSeconds_eq (h.trans_le (Nat.pow_le_pow_right (by decide) hbits))] at hsum
  have hquotient : ((span.seconds * Binary64.one + span.fraction.grains : Nat) : ℚ) / Binary64.one =
      span.seconds + span.fraction.value := by
    rw [Nat.cast_add, Nat.cast_mul, add_div, mul_div_cancel_right₀ _ Binary64.cast_one_pos.ne']
    rfl
  rw [hquotient] at hsum
  have hpart := span.abs_value_fraction_sub_le
  have hsplit : span.inSeconds.value - span.value =
      (span.inSeconds.value - (span.seconds + span.fraction.value)) +
        (span.fraction.value - span.nanoseconds / 1000000000) := by
    rw [value]
    ring
  rw [hsplit, add_div]
  exact (abs_add_le _ _).trans (add_le_add hsum hpart)

/-- The floating-point number of seconds is not less than the whole ones. -/
theorem seconds_le_value_inSeconds (h : span.seconds < 2 ^ 53) :
    (span.seconds : ℚ) ≤ span.inSeconds.value := by
  have hgrains : span.seconds * Binary64.one ≤ span.inSeconds.grains := by
    rw [inSeconds_eq h]
    refine Binary64.le_grains_nearest Binary64.one_pos ?_ ?_
    · rw [Nat.mul_div_cancel _ Binary64.one_pos]
      exact Binary64.spacing_dvd_mul_one (grains_add_fraction_lt h) _
    · exact Nat.mul_le_mul_right _ (Nat.le_add_right _ _)
  rw [Binary64.value, le_div_iff₀ Binary64.cast_one_pos]
  exact_mod_cast hgrains

/-- Spans are apart from whole numbers of nanoseconds that they are not equal to. -/
theorem nanosecond_le_abs_sub {count : ℤ} (h : span.value ≠ count / 1000000000) :
    1 / 1000000000 ≤ |span.value - count / 1000000000| := by
  have hvalue : span.value - count / 1000000000 =
      (span.seconds * 1000000000 + span.nanoseconds - count : ℤ) / 1000000000 := by
    rw [value]
    push_cast
    ring
  have hne : (span.seconds * 1000000000 + span.nanoseconds - count : ℤ) ≠ 0 := by
    intro hzero
    rw [hzero, Int.cast_zero, zero_div, sub_eq_zero] at hvalue
    exact h hvalue
  have hone : (1 : ℚ) ≤ |((span.seconds * 1000000000 + span.nanoseconds - count : ℤ) : ℚ)| := by
    exact_mod_cast Int.one_le_abs hne
  rw [hvalue, abs_div, abs_of_pos (by norm_num : (0 : ℚ) < 1000000000)]
  gcongr

end

/-! ## where the tenths change -/

/-- A rounded number is on the same side of a third as the exact one. -/
def SameSide (exact rounded turn : ℚ) : Prop :=
  (exact < turn → rounded < turn) ∧ (turn < exact → turn < rounded)

theorem sameSide_of_abs_sub_lt {exact rounded turn : ℚ}
    (h : exact ≠ turn → |rounded - exact| < |exact - turn|) : SameSide exact rounded turn := by
  constructor
  · intro hlt
    have hnear := (abs_lt.mp (h hlt.ne)).2
    rw [abs_of_neg (sub_neg.mpr hlt)] at hnear
    linarith
  · intro hlt
    have hnear := (abs_lt.mp (h hlt.ne')).1
    rw [abs_of_pos (sub_pos.mpr hlt)] at hnear
    linarith

/-- The number of tenths next to a number changes at the odd numbers of twentieths.  If none of
them separates a rounded number from the exact one, the tenths next to the rounded number are at
most half a tenth away from the exact one. -/
theorem abs_tenths_sub_le {exact rounded : ℚ}
    (same : ∀ turn : ℤ, turn % 2 = 1 → SameSide exact rounded (turn / 20)) {minutes tenths : Nat}
    (shown : |(tenths : ℚ) - 10 * (rounded - minutes * 60)| ≤ 1 / 2) :
    |minutes * 60 + (tenths : ℚ) / 10 - exact| ≤ 1 / 20 := by
  obtain ⟨hlower, hupper⟩ := abs_le.mp shown
  have habove := (same (1200 * minutes + 2 * tenths + 1) (by omega)).2
  have hbelow := (same (1200 * minutes + 2 * tenths - 1) (by omega)).1
  push_cast at habove hbelow
  rw [abs_le]
  constructor
  · by_contra hlt
    have hrounded := habove (by linarith)
    linarith
  · by_contra hlt
    have hrounded := hbelow (by linarith)
    linarith

/-- How far the floating-point number of seconds may be from a span. -/
def roundingError (span : Duration) : ℚ := (2 ^ (Nat.log2 span.seconds + 1) + 1) / 2 ^ 54

/-- No odd number of twentieths is within the rounding error of a span, unless it is the span
itself. -/
def Settled (span : Duration) : Prop :=
  ∀ turn : ℤ, turn % 2 = 1 → span.value ≠ turn / 20 →
    span.roundingError < |span.value - turn / 20|

section

variable {span : Duration}

theorem abs_value_inSeconds_sub_le_roundingError (h : span.seconds < 2 ^ 53) :
    |span.inSeconds.value - span.value| ≤ span.roundingError :=
  abs_value_inSeconds_sub_le (log2_lt_of_lt (by decide) h) Nat.lt_log2_self

theorem Settled.sameSide (settled : span.Settled) (h : span.seconds < 2 ^ 53) {turn : ℤ}
    (hodd : turn % 2 = 1) : SameSide span.value span.inSeconds.value (turn / 20) :=
  sameSide_of_abs_sub_lt fun hne =>
    (abs_value_inSeconds_sub_le_roundingError h).trans_lt (settled turn hodd hne)

/-- Below `2 ^ 24` seconds the rounding error is less than a nanosecond. -/
theorem settled_of_lt (h : span.seconds < 2 ^ 24) : span.Settled := by
  intro turn _ hne
  have hlog : Nat.log2 span.seconds + 1 ≤ 24 := log2_lt_of_lt (by decide) h
  have hpower : (2 : ℚ) ^ (Nat.log2 span.seconds + 1) ≤ 2 ^ 24 := by
    exact_mod_cast Nat.pow_le_pow_right (by decide) hlog
  have hturn : (turn : ℚ) / 20 = (turn * 50000000 : ℤ) / 1000000000 := by
    push_cast
    ring
  rw [hturn] at hne ⊢
  calc span.roundingError ≤ (2 ^ 24 + 1) / 2 ^ 54 := by
        unfold roundingError
        gcongr
    _ < 1 / 1000000000 := by norm_num
    _ ≤ |span.value - (turn * 50000000 : ℤ) / 1000000000| := nanosecond_le_abs_sub hne

end

/-! ## minutes and seconds -/

/-- A span is shown as minutes and fewer than sixty seconds, which are at most a twentieth of a
second away from it. -/
def ShownInMinutes (span : Duration) : Prop :=
  ∃ minutes tenths : Nat,
    readMinutes span.text.toList = some ((minutes : ℚ), (tenths : ℚ) / 10) ∧ tenths < 600 ∧
      |minutes * 60 + (tenths : ℚ) / 10 - span.value| ≤ 1 / 20

section

variable {span : Duration}

theorem text_of_minutes (h : 60 ≤ span.seconds) :
    span.text = toString (span.seconds / 60) ++ "m " ++ (span.inSeconds.modNat 60).fixedText 1 1 ++
      "s" := by
  have hmilliseconds : 60000 ≤ span.milliseconds := by
    unfold milliseconds
    omega
  rw [text, if_neg (by omega), if_neg (by omega), if_neg (by omega)]

/-- What is read from the text of a span from a minute on. -/
theorem exists_readMinutes_text (h : 60 ≤ span.seconds) :
    ∃ tenths : Nat, readMinutes span.text.toList =
        some (((span.seconds / 60 : Nat) : ℚ), (tenths : ℚ) / 10) ∧
      |(tenths : ℚ) - 10 * (span.inSeconds.modNat 60).value| ≤ 1 / 2 := by
  obtain ⟨tenths, hread, hshown⟩ :=
    Binary64.exists_readDecimal_fixedText Nat.one_pos (span.inSeconds.modNat 60)
  rw [pow_one] at hread hshown
  refine ⟨tenths, ?_, hshown⟩
  rw [text_of_minutes h, readMinutes_append, hread]

theorem minutes_le_value_inSeconds (h : span.seconds < 2 ^ 53) :
    ((span.seconds / 60 : Nat) : ℚ) * 60 ≤ span.inSeconds.value := by
  have hminutes : ((span.seconds / 60 : Nat) : ℚ) * 60 ≤ span.seconds := by
    exact_mod_cast Nat.div_mul_le_self span.seconds 60
  exact hminutes.trans (seconds_le_value_inSeconds h)

/-- Whether a span is shown as it should is a matter of what is read from its text. -/
theorem shownInMinutes_iff {minutes tenths : Nat}
    (read : readMinutes span.text.toList = some ((minutes : ℚ), (tenths : ℚ) / 10)) :
    span.ShownInMinutes ↔
      tenths < 600 ∧ |minutes * 60 + (tenths : ℚ) / 10 - span.value| ≤ 1 / 20 := by
  constructor
  · rintro ⟨minutes', tenths', read', hbelow, hclose⟩
    rw [read, Option.some.injEq, Prod.mk.injEq] at read'
    obtain ⟨hminutes, hseconds⟩ := read'
    obtain rfl : minutes = minutes' := by exact_mod_cast hminutes
    obtain rfl : tenths = tenths' := by
      have htenths : (tenths : ℚ) = tenths' := by linarith
      exact_mod_cast htenths
    exact ⟨hbelow, hclose⟩
  · rintro ⟨hbelow, hclose⟩
    exact ⟨minutes, tenths, read, hbelow, hclose⟩

/-- The floating-point number of seconds is on the same side of where sixty seconds begin to be
shown behind the minutes. -/
theorem Settled.sameSide_sixty_seconds (settled : span.Settled) (h : span.seconds < 2 ^ 53) :
    SameSide span.value span.inSeconds.value ((span.seconds / 60 : Nat) * 60 + 5995 / 100) := by
  generalize span.seconds / 60 = minutes
  have hodd : (1200 * minutes + 1199 : ℤ) % 2 = 1 := by omega
  have hturn : ((1200 * minutes + 1199 : ℤ) : ℚ) / 20 = minutes * 60 + 5995 / 100 := by
    push_cast
    ring
  rw [← hturn]
  exact settled.sameSide h hodd

/-- Spans are shown as they should up to a twentieth of a second before the next full minute. -/
theorem shownInMinutes_of_lt (h : 60 ≤ span.seconds) (hlt : span.seconds < 2 ^ 53)
    (settled : span.Settled) (hrest : span.rest < 5995 / 100) : span.ShownInMinutes := by
  obtain ⟨tenths, hread, hshown⟩ := exists_readMinutes_text h
  have hlower := minutes_le_value_inSeconds hlt
  have hvalue := span.value_eq_add_rest
  have hupper := (settled.sameSide_sixty_seconds hlt).1 (by linarith)
  rw [shownInMinutes_iff hread]
  generalize span.seconds / 60 = minutes at hlower hupper ⊢
  rw [Binary64.value_modNat hlower (by push_cast; linarith)] at hshown
  refine ⟨?_, abs_tenths_sub_le (fun _ => settled.sameSide hlt) hshown⟩
  have htenths : (tenths : ℚ) < 600 := by
    have hle := (abs_le.mp hshown).2
    push_cast at hle
    linarith
  exact_mod_cast htenths

/-- Later ones are shown with sixty seconds, or as the full minute before. -/
theorem not_shownInMinutes_of_lt (h : 60 ≤ span.seconds) (hlt : span.seconds < 2 ^ 53)
    (settled : span.Settled) (hrest : 5995 / 100 < span.rest) : ¬ span.ShownInMinutes := by
  obtain ⟨tenths, hread, hshown⟩ := exists_readMinutes_text h
  have hlower := minutes_le_value_inSeconds hlt
  have hvalue := span.value_eq_add_rest
  have hrounded := (abs_le.mp (abs_value_inSeconds_sub_le (by decide) hlt)).2
  have hlimit := span.rest_lt
  have hgt := (settled.sameSide_sixty_seconds hlt).2 (by linarith)
  rw [shownInMinutes_iff hread]
  generalize span.seconds / 60 = minutes at hlower hvalue hgt ⊢
  rintro ⟨htenths, hclose⟩
  have hcast : (tenths : ℚ) ≤ 599 := by exact_mod_cast Nat.le_of_lt_succ htenths
  by_cases hwhole : span.inSeconds.value < (minutes + 1) * 60
  · rw [Binary64.value_modNat hlower (by push_cast; exact hwhole)] at hshown
    have hge := (abs_le.mp hshown).1
    push_cast at hge
    linarith
  · -- the seconds were rounded up to the next full minute
    have hle : ((minutes + 1 : Nat) : ℚ) * (60 : Nat) ≤ span.inSeconds.value := by
      push_cast
      linarith
    rw [Binary64.value_modNat hle (by push_cast; linarith)] at hshown
    have hsmall := (abs_le.mp hshown).2
    have hnear := (abs_le.mp hclose).1
    push_cast at hsmall
    linarith

/-! ## seconds -/

theorem text_of_seconds (h : 1 ≤ span.seconds) (hlt : span.seconds < 60) :
    span.text = span.inSeconds.fixedText 2 1 ++ "s" := by
  have hmilliseconds : 1000 ≤ span.milliseconds := by
    unfold milliseconds
    omega
  rw [text, if_neg (by omega), if_neg (by omega), if_pos hlt]

/-- The span of 59.995 seconds has a floating-point number below it. -/
theorem value_inSeconds_lt_of_eq (h : span.value = 59995 / 1000) :
    span.inSeconds.value < 59995 / 1000 := by
  obtain ⟨seconds, nanoseconds, hlt⟩ := span
  have hcount : seconds * 1000000000 + nanoseconds = 59995000000 := by
    have hscaled : (seconds : ℚ) * 1000000000 + nanoseconds = 59995000000 := by
      unfold value at h
      linarith
    exact_mod_cast hscaled
  obtain rfl : seconds = 59 := by omega
  obtain rfl : nanoseconds = 995000000 := by omega
  have hgrains : (inSeconds ⟨59, 995000000, by decide⟩).grains * 1000 < 59995 * Binary64.one := by
    decide +kernel
  rw [Binary64.value, div_lt_div_iff₀ Binary64.cast_one_pos (by norm_num)]
  exact_mod_cast hgrains

/-- Below a minute, sixty seconds begin to be shown at 59.995 seconds. -/
theorem sameSide_sixty_seconds (hlt : span.seconds < 60) :
    SameSide span.value span.inSeconds.value (59995 / 1000) := by
  have hcount : (59995 / 1000 : ℚ) = (59995000000 : ℤ) / 1000000000 := by norm_num
  have hbits : span.seconds < 2 ^ 6 := hlt.trans (by decide)
  refine sameSide_of_abs_sub_lt fun hne => ?_
  rw [hcount] at hne ⊢
  calc |span.inSeconds.value - span.value| ≤ (2 ^ 6 + 1) / 2 ^ 54 :=
        abs_value_inSeconds_sub_le (by decide) hbits
    _ < 1 / 1000000000 := by norm_num
    _ ≤ |span.value - (59995000000 : ℤ) / 1000000000| := nanosecond_le_abs_sub hne

/-- Spans below a minute are shown with fewer than sixty seconds up to 59.995 seconds. -/
theorem exists_readSeconds_text (h : 1 ≤ span.seconds) (hlt : span.seconds < 60) :
    ∃ shown : ℚ, readSeconds span.text.toList = some shown ∧
      (shown < 60 ↔ span.value ≤ 59995 / 1000) := by
  obtain ⟨hundredths, hread, hshown⟩ :=
    Binary64.exists_readDecimal_fixedText Nat.two_pos span.inSeconds
  obtain ⟨hlower, hupper⟩ := abs_le.mp hshown
  have same := sameSide_sixty_seconds hlt
  refine ⟨(hundredths : ℚ) / 10 ^ 2, ?_, ?_⟩
  · rw [text_of_seconds h hlt, readSeconds_append, hread]
  · rw [div_lt_iff₀ (by norm_num)]
    constructor
    · intro hbelow
      have hnat : hundredths < 6000 := by
        have hcast : (hundredths : ℚ) < 6000 := by linarith
        exact_mod_cast hcast
      have hle : (hundredths : ℚ) ≤ 5999 := by exact_mod_cast Nat.le_of_lt_succ hnat
      by_contra hgt
      have hrounded := same.2 (not_le.mp hgt)
      linarith
    · intro hle
      have hrounded : span.inSeconds.value < 59995 / 1000 := by
        rcases eq_or_lt_of_le hle with heq | hbelow
        · exact value_inSeconds_lt_of_eq heq
        · exact same.1 hbelow
      linarith

/-- **Where spans are shown with fewer than sixty seconds.**  From a minute on, a settled span, as
every one below `2 ^ 24` seconds is, is read back up to a twentieth of a second and with fewer
than sixty seconds if it is more than a twentieth of a second before the next full minute, and
it is not if it is less than that before it.  From a second up to a minute, fewer than sixty
seconds are shown up to 59.995 seconds. -/
theorem text_exact (span : Duration) :
    (60 ≤ span.seconds → span.seconds < 2 ^ 53 →
      (span.seconds < 2 ^ 24 → span.Settled) ∧
        (span.Settled → (span.rest < 5995 / 100 → span.ShownInMinutes) ∧
          (5995 / 100 < span.rest → ¬ span.ShownInMinutes))) ∧
      (1 ≤ span.seconds → span.seconds < 60 →
        ∃ shown, readSeconds span.text.toList = some shown ∧
          (shown < 60 ↔ span.value ≤ 59995 / 1000)) := by
  refine ⟨fun h hlt => ⟨settled_of_lt, fun settled => ⟨?_, ?_⟩⟩, exists_readSeconds_text⟩
  · exact shownInMinutes_of_lt h hlt settled
  · exact not_shownInMinutes_of_lt h hlt settled

/-- The last spans in whole hundredths that are shown as they should, in a minute and before the
first one. -/
theorem text_exact_of_hundredths :
    let span := ofParts 119 940000000
    let short := ofParts 59 990000000
    60 ≤ span.seconds ∧ span.seconds < 2 ^ 53 ∧ span.seconds < 2 ^ 24 ∧ span.Settled ∧
      span.rest < 5995 / 100 ∧ span.ShownInMinutes ∧ 1 ≤ short.seconds ∧ short.seconds < 60 ∧
      ∃ shown, readSeconds short.text.toList = some shown ∧ shown < 60 := by
  intro span short
  obtain ⟨hminutes, -⟩ := text_exact span
  obtain ⟨hsettled, hshown⟩ := hminutes (by decide) (by decide)
  have settled := hsettled (by decide)
  have hrest : span.rest < 5995 / 100 := by norm_num [span, rest, ofParts]
  obtain ⟨-, hseconds⟩ := text_exact short
  obtain ⟨shown, hread, hiff⟩ := hseconds (by decide) (by decide)
  have hvalue : short.value ≤ 59995 / 1000 := by norm_num [short, value, ofParts]
  exact ⟨by decide, by decide, by decide, settled, hrest, (hshown settled).1 hrest, by decide,
    by decide, shown, hread, hiff.mpr hvalue⟩

/-- **Sixty seconds may be shown, and a minute may be lost.**  The seconds are rounded to a
floating-point number and to tenths or hundredths after the minutes were counted, and a minute
that they are rounded up to is not counted.  From `2 ^ 24` seconds on, the two roundings
together may go further than a twentieth of a second. -/
theorem text_of_sixty_seconds :
    let span := ofParts 119 960000000
    let long := ofParts (2 ^ 24) 250000001
    span.text = "1m 60.0s" ∧ ¬ span.ShownInMinutes ∧ (ofParts 59 996000000).text = "60.00s" ∧
      (ofParts 16777259 999999999).text = "279620m 0.0s" ∧
      long.text = "279620m 16.2s" ∧ ¬ long.ShownInMinutes := by
  intro span long
  have hrest : 5995 / 100 < span.rest := by norm_num [span, rest, ofParts]
  have hread : readMinutes long.text.toList =
      some (((279620 : Nat) : ℚ), ((162 : Nat) : ℚ) / 10) := by decide +kernel
  have hvalue : long.value = 16777216 + 250000001 / 1000000000 := by
    norm_num [long, value, ofParts]
  refine ⟨by decide +kernel, ?_, by decide +kernel, by decide +kernel, by decide +kernel, ?_⟩
  · exact not_shownInMinutes_of_lt (by decide) (by decide) (settled_of_lt (by decide)) hrest
  · rw [shownInMinutes_iff hread, hvalue]
    norm_num

end

end Duration

end AnchorScan
