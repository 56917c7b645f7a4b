import AnchorScan.Number.Rounding
import Mathlib.Algebra.Order.Field.Rat
import Mathlib.Data.Nat.Digits.Defs
import Mathlib.Tactic.FieldSimp

/-!
# AnchorScan.Proofs.DecimalText

Numbers are read back from their decimal text.

* `cut` and `append_cons_inj`: the first place of a character divides a text, and the last
  (`append_cons_inj_last`);
* `toString_inj`: natural numbers have texts of their own, and what follows a number does not
  matter if it begins with something other than a digit (`toString_append_inj`);
* `readDecimal`: reads decimal text, with decimal places or without;
* `readDecimal_fixedText`: what was written with decimal places is read as it was rounded.
-/

namespace AnchorScan

/-! ## dividing a text -/

/-- What stands before the first place of a character and what stands behind it. -/
def cut (stop : Char) : List Char → List Char × List Char
  | [] => ([], [])
  | c :: text => if c = stop then ([], text) else ((cut stop text).map (c :: ·) id)

theorem cut_of_not_mem {stop : Char} {text : List Char} (h : stop ∉ text) :
    cut stop text = (text, []) := by
  induction text with
  | nil => rfl
  | cons c text ih =>
      have hc : c ≠ stop := (List.ne_of_not_mem_cons h).symm
      rw [cut, if_neg hc, ih (List.not_mem_of_not_mem_cons h)]
      rfl

theorem cut_append {stop : Char} {front : List Char} (h : stop ∉ front) (rest : List Char) :
    cut stop (front ++ stop :: rest) = (front, rest) := by
  induction front with
  | nil => rw [List.nil_append, cut, if_pos rfl]
  | cons c front ih =>
      have hc : c ≠ stop := (List.ne_of_not_mem_cons h).symm
      rw [List.cons_append, cut, if_neg hc, ih (List.not_mem_of_not_mem_cons h)]
      rfl

/-- Where the character is first, a text is divided in one way only. -/
theorem append_cons_inj {stop : Char} {first second rest rest' : List Char} (h : stop ∉ first)
    (h' : stop ∉ second) (heq : first ++ stop :: rest = second ++ stop :: rest') :
    first = second ∧ rest = rest' := by
  rw [← Prod.mk.injEq, ← cut_append h, heq, cut_append h']

/-- Nor is there another way where the character is last. -/
theorem append_cons_inj_last {stop : Char} {first second rest rest' : List Char} (h : stop ∉ rest)
    (h' : stop ∉ rest') (heq : first ++ stop :: rest = second ++ stop :: rest') :
    first = second ∧ rest = rest' := by
  have hreverse := congrArg List.reverse heq
  simp only [List.reverse_append, List.reverse_cons, List.append_assoc, List.singleton_append]
    at hreverse
  obtain ⟨hrest, hfirst⟩ :=
    append_cons_inj (mt List.mem_reverse.mp h) (mt List.mem_reverse.mp h') hreverse
  exact ⟨List.reverse_inj.mp hfirst, List.reverse_inj.mp hrest⟩

/-! ## natural numbers -/

/-- The digits of a number are decimal digits. -/
theorem not_mem_toString {n : Nat} {c : Char} (h : c.isDigit = false) :
    c ∉ (toString n).toList := by
  intro hmem
  rw [Nat.toString_eq_ofList_toDigits, String.toList_ofList] at hmem
  have hdigit := Nat.isDigit_of_mem_toDigits (by decide) (by decide) hmem
  simp [h] at hdigit

theorem ofDigitChars_toString (n : Nat) : Nat.ofDigitChars 10 (toString n).toList 0 = n := by
  rw [Nat.toString_eq_ofList_toDigits, String.toList_ofList, Nat.ofDigitChars_ten_toDigits]

theorem toString_inj {m n : Nat} (h : toString m = toString n) : m = n := by
  rw [← ofDigitChars_toString m, h, ofDigitChars_toString]

/-- A number is determined by a text that goes on with something other than a digit. -/
theorem toString_append_inj {m n : Nat} {behind rest rest' : String}
    (hbehind : behind.toList.head?.map Char.isDigit = some false)
    (heq : toString m ++ (behind ++ rest) = toString n ++ (behind ++ rest')) :
    m = n ∧ rest = rest' := by
  obtain ⟨mark, hmark, hdigit⟩ := Option.map_eq_some_iff.mp hbehind
  obtain ⟨others, hothers⟩ := List.head?_eq_some_iff.mp hmark
  have hlist := congrArg String.toList heq
  simp only [String.toList_append, hothers, List.cons_append] at hlist
  obtain ⟨hnumber, hrest⟩ :=
    append_cons_inj (not_mem_toString hdigit) (not_mem_toString hdigit) hlist
  exact ⟨toString_inj (String.toList_inj.mp hnumber),
    String.toList_inj.mp (List.append_cancel_left hrest)⟩

theorem not_mem_padded {count n : Nat} {c : Char} (h : c.isDigit = false) : c ∉ padded count n := by
  intro hmem
  rcases List.mem_append.mp hmem with hmem | hmem
  · rw [List.eq_of_mem_replicate hmem] at h
    exact absurd h (by decide)
  · exact not_mem_toString h hmem

theorem ofDigitChars_padded (count n : Nat) : Nat.ofDigitChars 10 (padded count n) 0 = n := by
  rw [padded, Nat.ofDigitChars_append, Nat.ofDigitChars_replicate_zero, Nat.mul_zero,
    ofDigitChars_toString]

theorem length_padded {count n : Nat} (hcount : 0 < count) (h : n < Nat.pow 10 count) :
    (padded count n).length = count := by
  have hdigits : (toString n).toList.length ≤ count := by
    rw [Nat.toString_eq_ofList_toDigits, String.toList_ofList]
    exact (Nat.length_toDigits_le_iff (by decide) hcount).mpr h
  rw [padded, List.length_append, List.length_replicate]
  omega

/-! ## decimal places -/

/-- The number that a decimal text writes, with decimal places or without. -/
def readDecimal (text : List Char) : ℚ :=
  let (whole, places) := cut '.' text
  (Nat.ofDigitChars 10 whole 0 : ℚ) +
    (Nat.ofDigitChars 10 places 0 : ℚ) / (Nat.pow 10 places.length : Nat)

theorem readDecimal_toString (n : Nat) : readDecimal (toString n).toList = n := by
  rw [readDecimal, cut_of_not_mem (not_mem_toString (by decide))]
  simp

theorem toList_fixedText (places num den : Nat) :
    (fixedText places num den).toList =
      (toString (roundDiv (num * Nat.pow 10 places) den / Nat.pow 10 places)).toList ++ '.' ::
        padded places (roundDiv (num * Nat.pow 10 places) den % Nat.pow 10 places) := by
  simp [fixedText]

/-- A number that was written with decimal places is read as it was rounded. -/
theorem readDecimal_fixedText {places : Nat} (h : 0 < places) (num den : Nat) :
    readDecimal (fixedText places num den).toList =
      (roundDiv (num * Nat.pow 10 places) den : ℚ) / (Nat.pow 10 places : Nat) := by
  have hunit : 0 < Nat.pow 10 places := Nat.pow_pos (by decide)
  have hlength := length_padded h (Nat.mod_lt (roundDiv (num * Nat.pow 10 places) den) hunit)
  rw [readDecimal, toList_fixedText, cut_append (not_mem_toString (by decide))]
  simp only [ofDigitChars_toString, ofDigitChars_padded, hlength]
  generalize roundDiv (num * Nat.pow 10 places) den = scaled
  generalize Nat.pow 10 places = unit at hunit
  have hne : (unit : ℚ) ≠ 0 := by exact_mod_cast hunit.ne'
  have hscaled : (scaled : ℚ) = (scaled / unit : Nat) * unit + (scaled % unit : Nat) := by
    exact_mod_cast (Nat.div_add_mod' scaled unit).symm
  rw [hscaled]
  field_simp

end AnchorScan
