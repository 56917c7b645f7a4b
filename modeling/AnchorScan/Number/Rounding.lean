/-!
# AnchorScan.Number.Rounding

Quotients of natural numbers, rounded to the nearest natural number, and their
decimal text with a fixed number of places.  A quotient halfway between two
candidates goes to the even one.  Main facts:

* `two_mul_roundDiv_mul_le` and `le_two_mul_roundDiv_mul`: the result is at
  most half a unit away;
* `roundDiv_mono`: a larger numerator never gives a smaller result.
-/

namespace AnchorScan

/-- The natural number nearest to `num / den`; of two equally near ones, the
even one. -/
def roundDiv (num den : Nat) : Nat :=
  if 2 * (num % den) < den then num / den
  else if den < 2 * (num % den) then num / den + 1
  else num / den + num / den % 2

/-- Rounding adds at most half a unit. -/
theorem two_mul_roundDiv_mul_le {den : Nat} (h : 0 < den) (num : Nat) :
    2 * (roundDiv num den * den) ≤ 2 * num + den := by
  have hq := Nat.div_add_mod num den
  have hr := Nat.mod_lt num h
  have hc : den * (num / den) = num / den * den := Nat.mul_comm _ _
  unfold roundDiv
  split
  · omega
  · split
    · rw [Nat.add_mul]; omega
    · rcases Nat.mod_two_eq_zero_or_one (num / den) with h0 | h1
      · rw [h0]; simp; omega
      · rw [h1, Nat.add_mul]; omega

/-- Rounding takes away at most half a unit. -/
theorem le_two_mul_roundDiv_mul {den : Nat} (h : 0 < den) (num : Nat) :
    2 * num ≤ 2 * (roundDiv num den * den) + den := by
  have hq := Nat.div_add_mod num den
  have hr := Nat.mod_lt num h
  have hc : den * (num / den) = num / den * den := Nat.mul_comm _ _
  unfold roundDiv
  split
  · omega
  · split
    · rw [Nat.add_mul]; omega
    · rw [Nat.add_mul]; omega

/-- The result is the whole part of the quotient or one more. -/
theorem div_le_roundDiv (num den : Nat) : num / den ≤ roundDiv num den := by
  unfold roundDiv
  repeat' split
  all_goals omega

theorem roundDiv_le_div_succ (num den : Nat) : roundDiv num den ≤ num / den + 1 := by
  unfold roundDiv
  repeat' split
  all_goals omega

/-- Rounding keeps the order of numerators. -/
theorem roundDiv_mono {a b den : Nat} (h : a ≤ b) : roundDiv a den ≤ roundDiv b den := by
  have hdiv : a / den ≤ b / den := Nat.div_le_div_right h
  rcases Nat.lt_or_eq_of_le hdiv with hlt | heq
  · have ha := roundDiv_le_div_succ a den
    have hb := div_le_roundDiv b den
    omega
  · have hmod : a % den ≤ b % den := by
      have ha := Nat.div_add_mod a den
      have hb := Nat.div_add_mod b den
      rw [heq] at ha
      omega
    unfold roundDiv
    rw [heq]
    repeat' split
    all_goals omega

/-! ## decimal text -/

/-- The digits of a number, with zeros in front up to a given count. -/
def padded (count number : Nat) : List Char :=
  let digits := (toString number).toList
  List.replicate (count - digits.length) '0' ++ digits

/-- The text of `num / den` with a fixed number of decimal places, at least
one. -/
def fixedText (places num den : Nat) : String :=
  let unit := Nat.pow 10 places
  let scaled := roundDiv (num * unit) den
  toString (scaled / unit) ++ "." ++ String.ofList (padded places (scaled % unit))

end AnchorScan
