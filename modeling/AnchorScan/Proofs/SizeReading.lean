import AnchorScan.Proofs.DecimalText
import AnchorScan.Proofs.FloatingPoint
import AnchorScan.Report.Size
import Mathlib.Tactic.Linarith

/-!
# AnchorScan.Proofs.SizeReading

Sizes are shown in their order, and hardly rounded.

* `readSize`: reads the text of a size back as a number of octets, and its unit;
* `SizeUnit.Suits`: a unit is the largest one that does not exceed a number;
* `readSize_readableSize`: what is read, for sizes from 1024 octets on;
* `readableSize_exact`: larger sizes are never read as smaller ones, and sizes of at most
  53 bits are read up to half a hundredth of their unit, which suits them.
-/

namespace AnchorScan

/-! ## reading sizes -/

/-- What stands behind numbers of octets, and how many octets it stands for. -/
def sizeWords : List (String × Nat) :=
  [("bytes", 1), ("KB", 1024), ("MB", 1024 * 1024), ("GB", 1024 * 1024 * 1024),
    ("TB", 1024 * 1024 * 1024 * 1024)]

/-- Reads the text of a size: how many octets it says, and those that its unit has. -/
def readSize (text : String) : Option (ℚ × Nat) :=
  let (number, word) := cut ' ' text.toList
  (sizeWords.lookup (.ofList word)).map fun (octets : Nat) => (readDecimal number * octets, octets)

theorem readSize_append {number word : String} {octets : Nat} (h : ' ' ∉ number.toList)
    (hword : sizeWords.lookup word = some octets) :
    readSize (number ++ " " ++ word) = some (readDecimal number.toList * octets, octets) := by
  have htext : (number ++ " " ++ word).toList = number.toList ++ ' ' :: word.toList := by simp
  rw [readSize, htext, cut_append h]
  simp [hword]

/-! ## units -/

namespace SizeUnit

/-- The units from 1024 octets on. -/
def all : List SizeUnit := [kilo, mega, giga, tera]

/-- A unit is the largest one that does not exceed a number. -/
structure Suits (unit : SizeUnit) (value : Binary64) : Prop where
  mem : unit ∈ all
  le_grains : unit.octets * Binary64.one ≤ value.grains
  largest : ∀ other ∈ all, other.octets * Binary64.one ≤ value.grains → other.octets ≤ unit.octets

/-- Each unit is at least 1024 of those before it. -/
theorem suits_of_lt {unit : SizeUnit} {value : Binary64} (mem : unit ∈ all)
    (le : unit.octets * Binary64.one ≤ value.grains)
    (lt : unit = tera ∨ value.grains < 1024 * unit.octets * Binary64.one) : unit.Suits value := by
  have hapart : ∀ unit ∈ all, ∀ other ∈ all, unit.octets < other.octets →
      1024 * unit.octets ≤ other.octets := by decide
  have htera : ∀ other ∈ all, other.octets ≤ tera.octets := by decide
  refine ⟨mem, le, fun other hother hle => ?_⟩
  rcases lt with rfl | hlt
  · exact htera other hother
  · by_contra hgt
    have happart := hapart unit mem other hother (Nat.not_le.mp hgt)
    have hbound := Nat.mul_le_mul_right Binary64.one happart
    exact absurd (hbound.trans hle) (Nat.not_le.mpr hlt)

/-- The unit that is chosen suits the number. -/
theorem suits_choose {value : Binary64} (h : kilo.octets * Binary64.one ≤ value.grains) :
    (choose value kilo [mega, giga, tera]).Suits value := by
  have hnext {unit larger : SizeUnit} (hlarger : larger.octets = 1024 * unit.octets)
      (hge : ¬ value.grains < 1024 * unit.octets * Binary64.one) :
      larger.octets * Binary64.one ≤ value.grains := by
    rw [hlarger]
    exact Nat.not_lt.mp hge
  simp only [choose]
  split
  · next hmega => exact suits_of_lt (by decide) h (.inr hmega)
  · next hmega =>
    split
    · next hgiga => exact suits_of_lt (by decide) (hnext rfl hmega) (.inr hgiga)
    · next hgiga =>
      split
      · next htera => exact suits_of_lt (by decide) (hnext rfl hgiga) (.inr htera)
      · next htera => exact suits_of_lt (by decide) (hnext rfl htera) (.inl rfl)

/-- A number in hundredths of a unit. -/
def hundredths (unit : SizeUnit) (value : Binary64) : Nat :=
  roundDiv (value.grains * 100) (unit.octets * Binary64.one)

section

variable {unit : SizeUnit} {value : Binary64}

theorem le_octets (mem : unit ∈ all) : 1024 ≤ unit.octets := by
  have hle : ∀ unit ∈ all, 1024 ≤ unit.octets := by decide
  exact hle unit mem

theorem grains_pos (mem : unit ∈ all) : 0 < unit.octets * Binary64.one :=
  Nat.mul_pos (Nat.zero_lt_of_lt (le_octets mem)) Binary64.one_pos

/-- A number that a unit suits has at least one of it. -/
theorem Suits.le_hundredths (suits : unit.Suits value) : 100 ≤ unit.hundredths value :=
  le_roundDiv (grains_pos suits.mem) (by have hle := suits.le_grains; omega)

theorem hundredths_mono (unit : SizeUnit) {value larger : Binary64}
    (h : value.grains ≤ larger.grains) : unit.hundredths value ≤ unit.hundredths larger :=
  roundDiv_mono (Nat.mul_le_mul_right 100 h)

/-- What is below a multiple of a unit is not rounded to more than that. -/
theorem hundredths_le {count : Nat} (mem : unit ∈ all)
    (h : value.grains ≤ count * unit.octets * Binary64.one) :
    unit.hundredths value ≤ 100 * count := by
  refine roundDiv_le (grains_pos mem) ?_
  calc value.grains * 100 ≤ count * unit.octets * Binary64.one * 100 := Nat.mul_le_mul_right 100 h
    _ = 100 * count * (unit.octets * Binary64.one) := by ring

end

/-- **Larger numbers are not shown as less**, also where they are shown in a larger unit. -/
theorem Suits.hundredths_mul_mono {unit other : SizeUnit} {value larger : Binary64}
    (suits : unit.Suits value) (suits' : other.Suits larger) (h : value.grains ≤ larger.grains) :
    unit.hundredths value * unit.octets ≤ other.hundredths larger * other.octets := by
  have hdvd : ∀ unit ∈ all, ∀ other ∈ all, unit.octets ≤ other.octets →
      unit.octets ∣ other.octets := by decide
  have hunits : unit.octets ≤ other.octets :=
    suits'.largest unit suits.mem (suits.le_grains.trans h)
  rcases Nat.eq_or_lt_of_le hunits with heq | hlt
  · have hsame : unit.hundredths value = other.hundredths value := by
      rw [hundredths, hundredths, heq]
    rw [hsame, heq]
    exact Nat.mul_le_mul_right _ (other.hundredths_mono h)
  · obtain ⟨count, hcount⟩ := hdvd unit suits.mem other suits'.mem hunits
    have hbelow : value.grains < other.octets * Binary64.one := by
      by_contra hle
      exact absurd (suits.largest other suits'.mem (Nat.not_lt.mp hle)) (Nat.not_le.mpr hlt)
    have hbound : unit.hundredths value ≤ 100 * count := by
      refine hundredths_le suits.mem ?_
      rw [Nat.mul_comm count, ← hcount]
      exact hbelow.le
    calc unit.hundredths value * unit.octets ≤ 100 * count * unit.octets :=
          Nat.mul_le_mul_right _ hbound
      _ = 100 * other.octets := by rw [hcount]; ring
      _ ≤ other.hundredths larger * other.octets := Nat.mul_le_mul_right _ suits'.le_hundredths

end SizeUnit

/-! ## sizes -/

theorem readSize_of_lt {size : Nat} (h : size < 1024) :
    readSize (readableSize size) = some ((size : ℚ), 1) := by
  have htext : readableSize size = toString size ++ " " ++ "bytes" := by
    rw [readableSize, if_pos h, String.append_assoc]
    rfl
  have hbytes : sizeWords.lookup "bytes" = some 1 := by decide
  rw [htext, readSize_append (not_mem_toString (by decide)) hbytes, readDecimal_toString]
  simp

/-- Sizes from 1024 octets on are read in hundredths of the unit that suits them. -/
theorem readSize_readableSize {size : Nat} (h : 1024 ≤ size) :
    ∃ unit : SizeUnit, unit.Suits (.ofNat size) ∧ readSize (readableSize size) =
      some ((unit.hundredths (.ofNat size) : ℚ) / 100 * unit.octets, unit.octets) := by
  have hgrains : SizeUnit.kilo.octets * Binary64.one ≤ (Binary64.ofNat size).grains := by
    have hkilo : SizeUnit.kilo.octets = 1024 := rfl
    rw [hkilo, ← Binary64.grains_ofNat_of_lt (by decide)]
    exact Binary64.grains_ofNat_mono h
  have suits := SizeUnit.suits_choose hgrains
  have htext : readableSize size = (Binary64.ofNat size).fixedText 2
      (SizeUnit.choose (.ofNat size) .kilo [.mega, .giga, .tera]).octets ++ " " ++
        (SizeUnit.choose (.ofNat size) .kilo [.mega, .giga, .tera]).name := by
    rw [readableSize, if_neg (Nat.not_lt.mpr h)]
  generalize SizeUnit.choose (.ofNat size) .kilo [.mega, .giga, .tera] = unit at suits htext
  have hname : ∀ unit ∈ SizeUnit.all, sizeWords.lookup unit.name = some unit.octets := by decide
  have hspace : ' ' ∉ ((Binary64.ofNat size).fixedText 2 unit.octets).toList := by
    rw [Binary64.fixedText, toList_fixedText, List.mem_append, List.mem_cons]
    rintro (h | h | h)
    · exact not_mem_toString (by decide) h
    · exact absurd h (by decide)
    · exact not_mem_padded (by decide) h
  refine ⟨unit, suits, ?_⟩
  rw [htext, readSize_append hspace (hname unit suits.mem), Binary64.fixedText,
    readDecimal_fixedText (by decide)]
  rfl

/-- Sizes of at most 53 bits are read up to half a hundredth of their unit. -/
theorem abs_hundredths_sub_le {size : Nat} (h : size < 2 ^ 53) {unit : SizeUnit}
    (mem : unit ∈ SizeUnit.all) :
    |(unit.hundredths (.ofNat size) : ℚ) / 100 * unit.octets - size| ≤ (unit.octets : ℚ) / 200 := by
  have hpos := SizeUnit.grains_pos mem
  have hone := Binary64.one_pos
  have hupper := two_mul_roundDiv_mul_le hpos ((Binary64.ofNat size).grains * 100)
  have hlower := le_two_mul_roundDiv_mul hpos ((Binary64.ofNat size).grains * 100)
  rw [← SizeUnit.hundredths, Binary64.grains_ofNat_of_lt h] at hupper hlower
  generalize unit.hundredths (.ofNat size) = shown at hupper hlower ⊢
  have hover : 2 * (shown * unit.octets) ≤ 200 * size + unit.octets := by
    refine Nat.le_of_mul_le_mul_right ?_ hone
    calc 2 * (shown * unit.octets) * Binary64.one
        = 2 * (shown * (unit.octets * Binary64.one)) := by ring
      _ ≤ 2 * (size * Binary64.one * 100) + unit.octets * Binary64.one := hupper
      _ = (200 * size + unit.octets) * Binary64.one := by ring
  have hunder : 200 * size ≤ 2 * (shown * unit.octets) + unit.octets := by
    refine Nat.le_of_mul_le_mul_right ?_ hone
    calc 200 * size * Binary64.one = 2 * (size * Binary64.one * 100) := by ring
      _ ≤ 2 * (shown * (unit.octets * Binary64.one)) + unit.octets * Binary64.one := hlower
      _ = (2 * (shown * unit.octets) + unit.octets) * Binary64.one := by ring
  have hover' : 2 * ((shown : ℚ) * unit.octets) ≤ 200 * size + unit.octets := by
    exact_mod_cast hover
  have hunder' : 200 * (size : ℚ) ≤ 2 * (shown * unit.octets) + unit.octets := by
    exact_mod_cast hunder
  rw [abs_le]
  constructor <;> linarith

/-- **Sizes are shown in their order, and hardly rounded.**  What is read from the text of a
larger size is not less.  Of a size of at most 53 bits, what is read is up to half a hundredth
of the unit, which is the largest that does not exceed the size; below 1024 it is the size. -/
theorem readableSize_exact :
    (∀ a b, a ≤ b → ∃ x y, readSize (readableSize a) = some x ∧
      readSize (readableSize b) = some y ∧ x.1 ≤ y.1) ∧
    (∀ size < 2 ^ 53, ∃ x, readSize (readableSize size) = some x ∧
      |x.1 - size| ≤ (x.2 : ℚ) / 200 ∧ (size < 1024 → x = ((size : ℚ), 1)) ∧
      (1024 ≤ size → (∃ unit ∈ SizeUnit.all, x.2 = unit.octets) ∧ x.2 ≤ size ∧
        ∀ unit ∈ SizeUnit.all, unit.octets ≤ size → unit.octets ≤ x.2)) := by
  constructor
  · intro a b h
    rcases Nat.lt_or_ge b 1024 with hb | hb
    · exact ⟨_, _, readSize_of_lt (by omega), readSize_of_lt hb, Nat.cast_le.mpr h⟩
    · obtain ⟨unit', suits', hread'⟩ := readSize_readableSize hb
      rcases Nat.lt_or_ge a 1024 with ha | ha
      · refine ⟨_, _, readSize_of_lt ha, hread', ?_⟩
        have hshown := Nat.mul_le_mul suits'.le_hundredths (SizeUnit.le_octets suits'.mem)
        have hshown' : (100 * 1024 : ℚ) ≤ unit'.hundredths (.ofNat b) * unit'.octets := by
          exact_mod_cast hshown
        have hsmall : (a : ℚ) < 1024 := by exact_mod_cast ha
        simp only
        linarith
      · obtain ⟨unit, suits, hread⟩ := readSize_readableSize ha
        refine ⟨_, _, hread, hread', ?_⟩
        have hmono := suits.hundredths_mul_mono suits' (Binary64.grains_ofNat_mono h)
        have hmono' : (unit.hundredths (.ofNat a) : ℚ) * unit.octets ≤
            unit'.hundredths (.ofNat b) * unit'.octets := by exact_mod_cast hmono
        simp only
        linarith
  · intro size hsize
    rcases Nat.lt_or_ge size 1024 with h | h
    · refine ⟨_, readSize_of_lt h, ?_, fun _ => rfl, fun hge => absurd h (Nat.not_lt.mpr hge)⟩
      simp
    · obtain ⟨unit, suits, hread⟩ := readSize_readableSize h
      refine ⟨_, hread, abs_hundredths_sub_le hsize suits.mem,
        fun hlt => absurd hlt (Nat.not_lt.mpr h), fun _ => ⟨⟨unit, suits.mem, rfl⟩, ?_, ?_⟩⟩
      · have hle := suits.le_grains
        rw [Binary64.grains_ofNat_of_lt hsize] at hle
        exact Nat.le_of_mul_le_mul_right hle Binary64.one_pos
      · intro other hother hle
        refine suits.largest other hother ?_
        rw [Binary64.grains_ofNat_of_lt hsize]
        exact Nat.mul_le_mul_right _ hle

/-- Two sizes with one octet between them, and a change of the unit. -/
theorem readableSize_exact_of_megabyte :
    1048575 ≤ 1048576 ∧ 1048576 < 2 ^ 53 ∧ 1024 ≤ 1048576 ∧
      ∃ x y, readSize (readableSize 1048575) = some x ∧ readSize (readableSize 1048576) = some y ∧
        x.1 ≤ y.1 ∧ |y.1 - 1048576| ≤ (y.2 : ℚ) / 200 ∧ y.2 ≤ 1048576 ∧
        SizeUnit.mega.octets ≤ y.2 := by
  obtain ⟨hmono, hclose⟩ := readableSize_exact
  obtain ⟨x, y, hx, hy, hle⟩ := hmono 1048575 1048576 (by decide)
  obtain ⟨y', hy', hnear, -, hunit⟩ := hclose 1048576 (by decide)
  obtain ⟨-, hbelow, hlargest⟩ := hunit (by decide)
  obtain rfl : y = y' := Option.some.inj (hy.symm.trans hy')
  exact ⟨by decide, by decide, by decide, x, y, hx, hy, hle, by exact_mod_cast hnear, hbelow,
    hlargest .mega (by decide) (by decide)⟩

end AnchorScan
