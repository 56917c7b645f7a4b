import AnchorScan.Location

/-!
# AnchorScan.Proofs.Windows

Where a signature can stand in a stream, and which octets of a stream lie there.

* `Window.intersect_eq_none_iff` and `Window.intersect_eq_some_iff`: the part of a
  window in a range by its bounds;
* `Signature.window?_bounds`: a window has the length of the pattern and ends
  within the largest position and the declared size;
* `Signature.window?_declared`: what the declared size says about start anchors;
* `Window.octets_append`: the octets of a window are settled once the stream has
  reached its end;
* `Signature.locate_exact`: windows are those of exact arithmetic, places before
  the stream and past the largest position included.
-/

namespace AnchorScan

/-! ## the bounds of a window -/

theorem Window.eq_of_bounds {first second : Window} (hstart : first.start = second.start)
    (hstop : first.stop = second.stop) : first = second := by
  obtain ⟨start, stop, hle⟩ := first
  obtain ⟨start', stop', hle'⟩ := second
  cases hstart
  cases hstop
  rfl

section

variable {window part : Window} {start stop : Nat}

theorem Window.intersect_eq_none_iff :
    window.intersect start stop = none ↔ min window.stop stop ≤ max window.start start := by
  rw [Window.intersect]
  split
  · next h => exact iff_of_false (Option.some_ne_none _) (Nat.not_le_of_lt h)
  · next h => exact iff_of_true rfl (Nat.le_of_not_lt h)

theorem Window.intersect_eq_some_iff :
    window.intersect start stop = some part ↔ part.start < part.stop ∧
      part.start = max window.start start ∧ part.stop = min window.stop stop := by
  rw [Window.intersect]
  split
  · next h =>
    constructor
    · intro heq
      cases heq
      exact ⟨h, rfl, rfl⟩
    · rintro ⟨-, hstart, hstop⟩
      exact congrArg some (Window.eq_of_bounds hstart.symm hstop.symm)
  · next h =>
    refine iff_of_false (Option.some_ne_none part).symm ?_
    rintro ⟨hlt, hstart, hstop⟩
    exact h (hstart ▸ hstop ▸ hlt)

end

/-! ## the octets of a window -/

/-- The octets of a stream that lie in a window. -/
def Window.octets (window : Window) (stream : Bytes) : Bytes :=
  (stream.drop window.start).take window.length

/-- The octets of a window do not change once the stream has reached its end. -/
theorem Window.octets_append {window : Window} {stream : Bytes} (h : window.stop ≤ stream.length)
    (more : Bytes) : window.octets (stream ++ more) = window.octets stream := by
  have hw := window.start_le_stop
  unfold Window.octets Window.length
  rw [List.drop_append_of_le_length (by omega), List.take_append_of_le_length]
  rw [List.length_drop]
  omega

theorem Window.length_octets {window : Window} {stream : Bytes} (h : window.stop ≤ stream.length) :
    (window.octets stream).length = window.length := by
  unfold Window.octets Window.length
  rw [List.length_take, List.length_drop]
  omega

/-! ## the window of a signature -/

theorem windowFrom_eq_window_iff {start length : Nat} {total : Option Nat} {window : Window} :
    windowFrom start length total = .window window ↔
      window.start = start ∧ window.stop = start + length ∧ window.stop ≤ maxPosition ∧
        ∀ size ∈ total, window.stop ≤ size := by
  have hall : total.all (start + length ≤ ·) = true ↔ ∀ size ∈ total, start + length ≤ size := by
    cases total <;> simp
  unfold windowFrom
  constructor
  · intro h
    split at h
    · next hin => cases h; exact ⟨rfl, rfl, hin.1, hall.mp hin.2⟩
    · cases h
  · obtain ⟨first, stop, hle⟩ := window
    rintro ⟨hstart, hstop, hmax, hsize⟩
    obtain rfl : first = start := hstart
    obtain rfl : stop = first + length := hstop
    exact if_pos ⟨hmax, hall.mpr hsize⟩

namespace Signature

/-- The window of a signature, if it has one. -/
def window? (signature : Signature) (total : Option Nat) : Option Window :=
  match signature.locate total with
  | .ok (.window window) => some window
  | _ => none

variable {signature : Signature} {total : Option Nat} {window : Window}

theorem window?_eq_some_iff :
    signature.window? total = some window ↔ signature.locate total = .ok (.window window) := by
  unfold window?
  split <;> simp_all

/-- Where a window can be: it has the length of the pattern, and ends within
the largest position and the declared size. -/
theorem window?_bounds (h : signature.window? total = some window) :
    window.stop = window.start + signature.length ∧ window.stop ≤ maxPosition ∧
      ∀ size ∈ total, window.stop ≤ size := by
  rw [window?_eq_some_iff] at h
  unfold locate at h
  split at h
  · obtain ⟨rfl, hbounds⟩ := windowFrom_eq_window_iff.mp (Except.ok.inj h)
    exact hbounds
  · cases h
  · split at h
    · obtain ⟨hstart, hbounds⟩ := windowFrom_eq_window_iff.mp (Except.ok.inj h)
      rwa [← hstart] at hbounds
    · cases h

theorem window?_length (h : signature.window? total = some window) :
    window.length = signature.length := by
  have hb := window?_bounds h
  unfold Window.length
  omega

/-- To declare a size is to rule out the windows of start anchors that end past it. -/
theorem window?_declared (h : signature.anchor.anchorClass = .fromStart) (size : Nat) :
    signature.window? (some size) = (signature.window? none).filter (·.stop ≤ size) := by
  apply Option.ext
  intro window
  rw [Option.filter_eq_some_iff, window?_eq_some_iff, window?_eq_some_iff]
  cases hanchor : signature.anchor with
  | fromStart offset => simp [locate, hanchor, windowFrom_eq_window_iff, and_assoc]
  | fromEnd offset =>
      rw [hanchor] at h
      cases h

end Signature

/-! ## exact arithmetic -/

/-- The place that an anchor counts to, which may lie before the first octet.
Without a size an end anchor has none. -/
def Anchor.target? (total : Option Nat) : Anchor → Option Int
  | fromStart offset => some offset
  | fromEnd offset => total.map fun size => (size : Int) - offset

/-- So many octets from a place on lie between the first octet, the largest
position and the declared size. -/
def InRange (start : Int) (length : Nat) (total : Option Nat) : Prop :=
  0 ≤ start ∧ start + length ≤ maxPosition ∧ ∀ size ∈ total, start + length ≤ (size : Int)

instance (start : Int) (length : Nat) (total : Option Nat) :
    Decidable (InRange start length total) := inferInstanceAs (Decidable (_ ∧ _ ∧ _))

theorem inRange_natCast_iff {start length : Nat} {total : Option Nat} :
    InRange start length total ↔
      start + length ≤ maxPosition ∧ ∀ size ∈ total, start + length ≤ size := by
  have hle (bound : Nat) : (start : Int) + length ≤ bound ↔ start + length ≤ bound := by omega
  simp only [InRange, hle, Int.natCast_nonneg, true_and]

namespace Signature

variable {signature : Signature} {total : Option Nat} {start : Int}

theorem locate_of_natCast {place : Nat} (h : signature.anchor.target? total = some (place : Int)) :
    signature.locate total = .ok (windowFrom place signature.length total) := by
  unfold locate
  cases hanchor : signature.anchor with
  | fromStart offset =>
      rw [hanchor] at h
      obtain rfl : offset = place := Int.ofNat.inj (Option.some.inj h)
      rfl
  | fromEnd offset =>
      rw [hanchor] at h
      cases total with
      | none => cases h
      | some size =>
          have hplace : (size : Int) - offset = place := Option.some.inj h
          obtain rfl : size - offset = place := by omega
          exact if_pos (by omega)

theorem locate_of_neg (h : signature.anchor.target? total = some start) (hneg : start < 0) :
    signature.locate total = .ok .outOfRange := by
  unfold locate
  cases hanchor : signature.anchor with
  | fromStart offset =>
      rw [hanchor] at h
      have hplace : (offset : Int) = start := Option.some.inj h
      omega
  | fromEnd offset =>
      rw [hanchor] at h
      cases total with
      | none => cases h
      | some size =>
          have hplace : (size : Int) - offset = start := Option.some.inj h
          exact if_neg (by omega)

/-- A signature that is counted to a range has the window there. -/
theorem locate_of_inRange (h : signature.anchor.target? total = some start)
    (hin : InRange start signature.length total) :
    ∃ window, signature.locate total = .ok (.window window) ∧ (window.start : Int) = start ∧
      (window.stop : Int) = start + signature.length := by
  obtain ⟨place, rfl⟩ := Int.eq_ofNat_of_zero_le hin.1
  obtain ⟨hmax, hsize⟩ := inRange_natCast_iff.mp hin
  refine ⟨⟨place, place + signature.length, by omega⟩, ?_, rfl, rfl⟩
  rw [locate_of_natCast h]
  exact congrArg Except.ok (windowFrom_eq_window_iff.mpr ⟨rfl, rfl, hmax, hsize⟩)

theorem locate_of_not_inRange (h : signature.anchor.target? total = some start)
    (hout : ¬ InRange start signature.length total) :
    signature.locate total = .ok .outOfRange := by
  by_cases hneg : start < 0
  · exact locate_of_neg h hneg
  · obtain ⟨place, rfl⟩ := Int.eq_ofNat_of_zero_le (Int.not_lt.mp hneg)
    rw [locate_of_natCast h]
    cases hfrom : windowFrom place signature.length total with
    | outOfRange => rfl
    | window window =>
        obtain ⟨-, hstop, hmax, hsize⟩ := windowFrom_eq_window_iff.mp hfrom
        rw [hstop] at hmax hsize
        exact absurd (inRange_natCast_iff.mpr ⟨hmax, hsize⟩) hout

/-- A signature cannot be located just when its anchor counts from an end that
nobody declared. -/
theorem locate_eq_error_iff {failure : Failure} :
    signature.locate total = .error failure ↔
      signature.anchor.anchorClass = .fromEnd ∧ total = none ∧ failure = .sizeUnknown 1 := by
  unfold locate
  cases signature.anchor with
  | fromStart offset => exact ⟨nofun, nofun⟩
  | fromEnd offset =>
      cases total with
      | none => exact ⟨fun h => ⟨rfl, rfl, (Except.error.inj h).symm⟩, fun h => h.2.2 ▸ rfl⟩
      | some size =>
          by_cases hle : offset ≤ size <;> simp [hle]

/-- The window of a start anchor within a size is its window within every larger
size, and without any. -/
theorem locate_of_smaller (hclass : signature.anchor.anchorClass = .fromStart) {size : Nat}
    {window : Window} (h : signature.locate (some size) = .ok (.window window)) :
    (∀ larger, size ≤ larger → signature.locate (some larger) = .ok (.window window)) ∧
      signature.locate none = .ok (.window window) := by
  simp only [← window?_eq_some_iff, window?_declared hclass, Option.filter_eq_some_iff] at h ⊢
  obtain ⟨hnone, hstop⟩ := h
  refine ⟨fun larger hle => ⟨hnone, ?_⟩, hnone⟩
  simp only [decide_eq_true_eq] at hstop ⊢
  exact Nat.le_trans hstop hle

/-- **A signature is located exactly**, with places counted over the integers.  If
its anchor counts to one, it has the window of its length there, or is out of
range where there is no such window; otherwise it is refused, which happens to end
anchors that lack the size.  A larger size, or none, keeps the windows of start
anchors. -/
theorem locate_exact (signature : Signature) (total : Option Nat) :
    (∀ start, signature.anchor.target? total = some start →
      (∀ window, signature.locate total = .ok (.window window) ↔
        InRange start signature.length total ∧ window.start = start ∧
          window.stop = start + signature.length) ∧
      (signature.locate total = .ok .outOfRange ↔ ¬ InRange start signature.length total)) ∧
    (∀ failure, signature.locate total = .error failure ↔
      signature.anchor.anchorClass = .fromEnd ∧ total = none ∧ failure = .sizeUnknown 1) ∧
    (signature.anchor.anchorClass = .fromStart → ∀ size window,
      signature.locate (some size) = .ok (.window window) →
        (∀ larger, size ≤ larger → signature.locate (some larger) = .ok (.window window)) ∧
          signature.locate none = .ok (.window window)) := by
  refine ⟨fun start htarget => ?_, fun failure => locate_eq_error_iff,
    fun hclass size window h => locate_of_smaller hclass h⟩
  by_cases hin : InRange start signature.length total
  · obtain ⟨found, hlocate, hstart, hstop⟩ := locate_of_inRange htarget hin
    rw [hlocate]
    refine ⟨fun window => ⟨fun h => ?_, fun ⟨_, hs, he⟩ => ?_⟩, nofun, fun hout => absurd hin hout⟩
    · cases h
      exact ⟨hin, hstart, hstop⟩
    · have hsame : found = window := Window.eq_of_bounds (by omega) (by omega)
      rw [hsame]
  · rw [locate_of_not_inRange htarget hin]
    exact ⟨fun window => ⟨nofun, fun h => absurd h.1 hin⟩, fun _ => hin, fun _ => rfl⟩

/-- A window that ends at the largest position, one that ends a single octet past
the declared size, and one that would begin before the stream. -/
theorem locate_exact_sample :
    let far : Signature :=
      ⟨⟨"far", .fromStart (maxPosition - 2), [1, 2]⟩, 0, 0, List.cons_ne_nil 1 [2]⟩
    let tail : Signature := ⟨⟨"tail", .fromEnd 2, [1, 2, 3]⟩, 1, 2, List.cons_ne_nil 1 [2, 3]⟩
    far.locate none = .ok (.window ⟨maxPosition - 2, maxPosition, by decide⟩) ∧
      far.locate (some maxPosition) = far.locate none ∧
      tail.locate (some 9) = .ok .outOfRange ∧ tail.locate (some 1) = .ok .outOfRange ∧
      tail.locate none = .error (.sizeUnknown 1) := by
  intro far tail
  obtain ⟨hfar, -, hlarger⟩ := locate_exact far (some maxPosition)
  obtain ⟨hwindow, -⟩ := hfar (maxPosition - 2 : Nat) rfl
  have hdeclared := (hwindow ⟨maxPosition - 2, maxPosition, by decide⟩).mpr
    ⟨by decide, rfl, rfl⟩
  obtain ⟨-, hnone⟩ := hlarger rfl _ _ hdeclared
  obtain ⟨hpast, -⟩ := locate_exact tail (some 9)
  obtain ⟨hbefore, -⟩ := locate_exact tail (some 1)
  obtain ⟨-, hlacks, -⟩ := locate_exact tail none
  exact ⟨hnone, hdeclared.trans hnone.symm, (hpast 7 rfl).2.mpr (by decide),
    (hbefore (-1) rfl).2.mpr (by decide), (hlacks _).mpr ⟨rfl, rfl, rfl⟩⟩

end Signature

end AnchorScan
