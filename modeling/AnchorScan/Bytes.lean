/-!
# AnchorScan.Bytes

Streams of octets and positions in them.

A stream is delivered in consecutive pieces, and positions, sizes and offsets
are 64-bit quantities: `maxPosition` is the largest one, and `advance` moves a
position forward and stays there once it is reached.  Main facts:

* `advance_advance`: moving twice is moving once by the sum;
* `flatten_slices`: cutting a stream into slices loses nothing, and
  `length_of_mem_slices` bounds each slice.
-/

namespace AnchorScan

/-- A run of octets. -/
abbrev Bytes := List UInt8

/-! ## positions -/

/-- The largest position, size or offset: 64 bits, all set. -/
def maxPosition : Nat := 0xFFFFFFFFFFFFFFFF

/-- The position `count` octets after `position`, held at `maxPosition`. -/
def advance (position count : Nat) : Nat := min (position + count) maxPosition

theorem advance_le_maxPosition (position count : Nat) : advance position count ≤ maxPosition := by
  unfold advance; omega

theorem le_advance {position : Nat} (h : position ≤ maxPosition) (count : Nat) :
    position ≤ advance position count := by
  unfold advance; omega

/-- Advancing by `a` and then by `b` is advancing by their sum. -/
theorem advance_advance (position a b : Nat) :
    advance (advance position a) b = advance position (a + b) := by
  unfold advance; omega

/-! ## slices -/

/-- The slices of `size` octets that a stream consists of, in order; the last
may be shorter.  A size of zero cuts single octets. -/
def slices (size : Nat) : Bytes → List Bytes
  | [] => []
  | b :: rest => (b :: rest.take (size - 1)) :: slices size (rest.drop (size - 1))
termination_by data => data.length
decreasing_by rw [List.length_drop, List.length_cons]; omega

@[simp] theorem slices_nil (size : Nat) : slices size [] = [] := by simp [slices]

/-- Joined again, the slices are the stream. -/
theorem flatten_slices (size : Nat) (data : Bytes) : (slices size data).flatten = data := by
  match data with
  | [] => simp
  | b :: rest =>
    rw [slices, List.flatten_cons, flatten_slices size (rest.drop (size - 1))]
    simp
termination_by data.length
decreasing_by rw [List.length_drop, List.length_cons]; omega

/-- A slice holds at least one octet and at most `size` of them. -/
theorem length_of_mem_slices {size : Nat} (hs : 0 < size) (data : Bytes) :
    ∀ slice ∈ slices size data, 0 < slice.length ∧ slice.length ≤ size := by
  match data with
  | [] => simp
  | b :: rest =>
    intro slice h
    rw [slices, List.mem_cons] at h
    rcases h with rfl | h
    · simp; omega
    · exact length_of_mem_slices hs (rest.drop (size - 1)) slice h
termination_by data.length
decreasing_by rw [List.length_drop, List.length_cons]; omega

end AnchorScan
