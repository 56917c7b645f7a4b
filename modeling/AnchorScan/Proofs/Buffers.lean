import AnchorScan.Proofs.Layout
import AnchorScan.Session.Progress

/-!
# AnchorScan.Proofs.Buffers

The arena read octet by octet.  A write changes the octets of its range and no
others, so a write into one buffer leaves the other buffers alone; an arena is
known once all its buffers are.

* `getElem?_write` and `getElem?_buffer`: arenas and buffers by position;
* `Catalog.LaidOut.buffer_write_of_ne`: a write that stays in a signature's
  buffer changes no other buffer;
* `Catalog.LaidOut.arena_eq`: an arena is its buffers, one behind the other.
-/

namespace AnchorScan

/-! ## writing -/

@[simp] theorem size_write (arena : Array UInt8) (place : Nat) (octets : Bytes) :
    (write arena place octets).size = arena.size := by
  induction octets generalizing arena place with
  | nil => rfl
  | cons octet rest ih => rw [write, ih, Array.size_setIfInBounds]

/-- Inside its range a write puts its own octets, outside it changes nothing. -/
theorem getElem?_write (arena : Array UInt8) (place : Nat) (octets : Bytes)
    (h : place + octets.length ≤ arena.size) (i : Nat) :
    (write arena place octets)[i]? =
      if place ≤ i ∧ i < place + octets.length then octets[i - place]? else arena[i]? := by
  induction octets generalizing arena place with
  | nil =>
      have hout : ¬ (place ≤ i ∧ i < place + ([] : Bytes).length) := by
        rw [List.length_nil]
        omega
      rw [write, if_neg hout]
  | cons octet rest ih =>
      rw [List.length_cons] at h
      rw [write, ih _ _ (by rw [Array.size_setIfInBounds]; omega), List.length_cons]
      rcases Nat.lt_trichotomy place i with hlt | rfl | hgt
      · rw [Array.getElem?_setIfInBounds_ne (by omega),
          show i - place = i - (place + 1) + 1 by omega, List.getElem?_cons_succ]
        by_cases hi : i < place + 1 + rest.length
        · rw [if_pos ⟨hlt, hi⟩, if_pos ⟨by omega, by omega⟩]
        · rw [if_neg (by omega), if_neg (by omega)]
      · rw [if_neg (by omega), if_pos ⟨by omega, by omega⟩,
          Array.getElem?_setIfInBounds_self_of_lt (by omega)]
        simp
      · rw [if_neg (by omega), if_neg (by omega), Array.getElem?_setIfInBounds_ne (by omega)]

/-! ## buffers -/

theorem buffer_eq_take_drop (signature : Signature) (arena : Array UInt8) :
    signature.buffer arena = (arena.toList.drop signature.arenaStart).take signature.length := by
  rw [Signature.buffer, Array.toList_extract, List.extract_eq_take_drop, Signature.arenaStop,
    Nat.add_sub_cancel_left]

/-- A buffer holds the octets from its start in the arena on. -/
theorem getElem?_buffer (signature : Signature) (arena : Array UInt8)
    (h : signature.arenaStop ≤ arena.size) (i : Nat) :
    (signature.buffer arena)[i]? =
      if i < signature.length then arena[signature.arenaStart + i]? else none := by
  unfold Signature.buffer
  unfold Signature.arenaStop at h ⊢
  rw [Array.getElem?_toList, Array.getElem?_extract]
  by_cases hi : i < signature.length
  · rw [if_pos (by omega), if_pos hi]
  · rw [if_neg (by omega), if_neg hi]

/-- In a fresh arena a buffer holds zeros. -/
theorem buffer_replicate {signature : Signature} {size : Nat} (h : signature.arenaStop ≤ size) :
    signature.buffer (Array.replicate size 0) = List.replicate signature.length 0 := by
  apply List.ext_getElem?
  intro i
  rw [getElem?_buffer _ _ (by rwa [Array.size_replicate]), Array.getElem?_replicate,
    List.getElem?_replicate]
  unfold Signature.arenaStop at h
  by_cases hi : i < signature.length
  · rw [if_pos hi, if_pos hi, if_pos (by omega)]
  · rw [if_neg hi, if_neg hi]

/-- A write that meets no octet of a buffer leaves the buffer as it is. -/
theorem buffer_write_of_disjoint {signature : Signature} {arena : Array UInt8} {place : Nat}
    {octets : Bytes} (hb : signature.arenaStop ≤ arena.size) (h : place + octets.length ≤ arena.size)
    (hd : place + octets.length ≤ signature.arenaStart ∨ signature.arenaStop ≤ place) :
    signature.buffer (write arena place octets) = signature.buffer arena := by
  apply List.ext_getElem?
  intro i
  rw [getElem?_buffer _ _ (by rwa [size_write]), getElem?_buffer _ _ hb]
  by_cases hi : i < signature.length
  · unfold Signature.arenaStop at hd
    rw [if_pos hi, if_pos hi, getElem?_write _ _ _ h, if_neg (by omega)]
  · rw [if_neg hi, if_neg hi]

/-- A write into a buffer, read back from the buffer. -/
theorem getElem?_buffer_write {signature : Signature} {arena : Array UInt8} {target : Nat}
    {octets : Bytes} (hb : signature.arenaStop ≤ arena.size)
    (ht : target + octets.length ≤ signature.length) (i : Nat) :
    (signature.buffer (write arena (signature.arenaStart + target) octets))[i]? =
      if target ≤ i ∧ i < target + octets.length then octets[i - target]?
      else (signature.buffer arena)[i]? := by
  have hw : signature.arenaStart + target + octets.length ≤ arena.size := by
    unfold Signature.arenaStop at hb
    omega
  rw [getElem?_buffer _ _ (by rwa [size_write]), getElem?_buffer _ _ hb, getElem?_write _ _ _ hw]
  by_cases hi : target ≤ i ∧ i < target + octets.length
  · rw [if_pos hi, if_pos (by omega), if_pos (by omega),
      show signature.arenaStart + i - (signature.arenaStart + target) = i - target by omega]
  · by_cases hlen : i < signature.length
    · rw [if_neg hi, if_pos hlen, if_neg (by omega), if_pos hlen]
    · rw [if_neg hi, if_neg hlen, if_neg hlen]

namespace Catalog.LaidOut

variable {catalog : Catalog}

/-- A write that stays in a signature's buffer changes no other buffer. -/
theorem buffer_write_of_ne (laidOut : catalog.LaidOut) {signature other : Signature}
    (h₁ : signature ∈ catalog.signatures) (h₂ : other ∈ catalog.signatures)
    (hne : other ≠ signature) {arena : Array UInt8} (ha : arena.size = catalog.arenaLength)
    {target : Nat} {octets : Bytes} (ht : target + octets.length ≤ signature.length) :
    other.buffer (write arena (signature.arenaStart + target) octets) = other.buffer arena := by
  have hstop := laidOut.arenaStop_le h₁
  have hother := laidOut.arenaStop_le h₂
  have hdisjoint := laidOut.buffers_disjoint h₁ h₂ hne.symm
  unfold Signature.arenaStop at hstop hdisjoint
  refine buffer_write_of_disjoint (by omega) (by omega) ?_
  unfold Signature.arenaStop
  omega

end Catalog.LaidOut

/-! ## an arena and its buffers -/

/-- From a place on, an arena is the buffers laid out there. -/
theorem Laid.drop_arena_eq {index place : Nat} {signatures : List Signature}
    (laid : Laid index place signatures) {arena : Array UInt8}
    (ha : arena.size = place + buffersLength signatures) :
    arena.toList.drop place = signatures.flatMap fun signature => signature.buffer arena := by
  induction signatures generalizing index place with
  | nil => exact List.drop_eq_nil_of_le (by simpa using Nat.le_of_eq ha)
  | cons signature rest ih =>
      obtain ⟨hindex, rfl, laid⟩ := laid
      rw [buffersLength_cons] at ha
      rw [List.flatMap_cons, ← ih laid (by omega), buffer_eq_take_drop, ← List.drop_drop,
        List.take_append_drop]

/-- **An arena is its buffers, one behind the other.** -/
theorem Catalog.LaidOut.arena_eq {catalog : Catalog} (laidOut : catalog.LaidOut)
    {arena : Array UInt8} (ha : arena.size = catalog.arenaLength) :
    arena = (catalog.signatures.toList.flatMap fun signature => signature.buffer arena).toArray := by
  have hsize : arena.size = 0 + buffersLength catalog.signatures.toList := by
    rw [ha, laidOut.arenaLength_eq, Nat.zero_add]
  rw [← laidOut.laid.drop_arena_eq hsize, List.drop_zero, Array.toArray_toList]

/-- In octets that were put one behind the other, a buffer is where it was put. -/
theorem Laid.buffer_flatMap {octets : Signature → Bytes}
    (hlength : ∀ signature, (octets signature).length = signature.length) {index : Nat}
    {signatures : List Signature} {before : Bytes} (laid : Laid index before.length signatures) :
    ∀ signature ∈ signatures,
      signature.buffer (before ++ signatures.flatMap octets).toArray = octets signature := by
  induction signatures generalizing index before with
  | nil => simp
  | cons first rest ih =>
      obtain ⟨hindex, hplace, laid⟩ := laid
      intro signature h
      rcases List.mem_cons.mp h with rfl | h
      · rw [buffer_eq_take_drop, hplace, List.drop_left, List.flatMap_cons, ← hlength signature,
          List.take_left]
      · have happ : (before ++ octets first).length = before.length + first.length := by
          rw [List.length_append, hlength]
        rw [List.flatMap_cons, ← List.append_assoc]
        exact ih (by rwa [happ]) signature h

theorem length_flatMap_octets {octets : Signature → Bytes}
    (hlength : ∀ signature, (octets signature).length = signature.length)
    (signatures : List Signature) :
    (signatures.flatMap octets).length = buffersLength signatures := by
  induction signatures with
  | nil => rfl
  | cons signature rest ih =>
      rw [List.flatMap_cons, List.length_append, hlength, ih, buffersLength_cons]

end AnchorScan
