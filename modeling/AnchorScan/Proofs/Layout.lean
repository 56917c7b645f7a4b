import AnchorScan.Catalog
import Mathlib.Data.List.Basic

/-!
# AnchorScan.Proofs.Layout

The layout of a catalog that was built by registrations.  The signatures stand
at the positions `0, 1, …`, their buffers lie in the arena one behind the other,
and the two lists of positions hold those of their anchor class, in order.

* `Catalog.Built.laidOut`: registering keeps the layout, whether it is refused
  or not;
* `Laid.pairwise`: of two signatures the earlier has the smaller position, and
  its buffer ends where that of the later begins or before;
* `Catalog.LaidOut.get?_index` and `Catalog.LaidOut.ofClass_eq`: positions lead
  back to the signatures they belong to.
-/

namespace AnchorScan

/-! ## signatures one behind the other -/

/-- Signatures with consecutive positions and buffers, the first of them at
`index` and at `place` in the arena. -/
def Laid (index place : Nat) : List Signature → Prop
  | [] => True
  | signature :: rest =>
    signature.index = index ∧ signature.arenaStart = place ∧
      Laid (index + 1) (place + signature.length) rest

/-- Length of the buffers of signatures. -/
def buffersLength : List Signature → Nat
  | [] => 0
  | signature :: rest => signature.length + buffersLength rest

@[simp] theorem buffersLength_nil : buffersLength [] = 0 := rfl

@[simp] theorem buffersLength_cons (signature : Signature) (rest : List Signature) :
    buffersLength (signature :: rest) = signature.length + buffersLength rest := rfl

@[simp] theorem buffersLength_append (first second : List Signature) :
    buffersLength (first ++ second) = buffersLength first + buffersLength second := by
  induction first with
  | nil => simp
  | cons signature rest ih =>
      rw [List.cons_append, buffersLength_cons, buffersLength_cons, ih, Nat.add_assoc]

namespace Laid

/-- One more signature goes where the others end. -/
theorem concat {index place : Nat} {signatures : List Signature} {signature : Signature}
    (laid : Laid index place signatures) (hi : signature.index = index + signatures.length)
    (ha : signature.arenaStart = place + buffersLength signatures) :
    Laid index place (signatures ++ [signature]) := by
  induction signatures generalizing index place with
  | nil => exact ⟨hi, ha, trivial⟩
  | cons first rest ih =>
      obtain ⟨hfirst, hplace, laid⟩ := laid
      simp only [List.length_cons, buffersLength_cons] at hi ha
      exact ⟨hfirst, hplace, ih laid (by omega) (by omega)⟩

/-- Positions and buffers lie behind those of the signatures before. -/
theorem bounds {index place : Nat} {signatures : List Signature} (laid : Laid index place signatures) :
    ∀ signature ∈ signatures, index ≤ signature.index ∧
      signature.index < index + signatures.length ∧ place ≤ signature.arenaStart ∧
      signature.arenaStop ≤ place + buffersLength signatures := by
  induction signatures generalizing index place with
  | nil => simp
  | cons first rest ih =>
      obtain ⟨hindex, hplace, laid⟩ := laid
      intro signature h
      rw [List.length_cons, buffersLength_cons]
      rcases List.mem_cons.mp h with rfl | h
      · unfold Signature.arenaStop; omega
      · have hb := ih laid signature h
        omega

/-- Of two signatures the earlier has the smaller position and the buffer that
ends first. -/
theorem pairwise {index place : Nat} {signatures : List Signature}
    (laid : Laid index place signatures) :
    signatures.Pairwise fun first second =>
      first.index < second.index ∧ first.arenaStop ≤ second.arenaStart := by
  induction signatures generalizing index place with
  | nil => exact .nil
  | cons first rest ih =>
      obtain ⟨hindex, hplace, laid⟩ := laid
      refine .cons (fun second h => ?_) (ih laid)
      have hb := laid.bounds second h
      unfold Signature.arenaStop
      omega

/-- A signature stands at its position. -/
theorem getElem?_index {index place : Nat} {signatures : List Signature}
    (laid : Laid index place signatures) :
    ∀ signature ∈ signatures, signatures[signature.index - index]? = some signature := by
  induction signatures generalizing index place with
  | nil => simp
  | cons first rest ih =>
      obtain ⟨hindex, hplace, laid⟩ := laid
      intro signature h
      rcases List.mem_cons.mp h with rfl | h
      · simp [hindex]
      · have hb := (laid.bounds signature h).1
        rw [show signature.index - index = signature.index - (index + 1) + 1 by omega,
          List.getElem?_cons_succ]
        exact ih laid signature h

/-- A signature knows the position that it stands at. -/
theorem index_eq {index place : Nat} {signatures : List Signature}
    (laid : Laid index place signatures) {i : Nat} {signature : Signature}
    (h : signatures[i]? = some signature) : signature.index = index + i := by
  induction signatures generalizing index place i with
  | nil => simp at h
  | cons first rest ih =>
      obtain ⟨hindex, hplace, laid⟩ := laid
      cases i with
      | zero =>
          obtain rfl : first = signature := by simpa using h
          exact hindex
      | succ i =>
          rw [List.getElem?_cons_succ] at h
          have hi := ih laid h
          omega

end Laid

/-! ## catalogs -/

namespace Catalog

/-- What registering keeps up. -/
structure LaidOut (catalog : Catalog) : Prop where
  laid : Laid 0 0 catalog.signatures.toList
  arenaLength_eq : catalog.arenaLength = buffersLength catalog.signatures.toList
  positions_eq : ∀ anchorClass, catalog.positions anchorClass =
    (catalog.signatures.toList.filter (·.anchor.anchorClass = anchorClass)).map (·.index)

/-- The catalogs that registrations lead to, those that were refused among them. -/
inductive Built : Catalog → Prop
  | empty : Built empty
  | register {catalog : Catalog} (built : Built catalog) (definition : Definition) :
      Built (catalog.register definition).state
  | load {catalog : Catalog} (built : Built catalog) (definitions : List Definition) :
      Built (catalog.load definitions).state

/-- A catalog with one signature of each class. -/
def sample : Catalog :=
  (empty.load [⟨"tail", .fromEnd 2, [3, 4]⟩, ⟨"head", .fromStart 1, [1, 2]⟩]).state

theorem built_sample : sample.Built := .load .empty _

theorem laidOut_empty : empty.LaidOut where
  laid := trivial
  arenaLength_eq := rfl
  positions_eq anchorClass := by cases anchorClass <;> rfl

@[simp] theorem signatures_push (catalog : Catalog) (signature : Signature) :
    (catalog.push signature).signatures = catalog.signatures.push signature := by
  cases h : signature.anchor.anchorClass <;> simp [push, h]

@[simp] theorem arenaLength_push (catalog : Catalog) (signature : Signature) :
    (catalog.push signature).arenaLength = catalog.arenaLength + signature.length := by
  cases h : signature.anchor.anchorClass <;> simp [push, h]

/-- Pushing a signature adds its position to those of its class. -/
theorem positions_push (catalog : Catalog) (signature : Signature) (anchorClass : AnchorClass) :
    (catalog.push signature).positions anchorClass = catalog.positions anchorClass ++
      if signature.anchor.anchorClass = anchorClass then [signature.index] else [] := by
  cases h : signature.anchor.anchorClass <;> cases anchorClass <;> simp [push, positions, h]

theorem LaidOut.push {catalog : Catalog} {signature : Signature} (laidOut : catalog.LaidOut)
    (hi : signature.index = catalog.size) (ha : signature.arenaStart = catalog.arenaLength) :
    (catalog.push signature).LaidOut where
  laid := by
    rw [signatures_push, Array.toList_push]
    refine laidOut.laid.concat ?_ ?_
    · rw [hi, Nat.zero_add, Array.length_toList, size]
    · rw [ha, Nat.zero_add, laidOut.arenaLength_eq]
  arenaLength_eq := by
    rw [arenaLength_push, signatures_push, Array.toList_push, laidOut.arenaLength_eq]
    simp
  positions_eq anchorClass := by
    rw [positions_push, signatures_push, Array.toList_push, laidOut.positions_eq]
    by_cases h : signature.anchor.anchorClass = anchorClass <;> simp [h]

theorem LaidOut.register {catalog : Catalog} (laidOut : catalog.LaidOut) (definition : Definition) :
    (catalog.register definition).state.LaidOut := by
  unfold Catalog.register
  split
  · exact laidOut
  · exact laidOut.push rfl rfl

theorem LaidOut.registerAll {catalog : Catalog} (laidOut : catalog.LaidOut)
    (definitions : List Definition) : (catalog.registerAll definitions).state.LaidOut := by
  induction definitions generalizing catalog with
  | nil => exact laidOut
  | cons definition rest ih =>
      have h := laidOut.register definition
      exact Step.andThen_keeps h fun _ => ih h

theorem LaidOut.load {catalog : Catalog} (laidOut : catalog.LaidOut)
    (definitions : List Definition) : (catalog.load definitions).state.LaidOut := by
  have h := laidOut.registerAll definitions
  exact Step.andThen_keeps h fun _ => h

/-- **Registering keeps the layout.** -/
theorem Built.laidOut {catalog : Catalog} (built : catalog.Built) : catalog.LaidOut := by
  induction built with
  | empty => exact laidOut_empty
  | register _ definition ih => exact ih.register definition
  | load _ definitions ih => exact ih.load definitions

namespace LaidOut

variable {catalog : Catalog}

/-- The position of a signature leads to it. -/
theorem get?_index (laidOut : catalog.LaidOut) {signature : Signature}
    (h : signature ∈ catalog.signatures) : catalog.get? signature.index = some signature := by
  have hget := laidOut.laid.getElem?_index signature (Array.mem_toList_iff.mpr h)
  simpa [get?] using hget

/-- Two signatures at one position are the same. -/
theorem eq_of_index_eq (laidOut : catalog.LaidOut) {first second : Signature}
    (h₁ : first ∈ catalog.signatures) (h₂ : second ∈ catalog.signatures)
    (h : first.index = second.index) : first = second := by
  have hget := laidOut.get?_index h₁
  rw [h, laidOut.get?_index h₂] at hget
  exact (Option.some.inj hget).symm

/-- A position leads to the signature that stands there. -/
theorem index_eq (laidOut : catalog.LaidOut) {i : Nat} {signature : Signature}
    (h : catalog.signatures[i]? = some signature) : signature.index = i := by
  rw [← Array.getElem?_toList] at h
  simpa using laidOut.laid.index_eq h

theorem index_lt_size (laidOut : catalog.LaidOut) {signature : Signature}
    (h : signature ∈ catalog.signatures) : signature.index < catalog.size := by
  have hb := laidOut.laid.bounds signature (Array.mem_toList_iff.mpr h)
  simpa [size] using hb.2.1

/-- Every buffer lies in the arena. -/
theorem arenaStop_le (laidOut : catalog.LaidOut) {signature : Signature}
    (h : signature ∈ catalog.signatures) : signature.arenaStop ≤ catalog.arenaLength := by
  have hb := laidOut.laid.bounds signature (Array.mem_toList_iff.mpr h)
  have harena := laidOut.arenaLength_eq
  omega

/-- The buffers of two signatures do not meet. -/
theorem buffers_disjoint (laidOut : catalog.LaidOut) {first second : Signature}
    (h₁ : first ∈ catalog.signatures) (h₂ : second ∈ catalog.signatures) (hne : first ≠ second) :
    first.arenaStop ≤ second.arenaStart ∨ second.arenaStop ≤ first.arenaStart := by
  have hpair := List.pairwise_iff_getElem.mp laidOut.laid.pairwise
  obtain ⟨i, hi, rfl⟩ := List.getElem_of_mem (Array.mem_toList_iff.mpr h₁)
  obtain ⟨j, hj, rfl⟩ := List.getElem_of_mem (Array.mem_toList_iff.mpr h₂)
  rcases Nat.lt_trichotomy i j with hlt | rfl | hlt
  · exact .inl (hpair i j hi hj hlt).2
  · exact absurd rfl hne
  · exact .inr (hpair j i hj hi hlt).2

theorem nodup (laidOut : catalog.LaidOut) : catalog.signatures.toList.Nodup := by
  refine laidOut.laid.pairwise.imp fun h heq => ?_
  rw [heq] at h
  exact Nat.lt_irrefl _ h.1

/-- The signatures of a class are those of the catalog that belong to it, in order. -/
theorem ofClass_eq (laidOut : catalog.LaidOut) (anchorClass : AnchorClass) :
    catalog.ofClass anchorClass =
      catalog.signatures.toList.filter (·.anchor.anchorClass = anchorClass) := by
  rw [ofClass, laidOut.positions_eq, List.filterMap_map]
  refine (List.filterMap_congr fun signature h => ?_).trans List.filterMap_some
  exact laidOut.get?_index (Array.mem_toList_iff.mp (List.mem_of_mem_filter h))

/-- A session has to know the size of its stream for the sake of end anchors. -/
theorem needsTotal_iff (laidOut : catalog.LaidOut) :
    catalog.needsTotal = true ↔
      ∃ signature ∈ catalog.signatures, signature.anchor.anchorClass = .fromEnd := by
  have hpositions := congrArg List.length (laidOut.positions_eq .fromEnd)
  rw [List.length_map, positions, Array.length_toList] at hpositions
  simp [needsTotal, hpositions, List.length_pos_iff_exists_mem]

end LaidOut

end Catalog

end AnchorScan
