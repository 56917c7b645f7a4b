import AnchorScan.Proofs.Progress

/-!
# AnchorScan.Proofs.Preparation

Getting ready for a stream.  The signatures are located class by class, and
each is put at its own position, so the order of the classes shows in the
reports of those that are out of range and nowhere else.

* `locateAll_eq`: locating signatures sets their statuses and no others;
* `Progress.initial_eq`: preparing a scan leads to the progress after no stream,
  unless an end anchor lacks the size.
-/

namespace AnchorScan

section

variable {catalog : Catalog} {total : Option Nat} {stream : Bytes}

/-- The event of a signature that cannot occur. -/
def Signature.outOfRange? (signature : Signature) (total : Option Nat) : Option Event :=
  if signature.window? total = none then some (.outOfRange signature.identifier total) else none

/-- Whether an end anchor waits for a size that was not declared. -/
def Catalog.LacksTotal (catalog : Catalog) (total : Option Nat) : Prop :=
  total.isNone ∧ catalog.needsTotal

instance : Decidable (catalog.LacksTotal total) := inferInstanceAs (Decidable (_ ∧ _))

/-- Only an end anchor without a size cannot be resolved. -/
theorem Signature.locate_ok {signature : Signature}
    (h : signature.anchor.anchorClass = .fromEnd → total ≠ none) :
    ∃ location, signature.locate total = .ok location := by
  unfold Signature.locate
  split
  · exact ⟨_, rfl⟩
  · next hanchor => exact absurd rfl (h (by rw [hanchor]; rfl))
  · split
    · exact ⟨_, rfl⟩
    · exact ⟨_, rfl⟩

/-- Every signature of a catalog that lacks no size can be resolved. -/
theorem Catalog.LaidOut.locate_ok (laidOut : catalog.LaidOut) (hlacks : ¬ catalog.LacksTotal total)
    {signature : Signature} (h : signature ∈ catalog.signatures) :
    ∃ location, signature.locate total = .ok location := by
  refine Signature.locate_ok fun hclass hnone => hlacks ⟨by rw [hnone]; rfl, ?_⟩
  exact laidOut.needsTotal_iff.mpr ⟨signature, h, hclass⟩

/-- Locating signatures puts each at its status after no stream, and leaves the
statuses of the others alone. -/
theorem locateAll_eq (laidOut : catalog.LaidOut) {signatures : List Signature}
    (hmem : ∀ signature ∈ signatures, signature ∈ catalog.signatures)
    (hlocate : ∀ signature ∈ signatures, ∃ location, signature.locate total = .ok location)
    {statuses : Array Status} (hsize : statuses.size = catalog.size) :
    ∃ located, locateAll total signatures statuses =
        .ok (located, signatures.filterMap (·.outOfRange? total)) ∧
      located.size = catalog.size ∧
      ∀ signature ∈ catalog.signatures, (signature ∈ signatures ∨
          statuses[signature.index]? = some (signature.statusAfter total [])) →
        located[signature.index]? = some (signature.statusAfter total []) := by
  induction signatures generalizing statuses with
  | nil => exact ⟨statuses, rfl, hsize, fun signature _ h => h.resolve_left List.not_mem_nil⟩
  | cons first rest ih =>
      obtain ⟨hfirst, hmem⟩ := List.forall_mem_cons.mp hmem
      obtain ⟨⟨location, hlocation⟩, hlocate⟩ := List.forall_mem_cons.mp hlocate
      have hset : (statuses.setIfInBounds first.index (first.statusAfter total [])).size =
          catalog.size := by rw [Array.size_setIfInBounds, hsize]
      obtain ⟨located, heq, hlocated, hstatus⟩ := ih hmem hlocate hset
      refine ⟨located, ?_, hlocated, fun signature hs h => hstatus signature hs ?_⟩
      · cases location with
        | window window =>
            have hw := Signature.window?_eq_some_iff.mpr hlocation
            rw [Signature.statusAfter_nil hw] at heq
            simp only [locateAll, hlocation, heq]
            simp [Signature.outOfRange?, hw]
        | outOfRange =>
            have hw : first.window? total = none := by simp [Signature.window?, hlocation]
            have hrejected : first.statusAfter total [] = .rejected := by
              simp [Signature.statusAfter, hw]
            rw [hrejected] at heq
            simp only [locateAll, hlocation, heq]
            simp [Signature.outOfRange?, hw]
      · -- the first signature is in place now, and the others as they were
        by_cases hsame : signature = first
        · subst hsame
          refine .inr (Array.getElem?_setIfInBounds_self_of_lt ?_)
          rw [hsize]
          exact laidOut.index_lt_size hs
        · have hindex : first.index ≠ signature.index := fun heq =>
            hsame (laidOut.eq_of_index_eq hfirst hs heq).symm
          rw [Array.getElem?_setIfInBounds_ne hindex]
          exact h.imp_left fun h => (List.mem_cons.mp h).resolve_left hsame

/-- The signatures in the order in which they are located. -/
def Catalog.inClassOrder (catalog : Catalog) : List Signature :=
  catalog.ofClass .fromStart ++ catalog.ofClass .fromEnd

theorem Catalog.LaidOut.mem_inClassOrder_iff (laidOut : catalog.LaidOut) {signature : Signature} :
    signature ∈ catalog.inClassOrder ↔ signature ∈ catalog.signatures := by
  rw [Catalog.inClassOrder, laidOut.ofClass_eq, laidOut.ofClass_eq]
  cases h : signature.anchor.anchorClass <;> simp [h]

/-- The pending statuses are found at the positions of those who wait. -/
theorem Laid.pendingPositions_eq {index place : Nat} {signatures : List Signature}
    (laid : Laid index place signatures) :
    (((signatures.map (·.statusAfter total stream)).zipIdx index).filterMap fun (status, index) =>
        if status.isPending then some index else none) =
      (signatures.filter (·.pendingAfter total stream)).map (·.index) := by
  induction signatures generalizing index place with
  | nil => rfl
  | cons first rest ih =>
      obtain ⟨rfl, hplace, laid⟩ := laid
      rw [List.map_cons, List.zipIdx_cons, List.filterMap_cons, ih laid, List.filter_cons]
      unfold Signature.pendingAfter
      cases h : (first.statusAfter total stream).isPending <;> simp [h]

/-- The events of preparing a scan. -/
def Catalog.prepareLog (catalog : Catalog) (total : Option Nat) : List Event :=
  catalog.inClassOrder.filterMap (·.outOfRange? total) ++
    [.prepared (catalog.waiting total []).length catalog.size catalog.arenaLength]

/-- **Preparing a scan leads to the progress after no stream**, and fails only if
an end anchor lacks the size. -/
theorem Progress.initial_eq (laidOut : catalog.LaidOut) :
    Progress.initial catalog total =
      if catalog.LacksTotal total then .error (.sizeUnknown catalog.endAnchored.size)
      else .ok (Progress.after catalog total [] [], catalog.prepareLog total) := by
  by_cases hlacks : catalog.LacksTotal total
  · rw [if_pos hlacks]
    exact if_pos hlacks
  · rw [if_neg hlacks, Progress.initial]
    refine (if_neg hlacks).trans ?_
    have hreplicate : (Array.replicate catalog.size Status.rejected).size = catalog.size :=
      Array.size_replicate
    obtain ⟨located, heq, hsize, hstatus⟩ := locateAll_eq laidOut
      (fun signature h => laidOut.mem_inClassOrder_iff.mp h)
      (fun signature h => laidOut.locate_ok hlacks (laidOut.mem_inClassOrder_iff.mp h)) hreplicate
    have hlocated := laidOut.statuses_eq_after hsize fun signature h =>
      hstatus signature h (.inl (laidOut.mem_inClassOrder_iff.mpr h))
    have hbuffer (signature : Signature) (h : signature ∈ catalog.signatures) :
        signature.buffer (Array.replicate catalog.arenaLength 0) = signature.bufferAfter total [] := by
      rw [buffer_replicate (laidOut.arenaStop_le h), Signature.bufferAfter_nil]
    have harena := laidOut.arena_eq_after Array.size_replicate hbuffer
    subst hlocated
    have hlive : pendingPositions (catalog.signatures.map (·.statusAfter total [])) =
        (catalog.waiting total []).map (·.index) := by
      rw [pendingPositions, Array.toList_map]
      exact laidOut.laid.pendingPositions_eq
    rw [Catalog.inClassOrder] at heq
    simp only [heq, hlive, harena]
    simp [Progress.after, Catalog.prepareLog, Catalog.inClassOrder]

end

end AnchorScan
