import AnchorScan.Proofs.Guards
import AnchorScan.Proofs.Representation

/-!
# AnchorScan.Proofs.GuardedRun

No guard is ever missed.  A session that calls lead to does with guards what it
does without them, so that every element it reads or replaces is there, every
range lies where it should, and no difference, sum or window is out of bounds.

* `guardedSweep_eq`: the guards of a sweep hold, turn by turn;
* `Progress.guardedInitial_eq` and `Progress.guardedTake_eq`: so do those of
  preparing a scan and of taking a chunk;
* `Session.guardedRun_eq`: requests lead, with guards, to the session that they
  lead to without; buffers that were released are not gone through again.
-/

namespace AnchorScan

open Guarded

/-! ## a turn of the sweep -/

namespace Signature.Turn

variable {signature : Signature} {catalog : Catalog} {total : Option Nat} {stream chunk : Bytes}
  {window : Window} {arena : Array UInt8} {statuses : Array Status} {transfer : Transfer}

/-- There is room for a transfer in the buffer, and the octets are in the chunk. -/
theorem guardedReceive_eq (turn : signature.Turn catalog total stream window arena statuses)
    (ht : window.transfer (position stream) (position (stream ++ chunk)) = some transfer)
    (fits : arena.size ≤ maxPosition) :
    signature.guardedReceive arena chunk transfer =
      .ok (write arena (signature.arenaStart + transfer.target) (transfer.octets chunk)) := by
  have hcovered := Window.transfer_bounds ht
  have hmax : position (stream ++ chunk) ≤ maxPosition := Nat.min_le_right _ _
  have hstop := turn.arenaStop_le
  unfold Signature.arenaStop at hstop
  obtain ⟨hchunk, hroom⟩ := transfer_fits turn.located turn.incomplete ht
  unfold guardedReceive
  rw [sum_of_le (by omega), ok_bind, covered_of_le (Nat.le_add_right _ _) hstop, ok_bind,
    sum_of_le (by omega), ok_bind, covered_of_le (Nat.le_add_right _ _) (by omega), ok_bind,
    sum_of_le (by omega), ok_bind, covered_of_le (Nat.le_add_right _ _) hchunk]
  rfl

/-- Never are more octets observed than the pattern has. -/
theorem guardedObserve_eq (turn : signature.Turn catalog total stream window arena statuses)
    (ht : window.transfer (position stream) (position (stream ++ chunk)) = some transfer) :
    signature.guardedObserve (position stream - window.start) transfer.count =
      .ok (position stream - window.start + transfer.count) := by
  have hcovered := Window.transfer_bounds ht
  have hbounds := window?_bounds turn.located
  unfold guardedObserve
  rw [sum_of_le (by omega), ok_bind, if_pos (by omega)]
  rfl

end Signature.Turn

/-! ## preparing a scan and taking a chunk -/

section

variable {catalog : Catalog} {total : Option Nat} {stream chunk : Bytes}

/-- The guards of a sweep hold, turn by turn. -/
theorem guardedSweep_eq (laidOut : catalog.LaidOut) (hc : chunk ≠ []) {waiting : List Signature}
    (hmem : ∀ signature ∈ waiting, signature ∈ catalog.signatures) (hnodup : waiting.Nodup)
    (hpending : ∀ signature ∈ waiting, signature.pendingAfter total stream = true)
    {arena : Array UInt8} {statuses : Array Status}
    (swept : catalog.Swept total stream chunk waiting arena statuses)
    (fits : arena.size ≤ maxPosition) :
    guardedSweep catalog chunk (position stream) (position (stream ++ chunk))
        (waiting.map (·.index)) arena statuses =
      .ok (sweep catalog chunk (position stream) (position (stream ++ chunk))
        (waiting.map (·.index)) arena statuses) := by
  -- the arena keeps its size from turn to turn, so that it fits in every one of them
  revert fits
  refine Catalog.Swept.turns laidOut hc ?_ ?_ ?_ hmem hnodup hpending swept
  · exact fun _ _ _ _ => rfl
  · intro signature rest arena statuses window turn ht ih fits
    have hget := laidOut.get?_index turn.mem
    simp only [List.map_cons, guardedSweep, sweep, item_of_getElem? hget,
      item_of_getElem? turn.status, Window.guardedTransfer_eq, ih fits, ht, hget, turn.status,
      ok_bind, pure_eq_ok]
  · intro signature rest arena statuses window transfer turn ht ih fits
    have hget := laidOut.get?_index turn.mem
    have hafter := Signature.statusAfter_of_transfer turn.located ht
    have hlength := Signature.window?_length turn.located
    have ih := ih (by rwa [size_write])
    simp only [List.map_cons, guardedSweep, sweep, item_of_getElem? hget,
      item_of_getElem? turn.status, Window.guardedTransfer_eq, turn.guardedReceive_eq ht fits,
      turn.guardedObserve_eq ht, replace_of_lt turn.index_lt, ht, hget, turn.status,
      turn.buffer_write ht, hlength, ok_bind, pure_eq_ok]
    rw [hlength] at hafter
    split
    · next hopen =>
      rw [hafter, if_pos hopen] at ih
      rw [ih, ok_bind]
    · next hcomplete =>
      rw [if_neg hcomplete] at hafter
      split
      · next hpattern =>
        rw [hafter, if_pos hpattern] at ih
        rw [ih, ok_bind]
      · next hpattern =>
        rw [hafter, if_neg hpattern] at ih
        exact ih

/-- The guards of locating signatures hold. -/
theorem guardedLocateAll_eq (laidOut : catalog.LaidOut) (total : Option Nat)
    {signatures : List Signature}
    (hmem : ∀ signature ∈ signatures, signature ∈ catalog.signatures) {statuses : Array Status}
    (hsize : statuses.size = catalog.size) :
    guardedLocateAll catalog total (signatures.map (·.index)) statuses =
      .ok (locateAll total signatures statuses) := by
  induction signatures generalizing statuses with
  | nil => rfl
  | cons signature rest ih =>
      obtain ⟨hsignature, hmem⟩ := List.forall_mem_cons.mp hmem
      have hindex : signature.index < statuses.size := by
        rw [hsize]
        exact laidOut.index_lt_size hsignature
      have hrest (status : Status) :
          guardedLocateAll catalog total (rest.map (·.index))
              (statuses.setIfInBounds signature.index status) =
            .ok (locateAll total rest (statuses.setIfInBounds signature.index status)) :=
        ih hmem (by rw [Array.size_setIfInBounds, hsize])
      simp only [List.map_cons, guardedLocateAll, locateAll,
        item_of_getElem? (laidOut.get?_index hsignature), Signature.guardedLocate_eq, ok_bind]
      cases signature.locate total with
      | error failure => rfl
      | ok location =>
          cases location with
          | window window => simp only [replace_of_lt hindex, ok_bind, hrest]
          | outOfRange =>
              simp only [replace_of_lt hindex, ok_bind, hrest]
              cases locateAll total rest (statuses.setIfInBounds signature.index .rejected) <;> rfl

/-- The guards of preparing a scan hold. -/
theorem Progress.guardedInitial_eq (laidOut : catalog.LaidOut) (total : Option Nat) :
    Progress.guardedInitial catalog total = .ok (Progress.initial catalog total) := by
  have hpositions (anchorClass : AnchorClass) :
      catalog.positions anchorClass = (catalog.ofClass anchorClass).map (·.index) := by
    rw [laidOut.ofClass_eq, laidOut.positions_eq]
  have hreplicate : (Array.replicate catalog.size Status.rejected).size = catalog.size :=
    Array.size_replicate
  have hlocate := guardedLocateAll_eq laidOut total
    (fun signature h => laidOut.mem_inClassOrder_iff.mp h) hreplicate
  rw [Catalog.inClassOrder] at hlocate
  simp only [Progress.guardedInitial, Progress.initial, hpositions, ← List.map_append, hlocate,
    ok_bind]
  split
  · rfl
  · cases locateAll total (catalog.ofClass .fromStart ++ catalog.ofClass .fromEnd)
      (Array.replicate catalog.size .rejected) <;> rfl

/-- The guards of taking a chunk hold. -/
theorem Progress.guardedTake_eq (laidOut : catalog.LaidOut)
    (fits : catalog.arenaLength ≤ maxPosition) (findings : List Finding) :
    (Progress.after catalog total stream findings).guardedTake catalog chunk =
      .ok ((Progress.after catalog total stream findings).take catalog chunk) := by
  by_cases hc : chunk = []
  · rw [hc]
    rfl
  · have hswept : catalog.Swept total stream chunk (catalog.waiting total stream) _ _ :=
      laidOut.swept_after findings
    have hwhole : guardArena catalog (Progress.after catalog total stream findings).arena = .ok () :=
      if_pos hswept.size_arena
    have hsweep := guardedSweep_eq laidOut hc
      (fun signature h => (Catalog.mem_waiting_iff.mp h).1) laidOut.nodup_waiting
      (fun signature h => (Catalog.mem_waiting_iff.mp h).2) hswept
      (by rw [hswept.size_arena]; exact fits)
    have hcursor : advance (Progress.after catalog total stream findings).cursor chunk.length =
        position (stream ++ chunk) := advance_position stream chunk
    rw [Progress.guardedTake_of_ne_nil hc, Progress.take_of_ne_nil hc]
    simp only [hcursor, hwhole, ok_bind]
    simp only [Progress.after] at hsweep ⊢
    rw [hsweep, ok_bind, difference_of_le (by simp), ok_bind]
    simp

-- without its buffers, as stopping leaves them, a scan does not go on
example : (Session.withTotal Catalog.sample (some 5)).start.state.progress.abandon.guardedTake
    Catalog.sample [0] = .error .released := rfl

end

/-! ## sessions -/

namespace Session

variable {session : Session} {fed : List Bytes}

/-- The guards of a start hold. -/
theorem guardedStart_eq (laidOut : session.catalog.LaidOut) :
    session.guardedStart = .ok session.start := by
  unfold guardedStart start
  rw [Progress.guardedInitial_eq laidOut, ok_bind]
  cases session.phase with
  | created => cases Progress.initial session.catalog session.total <;> rfl
  | started => rfl
  | stopped => rfl

/-- The guards of feeding a session under way hold. -/
theorem guardedFeed_underWay {catalog : Catalog} {total : Option Nat} (laidOut : catalog.LaidOut)
    (fits : catalog.arenaLength ≤ maxPosition) (chunk : Bytes) :
    (underWay catalog total fed).guardedFeed chunk = .ok ((underWay catalog total fed).feed chunk) := by
  simp only [guardedFeed, feed, underWay, Progress.guardedTake_eq laidOut fits, ok_bind, pure_eq_ok]

/-- Unless it is under way a session hands a chunk to nobody. -/
theorem guardedFeed_of_ne_started (h : session.phase ≠ .started) (chunk : Bytes) :
    session.guardedFeed chunk = .ok (Step.refused session.notUnderWay session) := by
  unfold guardedFeed
  split
  · next started => exact absurd started h
  · rfl

/-- The guards of every request hold in every session that calls lead to. -/
theorem guardedPerform_eq (known : session.Known fed)
    (fits : session.catalog.arenaLength ≤ maxPosition) (request : Request) :
    session.guardedPerform request = .ok (session.perform request) := by
  cases request with
  | declareTotal size => rfl
  | stop => rfl
  | start => exact guardedStart_eq known.laidOut
  | feed chunk =>
      cases known with
      | created laidOut total => rfl
      | underWay laidOut hasTotal => exact guardedFeed_underWay laidOut fits chunk
      | halted laidOut hasTotal => rfl

/-- Requests lead, with guards, to the session that they lead to without. -/
theorem guardedRun_eq_performAll (known : session.Known fed)
    (fits : session.catalog.arenaLength ≤ maxPosition) (requests : List Request) :
    session.guardedRun requests = .ok (session.performAll requests) := by
  induction requests generalizing session fed with
  | nil => rfl
  | cons request rest ih =>
      obtain ⟨after, hafter⟩ := known.perform request
      rw [guardedRun, guardedPerform_eq known fits, ok_bind, performAll_cons]
      exact ih hafter (by rwa [session.catalog_perform request])

/-- A session that is over has no buffers. -/
theorem arena_of_stopped (known : session.Known fed) (h : session.phase = .stopped) :
    session.progress.arena = #[] := by
  cases known with
  | created => cases h
  | underWay => cases h
  | halted => rfl

/-- **No guard is ever missed.**  Over a catalog whose patterns together are no
longer than positions reach, any requests, in any order and refused or not, lead
with guards to the session that they lead to without.  While a session is under
way its arena has all buffers.  Stopping releases them and leaves all statuses as
they are, those that are pending among them; but no chunk that comes later is
handed to anybody. -/
theorem guardedRun_eq {catalog : Catalog} (built : catalog.Built)
    (fits : catalog.arenaLength ≤ maxPosition) (total : Option Nat) (requests : List Request) :
    let session := (withTotal catalog total).performAll requests
    (withTotal catalog total).guardedRun requests = .ok session ∧
      (session.phase = .started →
        session.progress.arena.size = catalog.arenaLength ∧
          session.stop.state.progress.arena = #[] ∧
          session.stop.state.progress.statuses = session.progress.statuses) ∧
      (session.phase = .stopped →
        session.progress.arena = #[] ∧
          ∀ chunk, session.guardedFeed chunk = .ok (Step.refused .closed session)) := by
  intro session
  have known : (withTotal catalog total).Known [] := .created built.laidOut total
  obtain ⟨hcatalog, fed, hsession⟩ := known.performAll requests
  refine ⟨guardedRun_eq_performAll known fits requests, fun started => ?_, fun stopped => ?_⟩
  · obtain ⟨laidOut, hunderWay⟩ := hsession.of_started started
    have hsize := @size_arena_underWay _ session.total fed laidOut
    rw [← hunderWay, hcatalog] at hsize
    rw [stop, if_pos started]
    exact ⟨hsize, rfl, rfl⟩
  · have hrefused (chunk : Bytes) :
        session.guardedFeed chunk = .ok (Step.refused session.notUnderWay session) :=
      guardedFeed_of_ne_started (by rw [stopped]; decide) chunk
    rw [notUnderWay, stopped] at hrefused
    exact ⟨arena_of_stopped hsession stopped, hrefused⟩

/-- A window that is not complete when the session is stopped stays pending in the
statuses, while its buffer is gone. -/
theorem guardedRun_eq_sample :
    let requests : List Request := [.start, .feed [0, 1], .feed [2, 3], .stop, .feed [4]]
    let session := (withTotal Catalog.sample (some 5)).performAll requests
    Catalog.sample.Built ∧ Catalog.sample.arenaLength ≤ maxPosition ∧
      (withTotal Catalog.sample (some 5)).guardedRun requests = .ok session ∧
      session.phase = .stopped ∧ session.progress.arena = #[] ∧
      session.progress.statuses = #[.pending ⟨3, 5, by decide⟩ 1, .matched] ∧
      session.guardedFeed [5] = .ok (Step.refused .closed session) := by
  intro requests session
  have fits : Catalog.sample.arenaLength ≤ maxPosition := by decide
  have stopped : session.phase = .stopped := rfl
  obtain ⟨hrun, -, hstopped⟩ := guardedRun_eq Catalog.built_sample fits (some 5) requests
  obtain ⟨harena, hrefused⟩ := hstopped stopped
  exact ⟨Catalog.built_sample, fits, hrun, stopped, harena, by decide +kernel, hrefused [5]⟩

end Session

end AnchorScan
