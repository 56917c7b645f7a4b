import AnchorScan.Proofs.Chunking
import AnchorScan.Proofs.Refusals

/-!
# AnchorScan.Proofs.Representation

The state of a session under way, told from the stream that it took in.
`Session.Represents` says what every part of the state stands for: who is live
and why, how much of each window was observed and where it lies in the arena,
who was matched, who was rejected, and how many findings there are.

* `Signature.statusAfter_eq_pending_iff`, `Signature.statusAfter_eq_matched_iff`
  and `Signature.statusAfter_eq_rejected_iff`: when a signature has which status;
* `Catalog.length_completionsBy`: there is one finding for each match;
* `Session.represents_stream`: every session under way represents its stream, and
  nothing but starting, feeding and stopping changes the state.
-/

namespace AnchorScan

/-! ## statuses and buffers -/

namespace Signature

variable {signature : Signature} {total : Option Nat} {window : Window} {stream : Bytes}

/-- A signature is pending until the stream reaches the end of its window. -/
theorem statusAfter_eq_pending_iff {observed : Nat} :
    signature.statusAfter total stream = .pending window observed ↔
      signature.window? total = some window ∧ position stream < window.stop ∧
        observed = position stream - window.start := by
  constructor
  · intro h
    obtain ⟨found, hw, hp⟩ := pendingAfter_iff.mp (by rw [pendingAfter, h]; rfl)
    rw [statusAfter_of_pending hw hp] at h
    cases h
    exact ⟨hw, hp, rfl⟩
  · rintro ⟨hw, hp, rfl⟩
    exact statusAfter_of_pending hw hp

/-- A signature is matched once its window is complete and holds the pattern. -/
theorem statusAfter_eq_matched_iff :
    signature.statusAfter total stream = .matched ↔
      ∃ window, signature.window? total = some window ∧ window.stop ≤ position stream ∧
        window.octets stream = signature.pattern := by
  cases hw : signature.window? total with
  | none => simp [statusAfter, hw]
  | some window =>
      by_cases hp : position stream < window.stop
      · have hopen := Nat.not_le_of_lt hp
        simp [statusAfter_of_pending hw hp, hopen]
      · have hstop := Nat.le_of_not_lt hp
        simp [statusAfter_of_complete hw hstop, hstop]

/-- A signature is rejected if it has no window, or its window is complete and
holds something else. -/
theorem statusAfter_eq_rejected_iff :
    signature.statusAfter total stream = .rejected ↔
      ∀ window, signature.window? total = some window →
        window.stop ≤ position stream ∧ window.octets stream ≠ signature.pattern := by
  cases hw : signature.window? total with
  | none => simp [statusAfter, hw]
  | some window =>
      by_cases hp : position stream < window.stop
      · have hopen := Nat.not_le_of_lt hp
        simp [statusAfter_of_pending hw hp, hopen]
      · have hstop := Nat.le_of_not_lt hp
        simp [statusAfter_of_complete hw hstop, hstop]

/-- While a window is not complete, its buffer holds what was observed and then
zeros. -/
theorem bufferAfter_of_pending (hw : signature.window? total = some window)
    (hp : position stream < window.stop) :
    signature.bufferAfter total stream =
      (stream.drop window.start).take (position stream - window.start) ++
        List.replicate (signature.length - (position stream - window.start)) 0 := by
  have hbounds := window?_bounds hw
  have hlen : position stream = stream.length := position_eq_length hw hp
  have hrest : (stream.drop window.start).length = stream.length - window.start :=
    List.length_drop
  have hoctets : window.octets stream = stream.drop window.start := by
    unfold Window.octets Window.length
    exact List.take_of_length_le (by omega)
  rw [List.take_of_length_le (by omega)]
  simp only [bufferAfter, hw, hoctets, List.rightpad, hrest, hlen]

/-- A signature is found between nothing and a stream if it is matched there. -/
theorem isSome_completion :
    (signature.completion total stream 0 (position stream)).isSome =
      decide (signature.statusAfter total stream = .matched) := by
  cases hw : signature.window? total with
  | none => simp [completion_of_none hw, statusAfter, hw]
  | some window =>
      have hbounds := window?_bounds hw
      have hpos := signature.length_pos
      have hstop : 0 < window.stop := by omega
      rw [completion_of_window hw, Bool.eq_iff_iff, decide_eq_true_iff,
        statusAfter_eq_matched_iff]
      by_cases hcomplete : window.stop ≤ position stream <;>
        by_cases hpattern : window.octets stream = signature.pattern <;>
          simp [hw, hstop, hcomplete, hpattern]

end Signature

/-! ## the progress after a stream -/

section

variable {catalog : Catalog} {total : Option Nat} {stream : Bytes} {findings : List Finding}

theorem Progress.getElem?_statuses_after (index : Nat) :
    (Progress.after catalog total stream findings).statuses[index]? =
      (catalog.get? index).map (·.statusAfter total stream) := by
  simp [Progress.after, Catalog.get?]

theorem Progress.getElem?_statuses_after_eq_some_iff {index : Nat} {status : Status} :
    (Progress.after catalog total stream findings).statuses[index]? = some status ↔
      ∃ signature, catalog.get? index = some signature ∧
        signature.statusAfter total stream = status := by
  rw [getElem?_statuses_after, Option.map_eq_some_iff]

/-- The live positions are those of the signatures that are pending. -/
theorem Catalog.LaidOut.mem_live_after_iff (laidOut : catalog.LaidOut) {index : Nat} :
    index ∈ (Progress.after catalog total stream findings).live ↔
      ∃ signature, catalog.get? index = some signature ∧
        signature.pendingAfter total stream = true := by
  simp only [Progress.after, List.mem_map, mem_waiting_iff]
  constructor
  · rintro ⟨signature, ⟨hmem, hpending⟩, rfl⟩
    exact ⟨signature, laidOut.get?_index hmem, hpending⟩
  · rintro ⟨signature, hget, hpending⟩
    exact ⟨signature, ⟨Array.mem_of_getElem? hget, hpending⟩, laidOut.index_eq hget⟩

/-- The live positions grow. -/
theorem Catalog.LaidOut.pairwise_live_after (laidOut : catalog.LaidOut) :
    (Progress.after catalog total stream findings).live.Pairwise (· < ·) :=
  List.pairwise_map.mpr ((laidOut.laid.pairwise.imp And.left).filter _)

/-- Chunk by chunk there is one finding for each signature that is matched. -/
theorem Catalog.length_completionsBy (catalog : Catalog) (total : Option Nat)
    (chunks : List Bytes) :
    (catalog.completionsBy total chunks).length =
      (catalog.signatures.map (·.statusAfter total chunks.flatten)).count .matched := by
  rw [(catalog.completionsBy_perm total chunks).length_eq, findingsIn, completions,
    List.length_filterMap_eq_countP, Array.count, Array.countP_map, ← Array.countP_toList]
  refine List.countP_congr fun signature _ => ?_
  rw [Signature.isSome_completion]
  simp

end

/-! ## sessions under way -/

namespace Session

/-- A signature waits at a position: of its window so many octets were observed,
and its buffer holds these and then zeros. -/
structure Awaits (session : Session) (stream : Bytes) (index : Nat) (window : Window)
    (observed : Nat) (signature : Signature) : Prop where
  stands : session.catalog.get? index = some signature
  located : signature.locate session.total = .ok (.window window)
  observed_eq : observed = session.cursor - window.start
  observed_lt : observed < signature.length
  buffer_eq : signature.buffer session.progress.arena =
    (stream.drop window.start).take observed ++ List.replicate (signature.length - observed) 0

/-- What the parts of a session's state stand for after a stream. -/
structure Represents (session : Session) (stream : Bytes) : Prop where
  cursor_eq : session.cursor = min stream.length maxPosition
  size_arena : session.progress.arena.size = session.catalog.arenaLength
  size_statuses : session.progress.statuses.size = session.catalog.size
  live_increasing : session.progress.live.Pairwise (· < ·)
  mem_live_iff_pending : ∀ index, index ∈ session.progress.live ↔
    ∃ window observed, session.progress.statuses[index]? = some (.pending window observed)
  mem_live_iff_incomplete : ∀ index, index ∈ session.progress.live ↔
    ∃ signature window, session.catalog.get? index = some signature ∧
      signature.locate session.total = .ok (.window window) ∧ session.cursor < window.stop
  pending : ∀ index window observed,
    session.progress.statuses[index]? = some (.pending window observed) →
      ∃ signature, session.Awaits stream index window observed signature
  matched_iff : ∀ index, session.progress.statuses[index]? = some .matched ↔
    ∃ signature window, session.catalog.get? index = some signature ∧
      signature.locate session.total = .ok (.window window) ∧ window.stop ≤ session.cursor ∧
      window.octets stream = signature.pattern
  rejected_iff : ∀ index, session.progress.statuses[index]? = some .rejected ↔
    ∃ signature, session.catalog.get? index = some signature ∧
      ∀ window, signature.locate session.total = .ok (.window window) →
        window.stop ≤ session.cursor ∧ window.octets stream ≠ signature.pattern
  length_findings : session.findings.length = session.progress.statuses.count .matched

variable {catalog : Catalog} {total : Option Nat} {chunks : List Bytes}

theorem awaits_underWay (laidOut : catalog.LaidOut) {index : Nat} {window : Window}
    {signature : Signature} (hget : catalog.get? index = some signature)
    (hw : signature.window? total = some window)
    (hp : position chunks.flatten < window.stop) :
    (underWay catalog total chunks).Awaits chunks.flatten index window
      (position chunks.flatten - window.start) signature where
  stands := hget
  located := Signature.window?_eq_some_iff.mp hw
  observed_eq := rfl
  observed_lt := by
    have hbounds := Signature.window?_bounds hw
    have hpos := signature.length_pos
    omega
  buffer_eq := by
    rw [← Signature.bufferAfter_of_pending hw hp]
    exact (laidOut.keeps_after _ signature (Array.mem_of_getElem? hget)).buffer

/-- The arena has all buffers. -/
theorem size_arena_underWay (laidOut : catalog.LaidOut) :
    (underWay catalog total chunks).progress.arena.size = catalog.arenaLength :=
  (show catalog.Swept total chunks.flatten [] _ _ _ from laidOut.swept_after _).size_arena

theorem represents_underWay (laidOut : catalog.LaidOut) :
    (underWay catalog total chunks).Represents chunks.flatten where
  cursor_eq := rfl
  size_arena := size_arena_underWay laidOut
  size_statuses := by simp [underWay, Progress.after, Catalog.size]
  live_increasing := laidOut.pairwise_live_after
  mem_live_iff_pending index := by
    simp only [underWay, laidOut.mem_live_after_iff, Progress.getElem?_statuses_after_eq_some_iff,
      Signature.pendingAfter_iff, Signature.statusAfter_eq_pending_iff]
    constructor
    · rintro ⟨signature, hget, window, hw, hp⟩
      exact ⟨window, _, signature, hget, hw, hp, rfl⟩
    · rintro ⟨window, _, signature, hget, hw, hp, -⟩
      exact ⟨signature, hget, window, hw, hp⟩
  mem_live_iff_incomplete index := by
    simp only [underWay, laidOut.mem_live_after_iff, Signature.pendingAfter_iff,
      Signature.window?_eq_some_iff]
    constructor
    · rintro ⟨signature, hget, window, hw, hp⟩
      exact ⟨signature, window, hget, hw, hp⟩
    · rintro ⟨signature, window, hget, hw, hp⟩
      exact ⟨signature, hget, window, hw, hp⟩
  pending index window observed h := by
    obtain ⟨signature, hget, hstatus⟩ := Progress.getElem?_statuses_after_eq_some_iff.mp h
    obtain ⟨hw, hp, rfl⟩ := Signature.statusAfter_eq_pending_iff.mp hstatus
    exact ⟨signature, awaits_underWay laidOut hget hw hp⟩
  matched_iff index := by
    refine Progress.getElem?_statuses_after_eq_some_iff.trans ?_
    simp only [Signature.statusAfter_eq_matched_iff, Signature.window?_eq_some_iff]
    constructor
    · rintro ⟨signature, hget, window, hw, hrest⟩
      exact ⟨signature, window, hget, hw, hrest⟩
    · rintro ⟨signature, window, hget, hw, hrest⟩
      exact ⟨signature, hget, window, hw, hrest⟩
  rejected_iff index := by
    refine Progress.getElem?_statuses_after_eq_some_iff.trans ?_
    simp only [Signature.statusAfter_eq_rejected_iff, Signature.window?_eq_some_iff]
    rfl
  length_findings := catalog.length_completionsBy total chunks

variable {session : Session} {fed : List Bytes}

/-- Declaring a size leaves the progress of a session alone. -/
theorem progress_declareTotal (session : Session) (size : Nat) :
    (session.declareTotal size).state.progress = session.progress := by
  unfold declareTotal
  split <;> rfl

/-- **A session under way represents the stream that it took in.**  Its cursor, its
live positions, statuses, buffers and findings are those that the stream
determines; stopping it leaves nobody live and keeps cursor and findings.  In any
phase nothing but starting, feeding and stopping changes this state. -/
theorem represents_stream (reached : session.Reached fed) :
    (session.phase = .started →
      session.Represents fed.flatten ∧ session.stop.reply = .ok () ∧
        session.stop.state.pending = 0 ∧ session.stop.state.cursor = session.cursor ∧
        session.stop.state.findings = session.findings) ∧
      ∀ request : Request, (session.perform request).state.progress ≠ session.progress →
        request = .start ∨ (∃ chunk, request = .feed chunk) ∨ request = .stop := by
  constructor
  · intro started
    obtain ⟨laidOut, hsession⟩ := reached.known.of_started started
    rw [hsession]
    exact ⟨represents_underWay laidOut, rfl, rfl, rfl, rfl⟩
  · intro request hchanged
    cases request with
    | declareTotal size => exact absurd (session.progress_declareTotal size) hchanged
    | start => exact .inl rfl
    | feed chunk => exact .inr (.inl ⟨chunk, rfl⟩)
    | stop => exact .inr (.inr rfl)

theorem represents_stream_sample :
    let session := (((withTotal Catalog.sample (some 5)).start.state.feed [0, 1]).state.feed [2, 3]).state
    session.Reached [[0, 1], [2, 3]] ∧ session.phase = .started ∧
      session.Represents [0, 1, 2, 3] ∧
      session.progress.statuses = #[.pending ⟨3, 5, by decide⟩ 1, .matched] ∧
      session.progress.arena = #[3, 0, 1, 2] ∧ session.pending = 1 ∧ session.stop.state.pending = 0 ∧
      session.stop.state.findings = [⟨"head", 1⟩] ∧
      ((session.perform .stop).state.progress ≠ session.progress ∧
        (Request.stop = .start ∨ (∃ chunk, Request.stop = .feed chunk) ∨ Request.stop = .stop)) := by
  intro session
  have reached : session.Reached [[0, 1], [2, 3]] :=
    .feed (.feed (.start (.opened Catalog.built_sample (some 5))) [0, 1] rfl) [2, 3] rfl
  have started : session.phase = .started := rfl
  obtain ⟨hstarted, hchanges⟩ := represents_stream reached
  obtain ⟨hrepresents, -, hpending, -, hfindings⟩ := hstarted started
  have hchanged : (session.perform .stop).state.progress ≠ session.progress := by decide +kernel
  exact ⟨reached, started, hrepresents, by decide +kernel, by decide +kernel, by decide +kernel,
    hpending, hfindings.trans (by decide +kernel), hchanged, hchanges .stop hchanged⟩

end Session

end AnchorScan
