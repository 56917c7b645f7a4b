import AnchorScan.Proofs.Sweep

/-!
# AnchorScan.Proofs.Progress

How far a scan has come, told from the stream that it took in: `Progress.after`
is computed from the stream and from the findings so far, not by scanning.

* `Catalog.LaidOut.arena_eq_after` and `Catalog.LaidOut.statuses_eq_after`: it is
  enough to know every signature's buffer and status;
* `Progress.take_after`: a chunk leads from the progress after a stream to that
  after the stream with the chunk.
-/

namespace AnchorScan

/-- The signatures that are still looked for after a stream. -/
def Catalog.waiting (catalog : Catalog) (total : Option Nat) (stream : Bytes) : List Signature :=
  catalog.signatures.toList.filter (·.pendingAfter total stream)

/-- How far a scan has come after a stream, with the findings that it has. -/
def Progress.after (catalog : Catalog) (total : Option Nat) (stream : Bytes)
    (findings : List Finding) : Progress where
  cursor := position stream
  arena := (catalog.signatures.toList.flatMap (·.bufferAfter total stream)).toArray
  statuses := catalog.signatures.map (·.statusAfter total stream)
  live := (catalog.waiting total stream).map (·.index)
  findings := findings.toArray

section

variable {catalog : Catalog} {total : Option Nat} {stream chunk : Bytes}

theorem Catalog.mem_waiting_iff {signature : Signature} :
    signature ∈ catalog.waiting total stream ↔
      signature ∈ catalog.signatures ∧ signature.pendingAfter total stream = true := by
  rw [Catalog.waiting, List.mem_filter, Array.mem_toList_iff]

theorem Catalog.LaidOut.nodup_waiting (laidOut : catalog.LaidOut) :
    (catalog.waiting total stream).Nodup := laidOut.nodup.filter _

/-! ## arenas and statuses by their signatures -/

/-- An arena is the one after a stream as soon as every buffer is. -/
theorem Catalog.LaidOut.arena_eq_after (laidOut : catalog.LaidOut) {arena : Array UInt8}
    (ha : arena.size = catalog.arenaLength)
    (h : ∀ signature ∈ catalog.signatures,
      signature.buffer arena = signature.bufferAfter total stream) :
    arena = (catalog.signatures.toList.flatMap (·.bufferAfter total stream)).toArray := by
  rw [laidOut.arena_eq ha]
  congr 1
  exact List.flatMap_congr fun signature hmem => h signature (Array.mem_toList_iff.mp hmem)

/-- Statuses are those after a stream as soon as every signature's is. -/
theorem Catalog.LaidOut.statuses_eq_after (laidOut : catalog.LaidOut) {statuses : Array Status}
    (hs : statuses.size = catalog.size)
    (h : ∀ signature ∈ catalog.signatures,
      statuses[signature.index]? = some (signature.statusAfter total stream)) :
    statuses = catalog.signatures.map (·.statusAfter total stream) := by
  apply Array.ext_getElem?
  intro i
  rw [Array.getElem?_map]
  cases hi : catalog.signatures[i]? with
  | none =>
      have hle : statuses.size ≤ i := by
        rw [hs]
        exact Array.getElem?_eq_none_iff.mp hi
      rw [Array.getElem?_eq_none hle, Option.map_none]
  | some signature =>
      rw [Option.map_some, ← h signature (Array.mem_of_getElem? hi), laidOut.index_eq hi]

/-- The progress after a stream keeps every signature as it is after the stream. -/
theorem Catalog.LaidOut.keeps_after (laidOut : catalog.LaidOut) (findings : List Finding) :
    ∀ signature ∈ catalog.signatures, signature.Keeps total stream
      (Progress.after catalog total stream findings).arena
      (Progress.after catalog total stream findings).statuses := by
  intro signature h
  refine ⟨?_, ?_⟩
  · have hget := laidOut.get?_index h
    rw [Catalog.get?] at hget
    simp only [Progress.after, Array.getElem?_map, hget, Option.map_some]
  · have hlaid : Laid 0 ([] : Bytes).length catalog.signatures.toList := laidOut.laid
    exact hlaid.buffer_flatMap (fun _ => Signature.length_bufferAfter stream) signature
      (Array.mem_toList_iff.mpr h)

/-- The progress after a stream, when a chunk is to be swept over the signatures
that are still pending. -/
theorem Catalog.LaidOut.swept_after (laidOut : catalog.LaidOut) (findings : List Finding) :
    catalog.Swept total stream chunk (catalog.waiting total stream)
      (Progress.after catalog total stream findings).arena
      (Progress.after catalog total stream findings).statuses where
  size_arena := by
    have hbuffer (signature : Signature) :
        (signature.bufferAfter total stream).length = signature.length :=
      Signature.length_bufferAfter stream
    rw [Progress.after, List.size_toArray, length_flatMap_octets hbuffer, laidOut.arenaLength_eq]
  size_statuses := by simp [Progress.after, Catalog.size]
  waits signature h _ := laidOut.keeps_after findings signature h
  swept signature h hsettled := by
    have hkeeps : signature.Keeps total stream _ _ := laidOut.keeps_after findings signature h
    have hfalse : signature.pendingAfter total stream = false := by
      simpa [Catalog.mem_waiting_iff, h] using hsettled
    refine ⟨?_, ?_⟩
    · rw [hkeeps.status, Signature.statusAfter_append hfalse]
    · rw [hkeeps.buffer, Signature.bufferAfter_append hfalse]

/-! ## taking a chunk -/

/-- The events of taking a chunk: what was found, and what is left. -/
def Catalog.takeLog (catalog : Catalog) (total : Option Nat) (stream chunk : Bytes) : List Event :=
  if chunk = [] then []
  else
    let found := catalog.completions total (stream ++ chunk) (position stream)
      (position (stream ++ chunk))
    found.map (fun finding => .matched finding.identifier finding.offset) ++
      [.fed (position stream) (position (stream ++ chunk))
        (catalog.waiting total (stream ++ chunk)).length found.length]

theorem Progress.take_of_ne_nil (hc : chunk ≠ []) (progress : Progress) :
    progress.take catalog chunk =
      let stop := advance progress.cursor chunk.length
      let result := sweep catalog chunk progress.cursor stop progress.live progress.arena
        progress.statuses
      (⟨stop, result.arena, result.statuses, result.live, progress.findings ++ result.found⟩,
        result.found.map (fun finding => .matched finding.identifier finding.offset) ++
          [.fed progress.cursor stop result.live.length result.found.length]) := by
  cases chunk with
  | nil => contradiction
  | cons octet rest => rfl

/-- Those who wait for a longer stream are among those who wait for a shorter one. -/
theorem Catalog.filter_waiting :
    (catalog.waiting total stream).filter (·.pendingAfter total (stream ++ chunk)) =
      catalog.waiting total (stream ++ chunk) := by
  unfold Catalog.waiting
  rw [List.filter_filter]
  refine List.filter_congr fun signature _ => ?_
  cases h : signature.pendingAfter total (stream ++ chunk) with
  | false => rfl
  | true => simp [Signature.pendingAfter_of_append h]

/-- Nobody is found who does not wait. -/
theorem Catalog.filterMap_waiting (stop : Nat) :
    (catalog.waiting total stream).filterMap
        (·.completion total (stream ++ chunk) (position stream) stop) =
      catalog.completions total (stream ++ chunk) (position stream) stop := by
  unfold Catalog.waiting Catalog.completions
  rw [List.filterMap_filter]
  refine List.filterMap_congr fun signature _ => ?_
  cases h : signature.pendingAfter total stream with
  | true => rfl
  | false => rw [Signature.completion_of_settled h]; rfl

/-- **A chunk leads from the progress after a stream to that after the stream
with the chunk**, and adds the findings whose windows it completes. -/
theorem Progress.take_after (laidOut : catalog.LaidOut) (findings : List Finding) :
    (Progress.after catalog total stream findings).take catalog chunk =
      (Progress.after catalog total (stream ++ chunk) (findings ++
        catalog.completions total (stream ++ chunk) (position stream) (position (stream ++ chunk))),
        catalog.takeLog total stream chunk) := by
  by_cases hc : chunk = []
  · simp [hc, Progress.take, Catalog.takeLog, Catalog.completions_self]
  · have hswept : catalog.Swept total stream chunk (catalog.waiting total stream) _ _ :=
      laidOut.swept_after findings
    obtain ⟨⟨harena, hstatuses, -, hkeeps⟩, hlive, hfound⟩ := sweep_follows laidOut hc
      (fun signature h => (Catalog.mem_waiting_iff.mp h).1) laidOut.nodup_waiting
      (fun signature h => (Catalog.mem_waiting_iff.mp h).2) hswept
    rw [Catalog.filter_waiting] at hlive
    rw [Catalog.filterMap_waiting] at hfound
    have harena := laidOut.arena_eq_after harena fun signature h =>
      (hkeeps signature h List.not_mem_nil).buffer
    have hstatuses := laidOut.statuses_eq_after hstatuses fun signature h =>
      (hkeeps signature h List.not_mem_nil).status
    rw [Progress.take_of_ne_nil hc, Progress.after]
    simp only [advance_position]
    simp only [Progress.after] at harena hstatuses hlive hfound
    rw [harena, hstatuses, hlive, hfound]
    simp [Progress.after, Catalog.takeLog, hc]

end

end AnchorScan
