import AnchorScan.Proofs.Buffers
import AnchorScan.Proofs.Expectation

/-!
# AnchorScan.Proofs.Sweep

One chunk handed to the live signatures.  What a chunk does to one signature
takes its status and its buffer from those after the stream before to those
after the stream with the chunk (`Signature.settled_of_transfer_none`,
`Signature.statusAfter_of_transfer`, `Signature.buffer_write_transfer`); the
others keep theirs.  `Catalog.Swept.turns` is the induction over the signatures
that have their turn, with that as its invariant; so the sweep ends with all of
them where the stream with the chunk takes them (`sweep_follows`).
-/

namespace AnchorScan

/-! ## what a window takes from a chunk -/

theorem Window.transfer_eq_none_iff {window : Window} {start stop : Nat} :
    window.transfer start stop = none ↔ min window.stop stop ≤ max window.start start := by
  rw [transfer, Option.map_eq_none_iff, intersect_eq_none_iff]

/-- A transfer covers the part of the window that lies in the chunk. -/
theorem Window.transfer_bounds {window : Window} {start stop : Nat} {transfer : Transfer}
    (h : window.transfer start stop = some transfer) :
    max window.start start < min window.stop stop ∧
      start + transfer.source = max window.start start ∧
      window.start + transfer.target = max window.start start ∧
      max window.start start + transfer.count = min window.stop stop := by
  obtain ⟨part, hpart, rfl⟩ := Option.map_eq_some_iff.mp h
  obtain ⟨hlt, hstart, hstop⟩ := intersect_eq_some_iff.mp hpart
  simp only [Window.length]
  omega

theorem Transfer.length_octets {transfer : Transfer} {chunk : Bytes}
    (h : transfer.source + transfer.count ≤ chunk.length) :
    (transfer.octets chunk).length = transfer.count := by
  rw [Transfer.octets, List.length_take, List.length_drop]
  omega

namespace Signature

variable {signature : Signature} {total : Option Nat} {window : Window} {stream chunk : Bytes}
  {transfer : Transfer}

/-- A pending window that takes nothing from a chunk begins behind it. -/
theorem settled_of_transfer_none (hw : signature.window? total = some window)
    (hp : position stream < window.stop) (hc : chunk ≠ [])
    (ht : window.transfer (position stream) (position (stream ++ chunk)) = none) :
    signature.statusAfter total (stream ++ chunk) = signature.statusAfter total stream ∧
      signature.bufferAfter total (stream ++ chunk) = signature.bufferAfter total stream := by
  have hbounds := window?_bounds hw
  have hpos := signature.length_pos
  have hchunk := List.length_pos_iff.mpr hc
  have hlen : position stream = stream.length := position_eq_length hw hp
  rw [Window.transfer_eq_none_iff] at ht
  have happ : (stream ++ chunk).length = stream.length + chunk.length := List.length_append
  have hbehind : (stream ++ chunk).length ≤ window.start := by
    unfold position at ht hp
    omega
  have hposition := Nat.le_trans (position_le_length (stream ++ chunk)) hbehind
  constructor
  · rw [statusAfter_of_pending hw hp, statusAfter_of_pending hw (by omega)]
    congr 1
    omega
  · simp only [bufferAfter, hw, Window.octets]
    rw [List.drop_eq_nil_of_le hbehind, List.drop_eq_nil_of_le (by omega)]

/-- The octets that a transfer moves are there in the chunk, and there is room
for them in the buffer. -/
theorem transfer_fits (hw : signature.window? total = some window)
    (hp : position stream < window.stop)
    (ht : window.transfer (position stream) (position (stream ++ chunk)) = some transfer) :
    transfer.source + transfer.count ≤ chunk.length ∧
      transfer.target + transfer.count ≤ signature.length := by
  have hbounds := window?_bounds hw
  have hlen : position stream = stream.length := position_eq_length hw hp
  have happ : (stream ++ chunk).length = stream.length + chunk.length := List.length_append
  have hcovered := Window.transfer_bounds ht
  have hposition := position_le_length (stream ++ chunk)
  omega

/-- A transfer adds its octets to those that were observed. -/
theorem statusAfter_of_transfer (hw : signature.window? total = some window)
    (ht : window.transfer (position stream) (position (stream ++ chunk)) = some transfer) :
    signature.statusAfter total (stream ++ chunk) =
      if position stream - window.start + transfer.count < window.length then
        .pending window (position stream - window.start + transfer.count)
      else if signature.bufferAfter total (stream ++ chunk) = signature.pattern then .matched
      else .rejected := by
  have hcovered := Window.transfer_bounds ht
  have hbounds := window?_bounds hw
  by_cases hopen : position (stream ++ chunk) < window.stop
  · have hcount : position stream - window.start + transfer.count =
        position (stream ++ chunk) - window.start := by omega
    rw [statusAfter_of_pending hw hopen, hcount, if_pos]
    unfold Window.length
    omega
  · have hstop : window.stop ≤ position (stream ++ chunk) := Nat.le_of_not_lt hopen
    have hlen := Nat.le_trans hstop (position_le_length _)
    rw [statusAfter_of_complete hw hstop, bufferAfter_of_complete hw hlen]
    refine (if_neg ?_).symm
    unfold Window.length
    omega

/-- A transfer that completes the window decides whether the signature is found. -/
theorem completion_of_transfer (hw : signature.window? total = some window)
    (hp : position stream < window.stop)
    (ht : window.transfer (position stream) (position (stream ++ chunk)) = some transfer)
    (hcomplete : ¬ position stream - window.start + transfer.count < window.length) :
    signature.completion total (stream ++ chunk) (position stream) (position (stream ++ chunk)) =
      if signature.bufferAfter total (stream ++ chunk) = signature.pattern then
        some ⟨signature.identifier, window.start⟩
      else none := by
  have hcovered := Window.transfer_bounds ht
  have hstop : window.stop ≤ position (stream ++ chunk) := by
    unfold Window.length at hcomplete
    omega
  rw [completion_of_window hw, bufferAfter_of_complete hw
    (Nat.le_trans hstop (position_le_length _))]
  simp only [hp, hstop, true_and]

/-- A transfer written into the buffer brings it up to date. -/
theorem buffer_write_transfer (hw : signature.window? total = some window)
    (hp : position stream < window.stop)
    (ht : window.transfer (position stream) (position (stream ++ chunk)) = some transfer)
    {arena : Array UInt8} (ha : signature.arenaStop ≤ arena.size)
    (hb : signature.buffer arena = signature.bufferAfter total stream) :
    signature.buffer (write arena (signature.arenaStart + transfer.target) (transfer.octets chunk)) =
      signature.bufferAfter total (stream ++ chunk) := by
  have hbounds := window?_bounds hw
  have hlen : position stream = stream.length := position_eq_length hw hp
  have happ : (stream ++ chunk).length = stream.length + chunk.length := List.length_append
  have hcovered := Window.transfer_bounds ht
  obtain ⟨hchunk, hroom⟩ := transfer_fits hw hp ht
  have hcount := Transfer.length_octets hchunk
  apply List.ext_getElem?
  intro i
  rw [getElem?_buffer_write ha (by omega), hb, getElem?_bufferAfter hw, getElem?_bufferAfter hw, hcount]
  by_cases hi : i < signature.length
  · rw [if_pos hi, if_pos hi]
    by_cases hin : transfer.target ≤ i ∧ i < transfer.target + transfer.count
    · -- the place is one that the transfer fills
      have hplace : transfer.source + (i - transfer.target) = window.start + i - stream.length := by
        omega
      have hlt : window.start + i - stream.length < chunk.length := by omega
      rw [if_pos hin, Transfer.octets, List.getElem?_take_of_lt (by omega), List.getElem?_drop, hplace,
        List.getElem?_append_right (by omega), List.getElem?_eq_getElem hlt, Option.getD_some]
    · rw [if_neg hin]
      by_cases hbefore : window.start + i < stream.length
      · rw [List.getElem?_append_left hbefore]
      · -- the place lies behind the chunk
        have hbehind : (stream ++ chunk).length ≤ window.start + i := by
          unfold position at hcovered hp
          omega
        rw [List.getElem?_eq_none (by omega), List.getElem?_eq_none hbehind]
  · rw [if_neg hi, if_neg hi, if_neg (by omega)]

end Signature

/-! ## the sweep -/

/-- The status and the buffer of a signature are those after a stream. -/
structure Signature.Keeps (signature : Signature) (total : Option Nat) (stream : Bytes)
    (arena : Array UInt8) (statuses : Array Status) : Prop where
  status : statuses[signature.index]? = some (signature.statusAfter total stream)
  buffer : signature.buffer arena = signature.bufferAfter total stream

/-- An arena and statuses in the middle of a sweep: those of the signatures
that wait for the chunk are as the stream left them, the others have it. -/
structure Catalog.Swept (catalog : Catalog) (total : Option Nat) (stream chunk : Bytes)
    (waiting : List Signature) (arena : Array UInt8) (statuses : Array Status) : Prop where
  size_arena : arena.size = catalog.arenaLength
  size_statuses : statuses.size = catalog.size
  waits : ∀ signature ∈ catalog.signatures, signature ∈ waiting →
    signature.Keeps total stream arena statuses
  swept : ∀ signature ∈ catalog.signatures, signature ∉ waiting →
    signature.Keeps total (stream ++ chunk) arena statuses

namespace Catalog.Swept

variable {catalog : Catalog} {total : Option Nat} {stream chunk : Bytes} {signature : Signature}
  {waiting : List Signature} {arena : Array UInt8} {statuses : Array Status}

/-- A signature for which the chunk changes nothing need not wait for it. -/
theorem pass (swept : catalog.Swept total stream chunk (signature :: waiting) arena statuses)
    (hsame : signature.statusAfter total (stream ++ chunk) = signature.statusAfter total stream ∧
      signature.bufferAfter total (stream ++ chunk) = signature.bufferAfter total stream) :
    catalog.Swept total stream chunk waiting arena statuses where
  size_arena := swept.size_arena
  size_statuses := swept.size_statuses
  waits other hmem hwaits := swept.waits other hmem (List.mem_cons_of_mem _ hwaits)
  swept other hmem hwaits := by
    by_cases heq : other = signature
    · subst heq
      have hkeeps := swept.waits other hmem List.mem_cons_self
      exact ⟨hkeeps.status.trans (by rw [hsame.1]), hkeeps.buffer.trans hsame.2.symm⟩
    · exact swept.swept other hmem (by simp [heq, hwaits])

/-- A signature whose buffer and status were brought up to date has the chunk. -/
theorem update (swept : catalog.Swept total stream chunk (signature :: waiting) arena statuses)
    (laidOut : catalog.LaidOut) (hmem : signature ∈ catalog.signatures) (hnew : signature ∉ waiting)
    {target : Nat} {octets : Bytes} (hroom : target + octets.length ≤ signature.length)
    (hbuffer : signature.buffer (write arena (signature.arenaStart + target) octets) =
      signature.bufferAfter total (stream ++ chunk)) :
    catalog.Swept total stream chunk waiting (write arena (signature.arenaStart + target) octets)
      (statuses.setIfInBounds signature.index (signature.statusAfter total (stream ++ chunk))) := by
  have hkeep {other : Signature} {taken : Bytes} (hother : other ∈ catalog.signatures)
      (hne : other ≠ signature) (hkeeps : other.Keeps total taken arena statuses) :
      other.Keeps total taken (write arena (signature.arenaStart + target) octets)
        (statuses.setIfInBounds signature.index (signature.statusAfter total (stream ++ chunk))) := by
    refine ⟨?_, ?_⟩
    · have hindex : signature.index ≠ other.index := fun h =>
        hne (laidOut.eq_of_index_eq hmem hother h).symm
      rw [Array.getElem?_setIfInBounds_ne hindex, hkeeps.status]
    · rw [laidOut.buffer_write_of_ne hmem hother hne swept.size_arena hroom, hkeeps.buffer]
  refine ⟨?_, ?_, fun other hother hwaits => ?_, fun other hother hwaits => ?_⟩
  · rw [size_write, swept.size_arena]
  · rw [Array.size_setIfInBounds, swept.size_statuses]
  · have hne : other ≠ signature := fun h => hnew (h ▸ hwaits)
    exact hkeep hother hne (swept.waits other hother (List.mem_cons_of_mem _ hwaits))
  · by_cases heq : other = signature
    · subst heq
      refine ⟨Array.getElem?_setIfInBounds_self_of_lt ?_, hbuffer⟩
      rw [swept.size_statuses]
      exact laidOut.index_lt_size hmem
    · exact hkeep hother heq (swept.swept other hother (by simp [heq, hwaits]))

end Catalog.Swept

/-- A sweep over waiting signatures that left all of them where the stream with
the chunk takes them. -/
structure Sweep.Follows (result : Sweep) (catalog : Catalog) (total : Option Nat)
    (stream chunk : Bytes) (waiting : List Signature) : Prop where
  swept : catalog.Swept total stream chunk [] result.arena result.statuses
  live_eq : result.live = (waiting.filter (·.pendingAfter total (stream ++ chunk))).map (·.index)
  found_eq : result.found = waiting.filterMap
    (·.completion total (stream ++ chunk) (position stream) (position (stream ++ chunk)))

namespace Sweep.Follows

variable {result : Sweep} {catalog : Catalog} {total : Option Nat} {stream chunk : Bytes}
  {waiting : List Signature} {signature : Signature}

theorem keep (follows : result.Follows catalog total stream chunk waiting)
    (h : signature.pendingAfter total (stream ++ chunk) = true) :
    (result.keep signature.index).Follows catalog total stream chunk (signature :: waiting) where
  swept := follows.swept
  live_eq := by simp [Sweep.keep, h, follows.live_eq]
  found_eq := by simp [Sweep.keep, Signature.completion_of_pending h, follows.found_eq]

theorem settle (follows : result.Follows catalog total stream chunk waiting)
    (h : signature.pendingAfter total (stream ++ chunk) = false)
    (hc : signature.completion total (stream ++ chunk) (position stream)
      (position (stream ++ chunk)) = none) :
    result.Follows catalog total stream chunk (signature :: waiting) where
  swept := follows.swept
  live_eq := by simp [h, follows.live_eq]
  found_eq := by simp [hc, follows.found_eq]

theorem find (follows : result.Follows catalog total stream chunk waiting) {finding : Finding}
    (h : signature.pendingAfter total (stream ++ chunk) = false)
    (hc : signature.completion total (stream ++ chunk) (position stream)
      (position (stream ++ chunk)) = some finding) :
    (result.find finding).Follows catalog total stream chunk (signature :: waiting) where
  swept := follows.swept
  live_eq := by simp [Sweep.find, h, follows.live_eq]
  found_eq := by simp [Sweep.find, hc, follows.found_eq]

end Sweep.Follows

/-- A signature has its turn in a sweep: its window is not complete, and its
status and its buffer are those after the stream. -/
structure Signature.Turn (signature : Signature) (catalog : Catalog) (total : Option Nat)
    (stream : Bytes) (window : Window) (arena : Array UInt8) (statuses : Array Status) : Prop where
  mem : signature ∈ catalog.signatures
  located : signature.window? total = some window
  incomplete : position stream < window.stop
  keeps : signature.Keeps total stream arena statuses
  arenaStop_le : signature.arenaStop ≤ arena.size
  index_lt : signature.index < statuses.size

namespace Signature.Turn

variable {signature : Signature} {catalog : Catalog} {total : Option Nat} {stream chunk : Bytes}
  {window : Window} {arena : Array UInt8} {statuses : Array Status} {transfer : Transfer}

/-- So far the octets of its window were observed that the stream has. -/
theorem status (turn : signature.Turn catalog total stream window arena statuses) :
    statuses[signature.index]? = some (.pending window (position stream - window.start)) := by
  rw [turn.keeps.status, statusAfter_of_pending turn.located turn.incomplete]

/-- A transfer brings the buffer up to date. -/
theorem buffer_write (turn : signature.Turn catalog total stream window arena statuses)
    (ht : window.transfer (position stream) (position (stream ++ chunk)) = some transfer) :
    signature.buffer (write arena (signature.arenaStart + transfer.target) (transfer.octets chunk)) =
      signature.bufferAfter total (stream ++ chunk) :=
  buffer_write_transfer turn.located turn.incomplete ht turn.arenaStop_le turn.keeps.buffer

end Signature.Turn

/-- The turns of a sweep, one after the other.  What holds at the end, and of a
turn if it holds of the turns after it, holds of the sweep: a window that takes
nothing from the chunk passes, any other has its part put into its buffer and its
status brought up to date. -/
@[elab_as_elim]
theorem Catalog.Swept.turns {catalog : Catalog} {total : Option Nat} {stream chunk : Bytes}
    (laidOut : catalog.LaidOut) (hc : chunk ≠ [])
    {motive : List Signature → Array UInt8 → Array Status → Prop}
    (ends : ∀ arena statuses, catalog.Swept total stream chunk [] arena statuses →
      motive [] arena statuses)
    (passes : ∀ signature rest arena statuses window,
      signature.Turn catalog total stream window arena statuses →
      window.transfer (position stream) (position (stream ++ chunk)) = none →
      motive rest arena statuses → motive (signature :: rest) arena statuses)
    (receives : ∀ signature rest arena statuses window transfer,
      signature.Turn catalog total stream window arena statuses →
      window.transfer (position stream) (position (stream ++ chunk)) = some transfer →
      motive rest (write arena (signature.arenaStart + transfer.target) (transfer.octets chunk))
        (statuses.setIfInBounds signature.index (signature.statusAfter total (stream ++ chunk))) →
      motive (signature :: rest) arena statuses)
    {waiting : List Signature} (hmem : ∀ signature ∈ waiting, signature ∈ catalog.signatures)
    (hnodup : waiting.Nodup)
    (hpending : ∀ signature ∈ waiting, signature.pendingAfter total stream = true)
    {arena : Array UInt8} {statuses : Array Status}
    (swept : catalog.Swept total stream chunk waiting arena statuses) :
    motive waiting arena statuses := by
  induction waiting generalizing arena statuses with
  | nil => exact ends arena statuses swept
  | cons signature rest ih =>
      obtain ⟨hfresh, hrest⟩ := List.nodup_cons.mp hnodup
      obtain ⟨hsignature, hmem⟩ := List.forall_mem_cons.mp hmem
      obtain ⟨hhead, hpending⟩ := List.forall_mem_cons.mp hpending
      obtain ⟨window, hw, hp⟩ := Signature.pendingAfter_iff.mp hhead
      have hkeeps := swept.waits signature hsignature List.mem_cons_self
      have hstop : signature.arenaStop ≤ arena.size := by
        rw [swept.size_arena]
        exact laidOut.arenaStop_le hsignature
      have hindex : signature.index < statuses.size := by
        rw [swept.size_statuses]
        exact laidOut.index_lt_size hsignature
      have turn : signature.Turn catalog total stream window arena statuses :=
        ⟨hsignature, hw, hp, hkeeps, hstop, hindex⟩
      cases ht : window.transfer (position stream) (position (stream ++ chunk)) with
      | none =>
          have hsame := Signature.settled_of_transfer_none hw hp hc ht
          exact passes _ _ _ _ _ turn ht (ih hmem hrest hpending (swept.pass hsame))
      | some transfer =>
          obtain ⟨hchunk, hroom⟩ := Signature.transfer_fits hw hp ht
          have hupdate := swept.update laidOut hsignature hfresh
            (by rwa [Transfer.length_octets hchunk]) (turn.buffer_write ht)
          exact receives _ _ _ _ _ _ turn ht (ih hmem hrest hpending hupdate)

/-- **The sweep hands the chunk to every signature that waits for it**: all
signatures come out as after the stream with the chunk, those still pending stay
live, and those whose windows the chunk completes with their patterns are found. -/
theorem sweep_follows {catalog : Catalog} {total : Option Nat} {stream chunk : Bytes}
    (laidOut : catalog.LaidOut) (hc : chunk ≠ []) {waiting : List Signature}
    (hmem : ∀ signature ∈ waiting, signature ∈ catalog.signatures) (hnodup : waiting.Nodup)
    (hpending : ∀ signature ∈ waiting, signature.pendingAfter total stream = true)
    {arena : Array UInt8} {statuses : Array Status}
    (swept : catalog.Swept total stream chunk waiting arena statuses) :
    (sweep catalog chunk (position stream) (position (stream ++ chunk)) (waiting.map (·.index))
      arena statuses).Follows catalog total stream chunk waiting := by
  refine Catalog.Swept.turns laidOut hc ?_ ?_ ?_ hmem hnodup hpending swept
  · exact fun _ _ swept => ⟨swept, rfl, rfl⟩
  · intro signature rest arena statuses window turn ht ih
    have hp := turn.incomplete
    have hsame := Signature.settled_of_transfer_none turn.located hp hc ht
    have hopen : signature.pendingAfter total (stream ++ chunk) = true := by
      rw [Signature.pendingAfter, hsame.1]
      exact Signature.pendingAfter_iff.mpr ⟨window, turn.located, hp⟩
    simp only [List.map_cons, sweep, laidOut.get?_index turn.mem, turn.status, ht]
    exact ih.keep hopen
  · intro signature rest arena statuses window transfer turn ht ih
    have hstatus := Signature.statusAfter_of_transfer turn.located ht
    simp only [List.map_cons, sweep, laidOut.get?_index turn.mem, turn.status, ht,
      turn.buffer_write ht]
    split
    · next hopen =>
      rw [if_pos hopen] at hstatus
      rw [hstatus] at ih
      exact ih.keep (by rw [Signature.pendingAfter, hstatus]; rfl)
    · next hcomplete =>
      have hfound :=
        Signature.completion_of_transfer turn.located turn.incomplete ht hcomplete
      rw [if_neg hcomplete] at hstatus
      split
      · next hpattern =>
        rw [if_pos hpattern] at hstatus hfound
        rw [hstatus] at ih
        exact ih.find (by rw [Signature.pendingAfter, hstatus]; rfl) hfound
      · next hpattern =>
        rw [if_neg hpattern] at hstatus hfound
        rw [hstatus] at ih
        exact ih.settle (by rw [Signature.pendingAfter, hstatus]; rfl) hfound

end AnchorScan
