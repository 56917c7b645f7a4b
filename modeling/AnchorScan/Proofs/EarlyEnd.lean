import AnchorScan.Proofs.CallingOff

/-!
# AnchorScan.Proofs.EarlyEnd

A scan of a reader reads no further than it has to.  A stream that has come as far
as the last window of a catalog settles every signature, and no shorter one does;
so that is how far a scan reads, if the stream goes on so long.  A reader that
never ends is left at that point, wherever the windows end.

* `Catalog.waiting_ne_nil_iff`: somebody waits just before the last window ends;
* `Course.before_reach`: a read is made only until then;
* `Course.cursor_of_ok`: how far a scan has come at its end;
* `exists_settles`: a scan goes through as many answers as it has to, and leaves the
  others;
* `Scanner.scanReads_zeros`: so an endless device may be shown in part;
* `Scanner.scanReads_stopsEarly`: all scans of readers stop as early as they can,
  those of endless readers too.
-/

namespace AnchorScan

open Session

/-! ## how far a catalog reaches -/

theorem foldl_max_le_iff {α : Type} {f : α → Nat} {items : List α} {least bound : Nat} :
    items.foldl (fun most item => max most (f item)) least ≤ bound ↔
      least ≤ bound ∧ ∀ item ∈ items, f item ≤ bound := by
  induction items generalizing least with
  | nil => simp
  | cons first rest ih => rw [List.foldl_cons, ih, Nat.max_le, List.forall_mem_cons, and_assoc]

section

variable {catalog : Catalog} {total : Option Nat} {stream : Bytes} {bound : Nat}

theorem Signature.reach_le_iff {signature : Signature} :
    signature.reach total ≤ bound ↔
      ∀ window, signature.locate total = .ok (.window window) → window.stop ≤ bound := by
  unfold reach
  split
  · next found hfound => simp [hfound]
  · next hnone => exact iff_of_true (Nat.zero_le bound) fun window h => absurd h (hnone window)

/-- A catalog reaches as far as the last of its windows. -/
theorem Catalog.reach_le_iff :
    catalog.reach total ≤ bound ↔ ∀ signature ∈ catalog.signatures, ∀ window,
      signature.locate total = .ok (.window window) → window.stop ≤ bound := by
  rw [reach, ← Array.foldl_toList, foldl_max_le_iff]
  simp only [Nat.zero_le, true_and, Array.mem_toList_iff, Signature.reach_le_iff]

theorem Catalog.reach_le_maxPosition : catalog.reach total ≤ maxPosition :=
  reach_le_iff.mpr fun _ _ _ hwindow =>
    (Signature.window?_bounds (Signature.window?_eq_some_iff.mpr hwindow)).2.1

theorem Catalog.waiting_eq_nil_iff :
    catalog.waiting total stream = [] ↔ catalog.reach total ≤ position stream := by
  simp only [waiting, List.filter_eq_nil_iff, Array.mem_toList_iff, Signature.pendingAfter_iff,
    Signature.window?_eq_some_iff, reach_le_iff, not_exists, not_and, Nat.not_lt]

/-- **Somebody waits just before the last window ends.** -/
theorem Catalog.waiting_ne_nil_iff :
    catalog.waiting total stream ≠ [] ↔ stream.length < catalog.reach total := by
  have hmax := @reach_le_maxPosition catalog total
  rw [Ne, waiting_eq_nil_iff, position]
  omega

end

/-! ## the stream of a reader -/

/-- The chunks that a reader hands out, up to the end of its stream or a fault. -/
def streamOf (reads : List Read) : List Bytes :=
  chunksOf (reads.takeWhile (·.delivery.goesOn))

/-- How many octets have been taken in, after `count` and then chunk by chunk, when
these are first as many as `reach`, or at the end. -/
def countAt (reach count : Nat) (chunks : List Bytes) : Nat :=
  ((chunks.scanl (fun count chunk => count + chunk.length) count).find? (reach ≤ ·)).getD
    (count + chunks.flatten.length)

section

variable {reach count : Nat} {chunk : Bytes} {rest : List Read}

theorem streamOf_octets (nonempty : chunk ≠ []) (raises : Bool) :
    streamOf (⟨.octets chunk, raises⟩ :: rest) = chunk :: streamOf rest := by
  unfold streamOf
  rw [List.takeWhile_cons_of_pos (by simpa using Delivery.goesOn_octets nonempty),
    chunksOf_octets nonempty]

theorem streamOf_interrupted (raises : Bool) :
    streamOf (⟨.interrupted, raises⟩ :: rest) = streamOf rest := rfl

theorem countAt_nil : countAt reach count [] = count := by
  by_cases h : reach ≤ count <;> simp [countAt, h]

theorem countAt_of_le (h : reach ≤ count) (chunks : List Bytes) :
    countAt reach count chunks = count := by
  cases chunks <;> simp [countAt, h]

theorem countAt_cons (h : count < reach) (chunks : List Bytes) :
    countAt reach count (chunk :: chunks) = countAt reach (count + chunk.length) chunks := by
  simp [countAt, List.scanl_cons, Nat.not_le.mpr h, Nat.add_assoc]

/-- The count goes past `reach` by less than a chunk. -/
theorem countAt_lt {size : Nat} (hcount : count < reach + size) {chunks : List Bytes}
    (fits : ∀ chunk ∈ chunks, chunk.length ≤ size) : countAt reach count chunks < reach + size := by
  induction chunks generalizing count with
  | nil => rwa [countAt_nil]
  | cons chunk rest ih =>
      obtain ⟨hchunk, hrest⟩ := List.forall_mem_cons.mp fits
      by_cases h : reach ≤ count
      · rwa [countAt_of_le h]
      · rw [countAt_cons (by omega)]
        exact ih (by omega) hrest

/-- Every chunk was delivered by a read. -/
theorem exists_of_mem_chunksOf {reads : List Read} (h : chunk ∈ chunksOf reads) :
    ∃ read ∈ reads, read.delivery = .octets chunk := by
  fun_induction chunksOf reads with
  | case1 => cases h
  | case2 octet more raises rest ih =>
      rcases List.mem_cons.mp h with rfl | h
      · exact ⟨_, List.mem_cons_self, rfl⟩
      · obtain ⟨read, hread, hdelivery⟩ := ih h
        exact ⟨read, List.mem_cons_of_mem _ hread, hdelivery⟩
  | case3 read rest _ ih =>
      obtain ⟨read, hread, hdelivery⟩ := ih h
      exact ⟨read, List.mem_cons_of_mem _ hread, hdelivery⟩

theorem length_le_of_mem_streamOf {size : Nat} {reads : List Read}
    (fits : ∀ read ∈ reads, ∀ chunk, read.delivery = .octets chunk → chunk.length ≤ size) :
    ∀ chunk ∈ streamOf reads, chunk.length ≤ size := by
  intro chunk h
  obtain ⟨read, hread, hdelivery⟩ := exists_of_mem_chunksOf h
  exact fits read ((List.takeWhile_sublist _).subset hread) chunk hdelivery

end

/-! ## courses -/

namespace Course

variable {catalog : Catalog} {total : Option Nat} {chunks : List Bytes} {aborted : Bool}
  {used unread : List Read} {reply : Except Failure Session}

/-- **A read is made only while the stream has not come as far as the catalog
reaches.** -/
theorem before_reach (course : Course catalog total chunks aborted used unread reply)
    {before after : List Read} {read : Read} (h : used = before ++ read :: after) :
    (chunks ++ chunksOf before).flatten.length < catalog.reach total := by
  cases course.drop h with
  | ended waits => exact Catalog.waiting_ne_nil_iff.mp waits
  | failed waits => exact Catalog.waiting_ne_nil_iff.mp waits
  | interrupted waits => exact Catalog.waiting_ne_nil_iff.mp waits
  | fed waits => exact Catalog.waiting_ne_nil_iff.mp waits

/-- **How far a scan has come at its end.** -/
theorem cursor_of_ok (course : Course catalog total chunks aborted used unread reply)
    {session : Session} (h : reply = .ok session) :
    session.cursor = min (countAt (catalog.reach total) chunks.flatten.length
      (streamOf (used ++ unread))) maxPosition := by
  induction course with
  | calledOff => cases h
  | resolved settled =>
      obtain rfl := Except.ok.inj h
      have hreach : catalog.reach total ≤ _ :=
        Nat.le_trans (Catalog.waiting_eq_nil_iff.mp settled) (position_le_length _)
      rw [countAt_of_le hreach]
      rfl
  | ranOut =>
      obtain rfl := Except.ok.inj h
      exact congrArg (min · maxPosition) countAt_nil.symm
  | ended =>
      obtain rfl := Except.ok.inj h
      exact congrArg (min · maxPosition) countAt_nil.symm
  | failed => cases h
  | interrupted _ _ ih =>
      rw [List.cons_append, streamOf_interrupted]
      exact ih h
  | fed waits nonempty _ ih =>
      rw [List.cons_append, streamOf_octets nonempty,
        countAt_cons (Catalog.waiting_ne_nil_iff.mp waits), ih h, List.flatten_concat,
        List.length_append]

/-- A scan comes to its end unless it is called off or a read fails. -/
theorem exists_ok (course : Course catalog total chunks aborted used unread reply)
    (down : aborted = false) (quiet : ∀ read ∈ used, read.raisesAbort = false)
    (sound : ∀ read ∈ used, ∀ fault, read.delivery ≠ .failed fault) :
    ∃ session, reply = .ok session := by
  induction course with
  | calledOff => contradiction
  | resolved => exact ⟨_, rfl⟩
  | ranOut => exact ⟨_, rfl⟩
  | ended => exact ⟨_, rfl⟩
  | failed => exact absurd rfl (sound _ List.mem_cons_self _)
  | interrupted _ _ ih =>
      obtain ⟨hraises, hquiet⟩ := List.forall_mem_cons.mp quiet
      exact ih hraises hquiet (List.forall_mem_cons.mp sound).2
  | fed _ _ _ ih =>
      obtain ⟨hraises, hquiet⟩ := List.forall_mem_cons.mp quiet
      exact ih hraises hquiet (List.forall_mem_cons.mp sound).2

end Course

/-! ## readers that never end -/

/-- A reader that never ends: it is interrupted or hands out some octets, as many
as there is room for at most, and does the latter again and again; nobody raises
the flag meanwhile. -/
structure Endless (size : Nat) (answers : Nat → Read) : Prop where
  quiet : ∀ i, (answers i).raisesAbort = false
  answers_eq : ∀ i, (answers i).delivery = .interrupted ∨
    ∃ chunk, (answers i).delivery = .octets chunk ∧ chunk ≠ [] ∧ chunk.length ≤ size
  again : ∀ i, ∃ j, i ≤ j ∧ (answers j).delivery ≠ .interrupted

/-- The first answers of a reader. -/
def firstReads (answers : Nat → Read) (count : Nat) : List Read := (List.range count).map answers

theorem firstReads_succ (answers : Nat → Read) (count : Nat) :
    firstReads answers (count + 1) = firstReads answers count ++ [answers count] := by
  rw [firstReads, List.range_succ, List.map_append, List.map_singleton, firstReads]

/-- What goes before others among the first answers of a reader are its first
answers. -/
theorem eq_firstReads {answers : Nat → Read} {before : List Read} {count : Nat}
    (h : before <+: firstReads answers count) : before = firstReads answers before.length := by
  have hlen : before.length ≤ count := by simpa [firstReads] using h.length_le
  have htake := List.prefix_iff_eq_take.mp h
  rwa [firstReads, ← List.map_take, List.take_range, Nat.min_eq_left hlen] at htake

/-- How many octets reads delivered. -/
def delivered (reads : List Read) : Nat := (chunksOf reads).flatten.length

theorem delivered_cons_octets {chunk : Bytes} (nonempty : chunk ≠ []) (raises : Bool)
    (rest : List Read) :
    delivered (⟨.octets chunk, raises⟩ :: rest) = chunk.length + delivered rest := by
  rw [delivered, chunksOf_octets nonempty, List.flatten_cons, List.length_append, delivered]

theorem delivered_replicate {chunk : Bytes} (nonempty : chunk ≠ []) (count : Nat) :
    delivered (List.replicate count { delivery := .octets chunk }) = count * chunk.length := by
  induction count with
  | zero => simp [delivered]
  | succ count ih =>
      rw [List.replicate_succ, delivered_cons_octets nonempty, ih, Nat.succ_mul, Nat.add_comm]

theorem delivered_append (first rest : List Read) :
    delivered (first ++ rest) = delivered first + delivered rest := by
  have hchunks : chunksOf (first ++ rest) = chunksOf first ++ chunksOf rest := by
    fun_induction chunksOf first with
    | case1 => rfl
    | case2 octet more raises first ih => exact congrArg (_ :: ·) ih
    | case3 read first hread ih => simp [chunksOf, ih]
  simp [delivered, hchunks]

theorem delivered_firstReads_le (answers : Nat → Read) {first last : Nat} (h : first ≤ last) :
    delivered (firstReads answers first) ≤ delivered (firstReads answers last) := by
  induction h with
  | refl => exact Nat.le_refl _
  | step _ ih =>
      rw [firstReads_succ, delivered_append]
      exact Nat.le_add_right_of_le ih

namespace Endless

variable {size : Nat} {answers : Nat → Read}

theorem goesOn (endless : Endless size answers) {count : Nat} :
    ∀ read ∈ firstReads answers count, read.raisesAbort = false ∧ read.delivery.goesOn = true := by
  intro read h
  obtain ⟨i, -, rfl⟩ := List.mem_map.mp h
  refine ⟨endless.quiet i, ?_⟩
  rcases endless.answers_eq i with hdelivery | ⟨chunk, hdelivery, hnonempty, -⟩
  · rw [hdelivery]
    rfl
  · rw [hdelivery, Delivery.goesOn_octets hnonempty]

theorem fits (endless : Endless size answers) {count : Nat} :
    ∀ read ∈ firstReads answers count, ∀ chunk, read.delivery = .octets chunk →
      chunk.length ≤ size := by
  intro read h chunk hchunk
  obtain ⟨i, -, rfl⟩ := List.mem_map.mp h
  rcases endless.answers_eq i with hdelivery | ⟨found, hdelivery, -, hle⟩
  · rw [hdelivery] at hchunk
    cases hchunk
  · rw [hdelivery] at hchunk
    rwa [← Delivery.octets.inj hchunk]

/-- An endless reader delivers any number of octets. -/
theorem exists_delivered (endless : Endless size answers) (bound : Nat) :
    ∃ count, bound ≤ delivered (firstReads answers count) := by
  induction bound with
  | zero => exact ⟨0, Nat.zero_le _⟩
  | succ bound ih =>
      obtain ⟨count, hcount⟩ := ih
      obtain ⟨later, hlater, hoctets⟩ := endless.again count
      obtain ⟨chunk, hchunk, hnonempty, -⟩ := (endless.answers_eq later).resolve_left hoctets
      have hgrows := delivered_firstReads_le answers hlater
      have hlast : delivered [answers later] = chunk.length := by
        rw [show answers later = ⟨.octets chunk, (answers later).raisesAbort⟩ by rw [← hchunk],
          delivered_cons_octets hnonempty]
        rfl
      have hpos := List.length_pos_iff.mpr hnonempty
      refine ⟨later + 1, ?_⟩
      rw [firstReads_succ, delivered_append, hlast]
      omega

end Endless

/-- A scan that took in chunks comes to an end over answers of a reader, whatever
the reader would answer later. -/
def Settles (catalog : Catalog) (total : Option Nat) (chunks : List Bytes) (reads : List Read)
    (session : Session) : Prop :=
  ∀ more, (pump (underWay catalog total chunks) false (reads ++ more)).reply = .ok session ∧
    (pump (underWay catalog total chunks) false (reads ++ more)).unread = more

namespace Settles

variable {catalog : Catalog} {total : Option Nat} {chunks : List Bytes} {reads : List Read}
  {session : Session}

/-- Nothing has to be read any more once the catalog is settled. -/
theorem nil (settled : catalog.reach total ≤ position chunks.flatten) :
    Settles catalog total chunks [] (halted catalog total chunks) := by
  intro more
  rw [List.nil_append, pump_settled (Catalog.waiting_eq_nil_iff.mpr settled)]
  exact ⟨rfl, rfl⟩

theorem interrupted (waits : catalog.waiting total chunks.flatten ≠ [])
    (settles : Settles catalog total chunks reads session) :
    Settles catalog total chunks (⟨.interrupted, false⟩ :: reads) session := by
  intro more
  rw [List.cons_append, pump_cons waits]
  exact settles more

theorem octets (laidOut : catalog.LaidOut) (waits : catalog.waiting total chunks.flatten ≠ [])
    {chunk : Bytes} (nonempty : chunk ≠ [])
    (settles : Settles catalog total (chunks ++ [chunk]) reads session) :
    Settles catalog total chunks (⟨.octets chunk, false⟩ :: reads) session := by
  intro more
  obtain ⟨log, hreceive⟩ := receive_underWay laidOut nonempty
  rw [List.cons_append, pump_cons waits, hreceive]
  exact settles more

end Settles

/-- **A scan settles once enough is delivered**: it goes through so many answers and
leaves all that the reader would answer later. -/
theorem exists_settles {catalog : Catalog} {total : Option Nat} (laidOut : catalog.LaidOut)
    {chunks : List Bytes} {reads : List Read}
    (goesOn : ∀ read ∈ reads, read.raisesAbort = false ∧ read.delivery.goesOn = true)
    (far : catalog.reach total ≤ chunks.flatten.length + delivered reads) :
    ∃ before session, before <+: reads ∧ catalog.reach total ≤ session.cursor ∧
      Settles catalog total chunks before session := by
  induction reads generalizing chunks with
  | nil =>
      have settled : catalog.reach total ≤ position chunks.flatten :=
        Nat.le_min.mpr ⟨far, Catalog.reach_le_maxPosition⟩
      exact ⟨[], halted catalog total chunks, List.nil_prefix, settled, .nil settled⟩
  | cons read rest ih =>
      by_cases settled : catalog.reach total ≤ position chunks.flatten
      · exact ⟨[], halted catalog total chunks, List.nil_prefix, settled, .nil settled⟩
      have waits := mt Catalog.waiting_eq_nil_iff.mp settled
      obtain ⟨⟨hquiet, hgoesOn⟩, hrest⟩ := List.forall_mem_cons.mp goesOn
      obtain ⟨delivery, raises⟩ := read
      obtain rfl : raises = false := hquiet
      match delivery with
      | .octets [] => cases hgoesOn
      | .failed _ => cases hgoesOn
      | .interrupted =>
          obtain ⟨before, session, hbefore, hreach, hsettles⟩ := ih hrest far
          exact ⟨_, session, List.cons_prefix_cons.mpr ⟨rfl, hbefore⟩, hreach,
            hsettles.interrupted waits⟩
      | .octets (octet :: more) =>
          have hnonempty := List.cons_ne_nil octet more
          rw [delivered_cons_octets hnonempty, ← Nat.add_assoc, ← List.length_append,
            ← List.flatten_concat] at far
          obtain ⟨before, session, hbefore, hreach, hsettles⟩ := ih hrest far
          exact ⟨_, session, List.cons_prefix_cons.mpr ⟨rfl, hbefore⟩, hreach,
            hsettles.octets laidOut waits hnonempty⟩

/-! ## scans of readers -/

/-- **How a run stops as early as it can** that began with a session and met a
reader, by the reads that it made. -/
structure Run.StopsEarly (run : Run) (start : Session) (reach buffer : Nat)
    (reads used : List Read) : Prop where
  reads_eq : reads = used ++ run.unread
  /-- A read is made only while the last window has not ended. -/
  before_reach : ∀ before read after, used = before ++ read :: after →
    (start.feedAll (chunksOf before)).state.cursor < reach
  none_used : reach = 0 → used = []
  /-- A run that comes to its end has gone past the last window, and no read
  further, or to the end of the stream. -/
  cursor_eq : ∀ session, run.reply = .ok session →
    session.cursor = min (countAt reach 0 (streamOf reads)) maxPosition
  cursor_lt : (∀ read ∈ reads, ∀ chunk, read.delivery = .octets chunk → chunk.length ≤ buffer) →
    ∀ session, run.reply = .ok session → session.cursor < reach + buffer
  reply_ok : (∀ read ∈ reads, ∀ fault, read.delivery ≠ .failed fault) →
    ∃ session, run.reply = .ok session

namespace Scanner

variable {scanner : Scanner} {total : Option Nat}

/-- A scan of a reader stops as early as it can, if nobody raises the flag. -/
theorem exists_stopsEarly (laidOut : scanner.catalog.LaidOut) (down : scanner.aborted = false)
    (starts : (scanner.newSession total).start.reply = .ok ()) {reads : List Read}
    (quiet : ∀ read ∈ reads, read.raisesAbort = false) :
    ∃ used, (scanner.scanReads total reads).StopsEarly (scanner.newSession total).start.state
      (scanner.catalog.reach total) scanner.buffer.octets reads used := by
  obtain ⟨used, hreads, -, course⟩ := scanReads_course laidOut starts reads
  have hmade : ∀ read ∈ used, read ∈ reads := fun read h => by
    rw [hreads]
    exact List.mem_append_left _ h
  have hcursor : ∀ session, (scanner.scanReads total reads).reply = .ok session →
      session.cursor = min (countAt (scanner.catalog.reach total) 0 (streamOf reads)) maxPosition :=
    fun session h => by
      rw [course.cursor_of_ok h, ← hreads]
      rfl
  refine ⟨used, ?_⟩
  constructor
  case reads_eq => exact hreads
  case before_reach =>
    intro before read after h
    obtain ⟨-, -, -, hstart⟩ := (Known.created laidOut total).of_start_ok starts
    have hfed := (@feedAll_underWay scanner.catalog total [] laidOut (chunksOf before)).2
    have hlt := course.before_reach h
    rw [newSession, hstart, withTotal, hfed, cursor_underWay]
    exact Nat.lt_of_le_of_lt (position_le_length _) hlt
  case none_used =>
    intro hzero
    cases used with
    | nil => rfl
    | cons read after =>
        have hlt := course.before_reach (List.nil_append (read :: after)).symm
        exact absurd hlt (by omega)
  case cursor_eq => exact hcursor
  case cursor_lt =>
    intro fits session h
    have hfrom : 0 < scanner.catalog.reach total + scanner.buffer.octets :=
      Nat.lt_add_left _ scanner.buffer.octets_pos
    rw [hcursor session h]
    exact Nat.lt_of_le_of_lt (Nat.min_le_left _ _)
      (countAt_lt hfrom (length_le_of_mem_streamOf fits))
  case reply_ok =>
    intro sound
    exact course.exists_ok down (fun read h => quiet read (hmade read h))
      fun read h => sound read (hmade read h)

/-- A scan of answers that reach past the last window is over after some of them. -/
theorem scanReads_settles (laidOut : scanner.catalog.LaidOut) (down : scanner.aborted = false)
    (starts : (scanner.newSession total).start.reply = .ok ()) {reads : List Read}
    (goesOn : ∀ read ∈ reads, read.raisesAbort = false ∧ read.delivery.goesOn = true)
    (far : scanner.catalog.reach total ≤ delivered reads) :
    ∃ before session, before <+: reads ∧ scanner.catalog.reach total ≤ session.cursor ∧
      ∀ more, (scanner.scanReads total (before ++ more)).reply = .ok session ∧
        (scanner.scanReads total (before ++ more)).unread = more := by
  have hfar : scanner.catalog.reach total ≤ ([] : List Bytes).flatten.length + delivered reads :=
    Nat.le_trans far (Nat.le_add_left _ _)
  obtain ⟨before, session, hbefore, hreach, hsettles⟩ := exists_settles laidOut goesOn hfar
  refine ⟨before, session, hbefore, hreach, fun more => ?_⟩
  obtain ⟨log, hrun⟩ := scanReads_of_starts laidOut starts (before ++ more)
  rw [hrun, down]
  exact hsettles more

/-- What is not shown of a device that never runs out of zeros is not read. -/
theorem scanReads_zeros (laidOut : scanner.catalog.LaidOut) (down : scanner.aborted = false)
    (starts : (scanner.newSession total).start.reply = .ok ()) (more : List Read) :
    let shown := (Source.zeros (scanner.catalog.reach total)).reads scanner.buffer.octets
    (scanner.scanReads total (shown ++ more)).reply = (scanner.scanReads total shown).reply := by
  intro shown
  have hbuffer := scanner.buffer.octets_pos
  have hzeros : List.replicate scanner.buffer.octets (0 : UInt8) ≠ [] := by
    simpa using Nat.ne_of_gt hbuffer
  have far : scanner.catalog.reach total ≤ delivered shown := by
    have hle := Nat.lt_mul_div_succ (scanner.catalog.reach total) hbuffer
    rw [show shown = List.replicate _ _ from rfl, delivered_replicate hzeros, List.length_replicate,
      Nat.mul_comm]
    exact Nat.le_of_lt hle
  have goesOn : ∀ read ∈ shown, read.raisesAbort = false ∧ read.delivery.goesOn = true := by
    intro read h
    rw [List.eq_of_mem_replicate h]
    exact ⟨rfl, Delivery.goesOn_octets hzeros⟩
  obtain ⟨before, session, ⟨left, hleft⟩, -, hsettles⟩ := scanReads_settles laidOut down starts goesOn far
  rw [← hleft, (hsettles left).1, List.append_assoc, (hsettles (left ++ more)).1]

/-- **Scans of readers stop as early as they can.**  A scan that can be started and
that nobody calls off makes a read only while the last of the windows has not
ended.  It comes to its end past that window, by less than a buffer, or with the
stream.  So a reader that never ends is left after some answers, whatever it would
answer later, wherever the windows are. -/
theorem scanReads_stopsEarly (built : scanner.catalog.Built) (down : scanner.aborted = false)
    (starts : (scanner.newSession total).start.reply = .ok ()) :
    let reach := scanner.catalog.reach total
    let buffer := scanner.buffer.octets
    (∀ bound, reach ≤ bound ↔ ∀ signature ∈ scanner.catalog.signatures, ∀ window,
        signature.locate total = .ok (.window window) → window.stop ≤ bound) ∧
      (∀ reads, (∀ read ∈ reads, read.raisesAbort = false) → ∃ used,
        (scanner.scanReads total reads).StopsEarly (scanner.newSession total).start.state
          reach buffer reads used) ∧
      ∀ answers, Endless buffer answers → ∃ count session,
        reach ≤ session.cursor ∧ session.cursor < reach + buffer ∧
          ∀ more, (scanner.scanReads total (firstReads answers count ++ more)).reply = .ok session ∧
            (scanner.scanReads total (firstReads answers count ++ more)).unread = more := by
  intro reach buffer
  have laidOut := built.laidOut
  refine ⟨fun bound => Catalog.reach_le_iff, fun reads quiet =>
    exists_stopsEarly laidOut down starts quiet, fun answers endless => ?_⟩
  obtain ⟨enough, far⟩ := endless.exists_delivered reach
  obtain ⟨before, session, hbefore, hreach, hsettles⟩ :=
    scanReads_settles laidOut down starts endless.goesOn far
  have hfirst := eq_firstReads hbefore
  rw [hfirst] at hsettles
  have quiet : ∀ read ∈ firstReads answers before.length ++ [], read.raisesAbort = false := by
    rw [List.append_nil]
    exact fun read h => (endless.goesOn read h).1
  obtain ⟨used, early⟩ := exists_stopsEarly laidOut down starts quiet
  have fits : ∀ read ∈ firstReads answers before.length ++ [], ∀ chunk,
      read.delivery = .octets chunk → chunk.length ≤ buffer := by
    rw [List.append_nil]
    exact endless.fits
  exact ⟨before.length, session, hreach, early.cursor_lt fits session (hsettles []).1, hsettles⟩

theorem scanReads_stopsEarly_sample :
    let scanner := (({ catalog := Catalog.sample } : Scanner).resize 2).state
    let answers : Nat → Read := fun i =>
      if i % 2 = 0 then ⟨.interrupted, false⟩ else ⟨.octets [0, 0], false⟩
    let reads : List Read := [⟨.octets [0, 1], false⟩, ⟨.octets [2], false⟩, ⟨.interrupted, false⟩]
    scanner.catalog.reach (some 5) = 5 ∧
      (∃ count session, 5 ≤ session.cursor ∧ session.cursor < 7 ∧
        ∀ more, (scanner.scanReads (some 5) (firstReads answers count ++ more)).reply = .ok session ∧
          (scanner.scanReads (some 5) (firstReads answers count ++ more)).unread = more) ∧
      ∃ session, (scanner.scanReads (some 5) reads).reply = .ok session ∧ session.cursor = 3 := by
  intro scanner answers reads
  have built : scanner.catalog.Built := Catalog.built_sample
  have endless : Endless scanner.buffer.octets answers := by
    constructor
    case quiet =>
      intro i
      unfold answers
      split <;> rfl
    case answers_eq =>
      intro i
      unfold answers
      split
      · exact .inl rfl
      · exact .inr ⟨[0, 0], rfl, by decide, by decide⟩
    case again =>
      intro i
      refine ⟨2 * i + 1, by omega, ?_⟩
      unfold answers
      rw [if_neg (by omega)]
      simp
  obtain ⟨-, hreads, hendless⟩ := @scanReads_stopsEarly scanner (some 5) built rfl rfl
  obtain ⟨used, early⟩ := hreads reads (by decide)
  obtain ⟨session, hreply⟩ := early.reply_ok (by simp [reads])
  exact ⟨by decide +kernel, hendless answers endless, session, hreply, early.cursor_eq session hreply⟩

end Scanner

end AnchorScan
