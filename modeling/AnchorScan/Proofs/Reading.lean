import AnchorScan.Proofs.Streaming
import AnchorScan.Scanner

/-!
# AnchorScan.Proofs.Reading

The course of a scan of a reader.  `Course` tells a scan by its turns: what it
took in before, whether the flag was up, the reads that it made and those that it
left, and the reply that it came to.  A read is made only while the flag is down
and a signature is looked for.

* `pump_course`: the loop of a scan takes a course;
* `Scanner.scanReads_course`: so does every scan whose session can be started.
-/

namespace AnchorScan

open Session

/-! ## courses -/

/-- How a session that took in chunks goes on, from the flag as it is, over the
reads that are made, and leaving others, to a reply. -/
inductive Course (catalog : Catalog) (total : Option Nat) :
    List Bytes → Bool → List Read → List Read → Except Failure Session → Prop
  | calledOff {chunks : List Bytes} {unread : List Read} :
      Course catalog total chunks true [] unread (.error .aborted)
  | resolved {chunks : List Bytes} {unread : List Read}
      (settled : catalog.waiting total chunks.flatten = []) :
      Course catalog total chunks false [] unread (.ok (halted catalog total chunks))
  | ranOut {chunks : List Bytes} (waits : catalog.waiting total chunks.flatten ≠ []) :
      Course catalog total chunks false [] [] (.ok (halted catalog total chunks))
  | ended {chunks : List Bytes} {unread : List Read} {raises : Bool}
      (waits : catalog.waiting total chunks.flatten ≠ []) :
      Course catalog total chunks false [⟨.octets [], raises⟩] unread
        (.ok (halted catalog total chunks))
  | failed {chunks : List Bytes} {unread : List Read} {raises : Bool} {fault : FileFault}
      (waits : catalog.waiting total chunks.flatten ≠ []) :
      Course catalog total chunks false [⟨.failed fault, raises⟩] unread (.error (.file fault))
  | interrupted {chunks : List Bytes} {raises : Bool} {used unread : List Read}
      {reply : Except Failure Session} (waits : catalog.waiting total chunks.flatten ≠ [])
      (course : Course catalog total chunks raises used unread reply) :
      Course catalog total chunks false (⟨.interrupted, raises⟩ :: used) unread reply
  | fed {chunks : List Bytes} {chunk : Bytes} {raises : Bool} {used unread : List Read}
      {reply : Except Failure Session} (waits : catalog.waiting total chunks.flatten ≠ [])
      (nonempty : chunk ≠ [])
      (course : Course catalog total (chunks ++ [chunk]) raises used unread reply) :
      Course catalog total chunks false (⟨.octets chunk, raises⟩ :: used) unread reply

/-- A run takes a course over reads: it makes some, leaves the others, and the
flag is up afterwards if it was before or a read that was made raised it. -/
def Run.Takes (run : Run) (catalog : Catalog) (total : Option Nat) (chunks : List Bytes)
    (aborted : Bool) (reads : List Read) : Prop :=
  ∃ used, reads = used ++ run.unread ∧ run.aborted = (aborted || used.any (·.raisesAbort)) ∧
    Course catalog total chunks aborted used run.unread run.reply

/-! ## the loop -/

section

variable {catalog : Catalog} {total : Option Nat} {chunks : List Bytes} {aborted : Bool}
  {reads : List Read}

theorem pump_aborted (session : Session) (reads : List Read) :
    pump session true reads = ⟨.error .aborted, true, reads, [.aborted session.cursor]⟩ := by
  cases reads <;> rfl

theorem pump_settled (settled : catalog.waiting total chunks.flatten = []) (reads : List Read) :
    pump (underWay catalog total chunks) false reads =
      (conclude (underWay catalog total chunks) false reads).after
        [.allResolved (position chunks.flatten)] := by
  have hturn : (underWay catalog total chunks).turn false = .finish := by simp [turn, settled]
  unfold pump
  rw [hturn]
  rfl

theorem turn_of_waits (waits : catalog.waiting total chunks.flatten ≠ []) :
    (underWay catalog total chunks).turn false = .read := by
  simp [turn, waits]

theorem pump_nil (waits : catalog.waiting total chunks.flatten ≠ []) :
    pump (underWay catalog total chunks) false [] = conclude (underWay catalog total chunks) false [] := by
  unfold pump
  rw [turn_of_waits waits]

theorem pump_cons (waits : catalog.waiting total chunks.flatten ≠ []) (read : Read)
    (rest : List Read) :
    pump (underWay catalog total chunks) false (read :: rest) =
      match (underWay catalog total chunks).receive read.delivery with
      | .goOn session log => (pump session read.raisesAbort rest).after log
      | .streamEnded session => conclude session read.raisesAbort rest
      | .failed failure => ⟨.error failure, read.raisesAbort, rest, []⟩ := by
  rw [pump.eq_def, turn_of_waits waits]
  rfl

/-- A chunk makes a session under way go on. -/
theorem receive_underWay (laidOut : catalog.LaidOut) {chunk : Bytes} (hc : chunk ≠ []) :
    ∃ log, (underWay catalog total chunks).receive (.octets chunk) =
      .goOn (underWay catalog total (chunks ++ [chunk])) log := by
  have hreply : ((underWay catalog total chunks).feed chunk).reply = .ok () :=
    reply_feed_underWay chunk
  refine ⟨((underWay catalog total chunks).feed chunk).log, ?_⟩
  cases chunk with
  | nil => contradiction
  | cons octet rest => simp only [receive, hreply, state_feed_underWay laidOut]

/-- The first read of a course goes before those of the rest. -/
theorem Run.Takes.cons {run : Run} {read : Read} {log : List Event} {more : List Bytes}
    (takes : run.Takes catalog total more read.raisesAbort reads)
    (step : ∀ used, Course catalog total more read.raisesAbort used run.unread run.reply →
      Course catalog total chunks false (read :: used) run.unread run.reply) :
    (run.after log).Takes catalog total chunks false (read :: reads) := by
  obtain ⟨used, hreads, haborted, course⟩ := takes
  refine ⟨read :: used, ?_, ?_, step used course⟩
  · rw [hreads]
    rfl
  · rw [Bool.false_or, List.any_cons]
    exact haborted

/-- **The loop of a scan takes a course.** -/
theorem pump_course (laidOut : catalog.LaidOut) (chunks : List Bytes) (aborted : Bool)
    (reads : List Read) :
    (pump (underWay catalog total chunks) aborted reads).Takes catalog total chunks aborted reads := by
  induction reads generalizing chunks aborted with
  | nil =>
      cases aborted with
      | true =>
          rw [pump_aborted]
          exact ⟨[], rfl, rfl, .calledOff⟩
      | false =>
          by_cases hwaits : catalog.waiting total chunks.flatten = []
          · rw [pump_settled hwaits]
            exact ⟨[], rfl, rfl, .resolved hwaits⟩
          · rw [pump_nil hwaits]
            exact ⟨[], rfl, rfl, .ranOut hwaits⟩
  | cons read rest ih =>
      cases aborted with
      | true =>
          rw [pump_aborted]
          exact ⟨[], rfl, rfl, .calledOff⟩
      | false =>
          by_cases hwaits : catalog.waiting total chunks.flatten = []
          · rw [pump_settled hwaits]
            exact ⟨[], rfl, rfl, .resolved hwaits⟩
          · obtain ⟨delivery, raises⟩ := read
            rw [pump_cons hwaits]
            match delivery with
            | .octets [] =>
                exact ⟨[⟨.octets [], raises⟩], rfl, (Bool.or_false raises).symm, .ended hwaits⟩
            | .octets (octet :: more) =>
                have hc : octet :: more ≠ [] := List.cons_ne_nil octet more
                obtain ⟨log, hreceive⟩ := receive_underWay laidOut hc
                rw [hreceive]
                exact (ih _ raises).cons fun _ => .fed hwaits hc
            | .interrupted => exact (ih chunks raises).cons fun _ => .interrupted hwaits
            | .failed fault =>
                exact ⟨[⟨.failed fault, raises⟩], rfl, (Bool.or_false raises).symm, .failed hwaits⟩

end

/-! ## scans of readers -/

namespace Scanner

variable {scanner : Scanner} {total : Option Nat}

/-- A session that cannot be started lets no read be made. -/
theorem scanReads_refused {failure : Failure}
    (h : (scanner.newSession total).start.reply = .error failure) (reads : List Read) :
    ∃ log, scanner.scanReads total reads = ⟨.error failure, scanner.aborted, reads, log⟩ := by
  unfold scanReads
  generalize (scanner.newSession total).start = step at h
  obtain ⟨reply, session, log⟩ := step
  subst h
  exact ⟨log, rfl⟩

/-- A scan whose session can be started turns the loop. -/
theorem scanReads_of_starts (laidOut : scanner.catalog.LaidOut)
    (h : (scanner.newSession total).start.reply = .ok ()) (reads : List Read) :
    ∃ log, scanner.scanReads total reads =
      (pump (underWay scanner.catalog total []) scanner.aborted reads).after log := by
  unfold scanReads newSession at *
  rw [start_withTotal laidOut] at h ⊢
  split at h
  · cases h
  · next hasTotal =>
      rw [if_neg hasTotal]
      exact ⟨_, rfl⟩

/-- **A scan whose session can be started takes a course.** -/
theorem scanReads_course (laidOut : scanner.catalog.LaidOut)
    (h : (scanner.newSession total).start.reply = .ok ()) (reads : List Read) :
    (scanner.scanReads total reads).Takes scanner.catalog total [] scanner.aborted reads := by
  obtain ⟨log, hrun⟩ := scanReads_of_starts laidOut h reads
  rw [hrun]
  exact pump_course laidOut [] scanner.aborted reads

end Scanner

end AnchorScan
