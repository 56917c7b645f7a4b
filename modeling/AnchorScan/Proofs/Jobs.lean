import AnchorScan.Proofs.CallingOff
import AnchorScan.Scanner.Batch

/-!
# AnchorScan.Proofs.Jobs

The scan of one file of a batch, move by move.  Other scans can do nothing to it but
raise the flag.

* `Job.outcome`: the report that a job comes to unless it is called off;
* `Job.outcome_move`: a move keeps that report, unless the flag is up and calls the job off;
* `Job.aborted_move`: none but a failure raises the flag;
* `Job.doomed_move`: with the flag up a scan that has yet to begin is bound to fail;
* `Job.remaining_move`: every move brings the end nearer.
-/

namespace AnchorScan

/-! ## what a job comes to -/

/-- Goes on with a scan that has looked at the flag and reads. -/
def Session.readOn (session : Session) : List Read → Run
  | [] => conclude session false []
  | read :: rest =>
    match session.receive read.delivery with
    | .goOn session log => (pump session read.raisesAbort rest).after log
    | .streamEnded session => conclude session read.raisesAbort rest
    | .failed failure => ⟨.error failure, read.raisesAbort, rest, []⟩

theorem pump_of_turn_read {session : Session} (h : session.turn false = .read) (reads : List Read) :
    pump session false reads = session.readOn reads := by
  rw [pump.eq_def, h]
  cases reads <;> rfl

/-- The report that a scan of a file comes to while the flag is down. -/
def Stage.outcome (path : String) (unread : List Read) : Stage → Report
  | turning session => .ofReply path (pump session false unread).reply
  | reading session => .ofReply path (session.readOn unread).reply
  | failing failure => .ofFailure path failure
  | done report => report

namespace Job

/-- The path of the file that a job scans. -/
def path : Job → String
  | queued path _ => path
  | underWay path _ _ => path

/-- The answers of the reader that a job has not asked for. -/
def unread (scanner : Scanner) : Job → List Read
  | queued path opened => scanner.readsOf (.file path opened)
  | underWay _ _ unread => unread

/-- The report that a job comes to while the flag is down. -/
def outcome (scanner : Scanner) : Job → Report
  | queued path opened => .ofReply path (scanner.scanSource path opened).reply
  | underWay path stage unread => stage.outcome path unread

end Job

/-! ## moves keep the outcome -/

namespace Stage

variable {scanner : Scanner} {path : String} {session : Session}

theorem outcome_conclude (unread rest : List Read) (aborted : Bool) :
    (conclude path session).1.outcome path unread =
      .ofReply path (AnchorScan.conclude session aborted rest).reply := by
  unfold conclude AnchorScan.conclude
  generalize session.stop = step
  obtain ⟨reply, state, log⟩ := step
  cases reply <;> rfl

theorem outcome_start (down : scanner.aborted = false) (aborted : Bool)
    (opened : Except FileFault Source) :
    (start { scanner with aborted } path (opened.map fun source => source.extent.size?)).1.outcome
      path (scanner.readsOf (.file path opened)) =
      .ofReply path (scanner.scanSource path opened).reply := by
  cases opened with
  | error fault => rfl
  | ok source =>
      have hsession : ({ scanner with aborted } : Scanner).newSession source.extent.size? =
          scanner.newSession source.extent.size? := rfl
      simp only [start, Except.map, hsession, Scanner.scanSource, Scanner.scanReads, Run.after,
        down]
      generalize (scanner.newSession source.extent.size?).start = step
      obtain ⟨reply, state, log⟩ := step
      cases reply <;> rfl

theorem outcome_turn (unread : List Read) :
    (turn path false session).1.outcome path unread = (turning session).outcome path unread := by
  by_cases settled : session.pending = 0
  · have hturn : session.turn false = .finish := by simp [Session.turn, settled]
    have hpump : (pump session false unread).reply =
        (AnchorScan.conclude session false unread).reply := by
      rw [pump.eq_def, hturn]
      rfl
    simp only [turn, hturn, outcome, hpump]
    exact outcome_conclude unread unread false
  · have hturn : session.turn false = .read := by simp [Session.turn, settled]
    simp only [turn, hturn, outcome, pump_of_turn_read hturn]

theorem outcome_receive {read : Read} (quiet : read.raisesAbort = false) (rest : List Read) :
    (receive path session read.delivery).1.outcome path rest =
      (reading session).outcome path (read :: rest) := by
  unfold receive
  simp only [outcome, Session.readOn]
  cases session.receive read.delivery with
  | goOn next log => simp only [Run.after, quiet]
  | streamEnded next => exact outcome_conclude rest rest read.raisesAbort
  | failed failure => rfl

end Stage

namespace Job

variable {scanner : Scanner} {job : Job}

/-- **A move keeps what a job comes to**, unless the flag is up and the job is called off. -/
theorem outcome_move (down : scanner.aborted = false)
    (quiet : ∀ read ∈ job.unread scanner, read.raisesAbort = false) (aborted failFast : Bool) :
    (job.move { scanner with aborted } failFast).job.outcome scanner = job.outcome scanner ∨
      aborted = true ∧ (job.move { scanner with aborted } failFast).job.outcome scanner =
        .ofFailure job.path .aborted := by
  match job with
  | queued path (.ok source) => exact .inl (Stage.outcome_start down aborted (.ok source))
  | queued path (.error fault) => exact .inl (Stage.outcome_start down aborted (.error fault))
  | underWay path (.turning session) unread =>
      cases aborted with
      | false => exact .inl (Stage.outcome_turn unread)
      | true => exact .inr ⟨rfl, rfl⟩
  | underWay path (.reading session) [] => exact .inl (Stage.outcome_conclude [] [] false)
  | underWay path (.reading session) (read :: unread) =>
      exact .inl (Stage.outcome_receive (quiet read List.mem_cons_self) unread)
  | underWay path (.failing failure) unread => exact .inl rfl
  | underWay path (.done report) unread => exact .inl rfl

theorem path_move (scanner : Scanner) (failFast : Bool) (job : Job) :
    (job.move scanner failFast).job.path = job.path := by
  unfold move
  split <;> rfl

/-- A move makes no new answers of the reader. -/
theorem mem_unread_of_move {failFast aborted : Bool} {read : Read}
    (h : read ∈ (job.move { scanner with aborted } failFast).job.unread scanner) :
    read ∈ job.unread scanner := by
  match job with
  | queued path (.ok source) => exact h
  | queued path (.error fault) => exact h
  | underWay path (.turning session) unread => exact h
  | underWay path (.reading session) [] => exact h
  | underWay path (.reading session) (next :: unread) => exact List.mem_cons_of_mem next h
  | underWay path (.failing failure) unread => exact h
  | underWay path (.done report) unread => exact h

theorem outcome_of_report? {report : Report} (h : job.report? = some report) :
    job.outcome scanner = report := by
  match job with
  | underWay path (.done report) unread => exact Option.some.inj h

/-- A report stays as it is. -/
theorem report?_move {report : Report} (h : job.report? = some report) (failFast : Bool) :
    (job.move scanner failFast).job.report? = some report := by
  match job with
  | underWay path (.done report) unread => exact h

/-! ## the flag -/

/-- The flag never goes down. -/
theorem aborted_move_of_aborted (up : scanner.aborted = true) (failFast : Bool) (job : Job) :
    (job.move scanner failFast).aborted = true := by
  match job with
  | queued path opened => exact up
  | underWay path (.turning session) unread => exact up
  | underWay path (.reading session) [] => exact up
  | underWay path (.reading session) (read :: unread) => simp [move, up]
  | underWay path (.failing failure) unread => simp [move, up]
  | underWay path (.done report) unread => exact up

/-- **None but a failure raises the flag**, and only if failures are to call off other scans. -/
theorem aborted_move (down : scanner.aborted = false)
    (quiet : ∀ read ∈ job.unread scanner, read.raisesAbort = false) {failFast : Bool}
    (h : (job.move scanner failFast).aborted = true) :
    failFast = true ∧ ∃ path failure unread, job = underWay path (.failing failure) unread := by
  match job with
  | queued path opened => simp [move, down] at h
  | underWay path (.turning session) unread => simp [move, down] at h
  | underWay path (.reading session) [] => simp [move, down] at h
  | underWay path (.reading session) (read :: unread) =>
      simp [move, down, quiet read List.mem_cons_self] at h
  | underWay path (.failing failure) unread =>
      have hfast : failFast = true := by simpa [move, down] using h
      exact ⟨hfast, path, failure, unread, rfl⟩
  | underWay path (.done report) unread => simp [move, down] at h

/-- Jobs that fail with the flag up: those that have yet to begin, those that have not looked
at the flag since, and those that failed. -/
def Doomed : Job → Prop
  | queued _ _ => True
  | underWay _ (.turning _) _ => True
  | underWay _ (.reading _) _ => False
  | underWay _ (.failing _) _ => True
  | underWay _ (.done report) _ => report.succeeded = false

/-- **With the flag up a scan that has yet to begin is bound to fail.** -/
theorem doomed_move (up : scanner.aborted = true) (failFast : Bool) (doomed : job.Doomed) :
    (job.move scanner failFast).job.Doomed := by
  match job with
  | queued path (.ok source) =>
      simp only [move, Stage.start, Except.map]
      cases (scanner.newSession source.extent.size?).start.reply <;> trivial
  | queued path (.error fault) => trivial
  | underWay path (.turning session) unread => simp [move, Stage.turn, Session.turn, up, Doomed]
  | underWay path (.failing failure) unread => rfl
  | underWay path (.done report) unread => exact doomed

theorem Doomed.succeeded_eq {report : Report} (doomed : job.Doomed) (h : job.report? = some report) :
    report.succeeded = false := by
  match job with
  | underWay path (.done _) unread =>
      obtain rfl := Option.some.inj h
      exact doomed

/-! ## the way to the end -/

/-- An upper bound for the moves up to the end of a job. -/
def remaining (scanner : Scanner) : Job → Nat
  | underWay _ (.reading _) unread => 2 * unread.length + 2
  | underWay _ (.failing _) _ => 1
  | underWay _ (.done _) _ => 0
  | job => job.budget scanner

theorem remaining_conclude (path : String) (session : Session) (unread : List Read) :
    (underWay path (Stage.conclude path session).1 unread).remaining scanner ≤ 1 := by
  unfold Stage.conclude
  generalize session.stop = step
  obtain ⟨reply, state, log⟩ := step
  cases reply with
  | error failure => exact Nat.le_refl _
  | ok answer => exact Nat.zero_le _

theorem remaining_turn (path : String) (aborted : Bool) (session : Session) (unread : List Read) :
    (underWay path (Stage.turn path aborted session).1 unread).remaining scanner ≤
      2 * unread.length + 2 := by
  unfold Stage.turn
  cases session.turn aborted with
  | giveUp => simp [remaining]
  | finish => exact Nat.le_trans (remaining_conclude path session unread) (by omega)
  | read => exact Nat.le_refl _

theorem remaining_receive (path : String) (session : Session) (delivery : Delivery)
    (unread : List Read) :
    (underWay path (Stage.receive path session delivery).1 unread).remaining scanner ≤
      2 * unread.length + 3 := by
  unfold Stage.receive
  cases session.receive delivery with
  | goOn next log => exact Nat.le_refl _
  | streamEnded next => exact Nat.le_trans (remaining_conclude path next unread) (by omega)
  | failed failure => simp [remaining]

/-- **Every move brings the end nearer.** -/
theorem remaining_move (aborted failFast : Bool) :
    (job.move { scanner with aborted } failFast).job.remaining scanner ≤
      job.remaining scanner - 1 := by
  match job with
  | queued path (.ok source) =>
      simp only [move, Stage.start, Except.map]
      cases (({ scanner with aborted } : Scanner).newSession source.extent.size?).start.reply <;>
        simp [remaining, budget]
  | queued path (.error fault) => exact Nat.le_refl _
  | underWay path (.turning session) unread => exact remaining_turn path aborted session unread
  | underWay path (.reading session) [] => exact remaining_conclude path session []
  | underWay path (.reading session) (read :: unread) =>
      exact remaining_receive path session read.delivery unread
  | underWay path (.failing failure) unread => exact Nat.le_refl _
  | underWay path (.done report) unread => exact Nat.le_refl _

/-- At the end there is a report. -/
theorem report?_of_remaining (h : job.remaining scanner = 0) :
    job.report? = some (job.outcome scanner) := by
  match job with
  | queued path (.ok source) => simp [remaining, budget] at h
  | queued path (.error fault) => simp [remaining, budget] at h
  | underWay path (.turning session) unread => simp [remaining, budget] at h
  | underWay path (.reading session) unread => simp [remaining] at h
  | underWay path (.failing failure) unread => simp [remaining] at h
  | underWay path (.done report) unread => rfl

end Job

end AnchorScan
