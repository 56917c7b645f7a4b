import AnchorScan.Report

/-!
# AnchorScan.Scanner.Batch

Scans of several files that go on side by side and share one abort flag.  The
scan of a file is a sequence of small moves: it begins with opening the file,
then looks at the flag and reads in turns, and ends in a report; a scan that
fails is logged, and raises the flag if the others are not worth finishing
either.  A schedule says whose move is next, and any schedule is allowed; the
moves read nothing that is shared but the flag.
-/

namespace AnchorScan

/-! ## the moves of one scan -/

/-- Where the scan of a file stands. -/
inductive Stage where
  /-- About to look at the flag. -/
  | turning (session : Session)
  /-- About to read. -/
  | reading (session : Session)
  /-- About to tell what went wrong. -/
  | failing (failure : Failure)
  | done (report : Report)

namespace Stage

/-- Stops the session of a scan that came to its end. -/
def conclude (path : String) (session : Session) : Stage × List Event :=
  let step := session.stop
  match step.reply with
  | .ok () => (done (Report.ofSession path step.state), step.log)
  | .error failure => (failing failure, step.log)

/-- The first move, given the size that opening the file brought. -/
def start (scanner : Scanner) (path : String) (opened : Except FileFault (Option Nat)) :
    Stage × List Event :=
  match opened with
  | .error fault => (failing (.file fault), [])
  | .ok size =>
    let step := (scanner.newSession size).start
    match step.reply with
    | .ok () => (turning step.state, .scanning path size :: step.log)
    | .error failure => (failing failure, .scanning path size :: step.log)

/-- The move that looks at the flag. -/
def turn (path : String) (aborted : Bool) (session : Session) : Stage × List Event :=
  match session.turn aborted with
  | .giveUp => (failing .aborted, [.aborted session.cursor])
  | .finish =>
    let (stage, log) := conclude path session
    (stage, .allResolved session.cursor :: log)
  | .read => (reading session, [])

/-- The move that takes in what a read brought. -/
def receive (path : String) (session : Session) (delivery : Delivery) : Stage × List Event :=
  match session.receive delivery with
  | .goOn session log => (turning session, log)
  | .streamEnded session => conclude path session
  | .failed failure => (failing failure, [])

/-- The move that tells what went wrong. -/
def fail (path : String) (failure : Failure) : Stage × List Event :=
  (done (Report.ofFailure path failure), [.scanFailed path failure])

end Stage

/-! ## batches -/

/-- The scan of one file of a batch. -/
inductive Job where
  | queued (path : String) (opened : Except FileFault Source)
  | underWay (path : String) (stage : Stage) (unread : List Read)

/-- Stands in for a job that is elsewhere. -/
def Job.vacant : Job := queued "" (.error .notFound)

/-- A job after a move, the flag, and the events of the move. -/
structure Move where
  job : Job
  aborted : Bool
  log : List Event

namespace Job

/-- The job's next move.  A job that is done stays as it is. -/
def move (scanner : Scanner) (failFast : Bool) : Job → Move
  | queued path opened =>
    let (stage, log) :=
      Stage.start scanner path (opened.map fun source => source.extent.size?)
    let unread := match opened with
      | .ok source => source.reads scanner.buffer.octets
      | .error _ => []
    ⟨underWay path stage unread, scanner.aborted, log⟩
  | underWay path (.turning session) unread =>
    let (stage, log) := Stage.turn path scanner.aborted session
    ⟨underWay path stage unread, scanner.aborted, log⟩
  | underWay path (.reading session) [] =>
    let (stage, log) := Stage.conclude path session
    ⟨underWay path stage [], scanner.aborted, log⟩
  | underWay path (.reading session) (read :: unread) =>
    let (stage, log) := Stage.receive path session read.delivery
    ⟨underWay path stage unread, scanner.aborted || read.raisesAbort, log⟩
  | underWay path (.failing failure) unread =>
    let (stage, log) := Stage.fail path failure
    ⟨underWay path stage unread, scanner.aborted || failFast, log⟩
  | underWay path (.done report) unread =>
    ⟨underWay path (.done report) unread, scanner.aborted, []⟩

/-- The report of a job that is done. -/
def report? : Job → Option Report
  | underWay _ (.done report) _ => some report
  | _ => none

/-- As many moves as bring the job to its end, if nobody else moves: it begins,
looks at the flag and reads for every answer of the reader and once more, and
fails. -/
def budget (scanner : Scanner) : Job → Nat
  | queued _ (.ok source) => 2 * (source.reads scanner.buffer.octets).length + 4
  | queued _ (.error _) => 2
  | underWay _ _ unread => 2 * unread.length + 3

end Job

/-- Scans that go on side by side. -/
structure Batch where
  scanner : Scanner
  /-- Whether the first failure calls off the other scans. -/
  failFast : Bool
  jobs : Array Job
  log : Array Event := #[]

namespace Batch

/-- Takes the job at a position out of an array, so that it can change in
place. -/
@[noinline]
def takeOut (jobs : Array Job) (index : Nat) (h : index < jobs.size) : Job × Array Job :=
  jobs.swapAt index .vacant h

/-- One move of the job at a position. -/
def step : Batch → Nat → Batch
  | ⟨scanner, failFast, jobs, log⟩, index =>
    if h : index < jobs.size then
      let (job, jobs) := takeOut jobs index h
      let ⟨job, aborted, events⟩ := job.move scanner failFast
      ⟨{ scanner with aborted }, failFast, jobs.setIfInBounds index job, log ++ events⟩
    else ⟨scanner, failFast, jobs, log⟩

/-- The moves of a schedule, which names the jobs by their positions. -/
def run (batch : Batch) (schedule : List Nat) : Batch := schedule.foldl step batch

/-- The schedule that brings one job after the other to its end. -/
def oneByOne (batch : Batch) : List Nat :=
  batch.jobs.toList.zipIdx.flatMap fun (job, index) =>
    List.replicate (job.budget batch.scanner) index

/-- The reports of the jobs that are done, in the order of the jobs. -/
def reports (batch : Batch) : List Report := batch.jobs.toList.filterMap Job.report?

end Batch

end AnchorScan
