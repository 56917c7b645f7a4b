import AnchorScan.CommandLine.Machine
import AnchorScan.Proofs.Jobs

/-!
# AnchorScan.Proofs.Batches

Moves of a batch.  A move reads the job that it is a move of and the flag, and changes
nothing else; so a batch falls into parts that go on by themselves, and to scan inputs
one after the other is to scan them as a batch, in one schedule among others.

* `Batch.step_of_getElem?` and `Batch.getElem?_jobs_step`: what one move does;
* `Batch.run_append_left` and `Batch.run_append_right`: the parts of a batch;
* `Machine.reports_scanInputs`: a machine without a log brings the reports of a batch.
-/

namespace AnchorScan

/-- A file to scan: its path, and what opening it brings. -/
structure FileInput where
  path : String
  opened : Except FileFault Source

/-- The scan of a file, yet to begin. -/
def FileInput.job (input : FileInput) : Job := .queued input.path input.opened

/-! ## one move of a batch -/

namespace Batch

/-- The scans of files, none of which has begun. -/
def ofInputs (scanner : Scanner) (failFast : Bool) (inputs : List FileInput) : Batch :=
  { scanner, failFast, jobs := (inputs.map FileInput.job).toArray }

variable {batch : Batch} {index : Nat} {job : Job}

theorem step_of_getElem? (h : batch.jobs[index]? = some job) :
    batch.step index =
      { scanner := { batch.scanner with
          aborted := (job.move batch.scanner batch.failFast).aborted }
        failFast := batch.failFast
        jobs := batch.jobs.setIfInBounds index (job.move batch.scanner batch.failFast).job
        log := batch.log ++ (job.move batch.scanner batch.failFast).log } := by
  obtain ⟨scanner, failFast, jobs, log⟩ := batch
  obtain ⟨hlt, rfl⟩ := Array.getElem?_eq_some_iff.mp h
  have hput (other : Job) : (jobs.swapAt index .vacant hlt).2.setIfInBounds index other =
      jobs.setIfInBounds index other := by simp [Array.setIfInBounds, hlt]
  simp only [step, dif_pos hlt, takeOut, hput]
  rfl

theorem step_of_none (h : batch.jobs[index]? = none) : batch.step index = batch := by
  obtain ⟨scanner, failFast, jobs, log⟩ := batch
  have hlt : ¬ index < jobs.size := by simpa using h
  simp only [step, dif_neg hlt]

/-- A move changes the job that it is a move of, and no other. -/
theorem getElem?_jobs_step (batch : Batch) (index i : Nat) :
    (batch.step index).jobs[i]? =
      if i = index then
        batch.jobs[i]?.map fun job => (job.move batch.scanner batch.failFast).job
      else batch.jobs[i]? := by
  cases hjob : batch.jobs[index]? with
  | none =>
      rw [step_of_none hjob]
      by_cases hi : i = index
      · rw [if_pos hi, hi, hjob]
        rfl
      · rw [if_neg hi]
  | some job =>
      rw [step_of_getElem? hjob]
      by_cases hi : i = index
      · obtain ⟨hlt, -⟩ := Array.getElem?_eq_some_iff.mp hjob
        rw [if_pos hi, hi, hjob, Array.getElem?_setIfInBounds_self_of_lt hlt]
        rfl
      · rw [if_neg hi, Array.getElem?_setIfInBounds_ne (Ne.symm hi)]

theorem scanner_step_of_getElem? (h : batch.jobs[index]? = some job) :
    (batch.step index).scanner =
      { batch.scanner with aborted := (job.move batch.scanner batch.failFast).aborted } := by
  rw [step_of_getElem? h]

/-- The flag never goes down. -/
theorem aborted_step (up : batch.scanner.aborted = true) (index : Nat) :
    (batch.step index).scanner.aborted = true := by
  cases hjob : batch.jobs[index]? with
  | none => rwa [step_of_none hjob]
  | some job =>
      rw [scanner_step_of_getElem? hjob]
      exact Job.aborted_move_of_aborted up batch.failFast job

/-- The report of the job at a position, if it is done. -/
def report? (batch : Batch) (i : Nat) : Option Report := batch.jobs[i]?.bind Job.report?

/-- A report stays as it is. -/
theorem report?_step {i : Nat} {report : Report} (h : batch.report? i = some report) (index : Nat) :
    (batch.step index).report? i = some report := by
  obtain ⟨job, hjob, hreport⟩ := Option.bind_eq_some_iff.mp h
  rw [report?, getElem?_jobs_step, hjob]
  by_cases hi : i = index
  · rw [if_pos hi]
    exact Job.report?_move hreport batch.failFast
  · rw [if_neg hi]
    exact hreport

theorem size_jobs_step (batch : Batch) (index : Nat) :
    (batch.step index).jobs.size = batch.jobs.size := by
  cases hjob : batch.jobs[index]? with
  | none => rw [step_of_none hjob]
  | some job => rw [step_of_getElem? hjob, Array.size_setIfInBounds]

theorem failFast_step (batch : Batch) (index : Nat) :
    (batch.step index).failFast = batch.failFast := by
  cases hjob : batch.jobs[index]? with
  | none => rw [step_of_none hjob]
  | some job => rw [step_of_getElem? hjob]

/-! ## schedules -/

theorem run_cons (batch : Batch) (index : Nat) (schedule : List Nat) :
    batch.run (index :: schedule) = (batch.step index).run schedule := rfl

theorem run_append (batch : Batch) (before after : List Nat) :
    batch.run (before ++ after) = (batch.run before).run after := List.foldl_append

theorem size_jobs_run (batch : Batch) (schedule : List Nat) :
    (batch.run schedule).jobs.size = batch.jobs.size := by
  induction schedule generalizing batch with
  | nil => rfl
  | cons index rest ih => rw [run_cons, ih, size_jobs_step]

theorem failFast_run (batch : Batch) (schedule : List Nat) :
    (batch.run schedule).failFast = batch.failFast := by
  induction schedule generalizing batch with
  | nil => rfl
  | cons index rest ih => rw [run_cons, ih, failFast_step]

/-! ## parts of a batch -/

/-- A batch with other jobs. -/
def withJobs (batch : Batch) (jobs : Array Job) : Batch := { batch with jobs }

section

variable (batch : Batch) (first others : Array Job)

theorem step_append_left {index : Nat} (h : index < first.size) :
    (batch.withJobs (first ++ others)).step index =
      ((batch.withJobs first).step index).withJobs
        (((batch.withJobs first).step index).jobs ++ others) := by
  have hfirst : (batch.withJobs first).jobs[index]? = some first[index] :=
    Array.getElem?_eq_getElem h
  have hall : (batch.withJobs (first ++ others)).jobs[index]? = some first[index] :=
    (Array.getElem?_append_left h).trans hfirst
  rw [step_of_getElem? hfirst, step_of_getElem? hall]
  simp [withJobs, Array.setIfInBounds_append_left h]

theorem step_append_right (index : Nat) :
    (batch.withJobs (first ++ others)).step (first.size + index) =
      ((batch.withJobs others).step index).withJobs
        (first ++ ((batch.withJobs others).step index).jobs) := by
  have hall : (batch.withJobs (first ++ others)).jobs[first.size + index]? =
      (batch.withJobs others).jobs[index]? := by
    simp [withJobs, Array.getElem?_append_right]
  cases hjob : (batch.withJobs others).jobs[index]? with
  | none =>
      rw [step_of_none hjob, step_of_none (hall.trans hjob)]
      rfl
  | some job =>
      rw [step_of_getElem? hjob, step_of_getElem? (hall.trans hjob)]
      simp [withJobs, Array.setIfInBounds_append_right]

/-- Moves of jobs in front are nothing to those behind. -/
theorem run_append_left {schedule : List Nat} (h : ∀ index ∈ schedule, index < first.size) :
    (batch.withJobs (first ++ others)).run schedule =
      ((batch.withJobs first).run schedule).withJobs
        (((batch.withJobs first).run schedule).jobs ++ others) := by
  induction schedule generalizing batch first with
  | nil => rfl
  | cons index rest ih =>
      obtain ⟨hindex, hrest⟩ := List.forall_mem_cons.mp h
      have hsize : ((batch.withJobs first).step index).jobs.size = first.size :=
        size_jobs_step _ index
      rw [run_cons, run_cons, step_append_left _ _ _ hindex]
      exact ih ((batch.withJobs first).step index) _ (hsize ▸ hrest)

/-- Nor are moves of those behind to the jobs in front. -/
theorem run_append_right (schedule : List Nat) :
    (batch.withJobs (first ++ others)).run (schedule.map (first.size + ·)) =
      ((batch.withJobs others).run schedule).withJobs
        (first ++ ((batch.withJobs others).run schedule).jobs) := by
  induction schedule generalizing batch others with
  | nil => rfl
  | cons index rest ih =>
      rw [List.map_cons, run_cons, run_cons, step_append_right]
      exact ih ((batch.withJobs others).step index) _

end

/-! ## one job after the other -/

/-- A batch with another log. -/
def withLog (batch : Batch) (log : Array Event) : Batch := { batch with log }

theorem exists_step_withLog (batch : Batch) (log : Array Event) (index : Nat) :
    ∃ after, (batch.withLog log).step index = (batch.step index).withLog after := by
  cases hjob : batch.jobs[index]? with
  | none =>
      have hlogged : (batch.withLog log).jobs[index]? = none := hjob
      rw [step_of_none hjob, step_of_none hlogged]
      exact ⟨log, rfl⟩
  | some job =>
      have hlogged : (batch.withLog log).jobs[index]? = some job := hjob
      rw [step_of_getElem? hjob, step_of_getElem? hlogged]
      exact ⟨_, rfl⟩

/-- What was logged before makes no difference to jobs and flag. -/
theorem exists_run_withLog (batch : Batch) (log : Array Event) (schedule : List Nat) :
    ∃ after, (batch.withLog log).run schedule = (batch.run schedule).withLog after := by
  induction schedule generalizing batch log with
  | nil => exact ⟨log, rfl⟩
  | cons index rest ih =>
      obtain ⟨middle, hstep⟩ := batch.exists_step_withLog log index
      rw [run_cons, run_cons, hstep]
      exact ih _ middle

/-- Of the scanner, moves change the flag only. -/
theorem exists_scanner_run (batch : Batch) (schedule : List Nat) :
    ∃ aborted, (batch.run schedule).scanner = { batch.scanner with aborted } := by
  induction schedule generalizing batch with
  | nil => exact ⟨batch.scanner.aborted, rfl⟩
  | cons index rest ih =>
      rw [run_cons]
      cases hjob : batch.jobs[index]? with
      | none =>
          rw [step_of_none hjob]
          exact ih batch
      | some job =>
          obtain ⟨aborted, hrest⟩ := ih (batch.step index)
          rw [scanner_step_of_getElem? hjob] at hrest
          exact ⟨aborted, hrest⟩

/-- The schedule that takes the first input, then the others. -/
theorem oneByOne_ofInputs_cons (scanner : Scanner) (failFast : Bool) (input : FileInput)
    (rest : List FileInput) :
    (ofInputs scanner failFast (input :: rest)).oneByOne =
      List.replicate (input.job.budget scanner) 0 ++
        (ofInputs scanner failFast rest).oneByOne.map (1 + ·) := by
  simp [oneByOne, ofInputs, List.zipIdx_cons, List.zipIdx_succ, List.flatMap_map, List.map_flatMap,
    Nat.add_comm]

theorem oneByOne_ofInputs_raised (scanner : Scanner) (aborted failFast : Bool)
    (inputs : List FileInput) :
    (ofInputs { scanner with aborted } failFast inputs).oneByOne =
      (ofInputs scanner failFast inputs).oneByOne := by
  have hbudget (job : Job) : job.budget { scanner with aborted } = job.budget scanner := by
    cases job with
    | queued path opened => cases opened <;> rfl
    | underWay => rfl
  simp [oneByOne, ofInputs, hbudget]

/-- To scan inputs in turn is to scan the first, then the others with the flag that it leaves. -/
theorem reports_oneByOne_cons (scanner : Scanner) (failFast : Bool) (input : FileInput)
    (rest : List FileInput) :
    let alone := ofInputs scanner failFast [input]
    let single := alone.run alone.oneByOne
    let others := ofInputs single.scanner failFast rest
    ((ofInputs scanner failFast (input :: rest)).run
        (ofInputs scanner failFast (input :: rest)).oneByOne).reports =
      single.reports ++ (others.run others.oneByOne).reports := by
  intro alone single others
  have hschedule : alone.oneByOne = List.replicate (input.job.budget scanner) 0 :=
    (oneByOne_ofInputs_cons scanner failFast input []).trans (List.append_nil _)
  have hjobs : ofInputs scanner failFast (input :: rest) =
      alone.withJobs (#[input.job] ++ (rest.map FileInput.job).toArray) := by
    simp [alone, ofInputs, withJobs]
  have hfront : ∀ index ∈ alone.oneByOne, index < #[input.job].size := by
    intro index hindex
    rw [hschedule] at hindex
    rw [List.eq_of_mem_replicate hindex]
    exact Nat.zero_lt_one
  have hsize : single.jobs.size = 1 := size_jobs_run alone _
  have hfast : single.failFast = failFast := failFast_run alone alone.oneByOne
  obtain ⟨aborted, hscanner⟩ := exists_scanner_run alone alone.oneByOne
  -- the others go on with the log of the first, but do not read it
  have hothers : single.withJobs (rest.map FileInput.job).toArray = others.withLog single.log := by
    change Batch.mk single.scanner single.failFast _ _ = Batch.mk single.scanner failFast _ _
    rw [hfast]
    rfl
  have hturns : (ofInputs scanner failFast rest).oneByOne = others.oneByOne := by
    unfold others single
    rw [hscanner]
    exact (oneByOne_ofInputs_raised scanner aborted failFast rest).symm
  obtain ⟨log, hlog⟩ := exists_run_withLog others single.log others.oneByOne
  have hbehind := run_append_right single single.jobs (rest.map FileInput.job).toArray others.oneByOne
  rw [hsize, hothers, hlog] at hbehind
  rw [oneByOne_ofInputs_cons, ← hschedule, hjobs, run_append, run_append_left _ _ _ hfront, hturns]
  refine (congrArg reports hbehind).trans ?_
  simp [reports, withJobs, withLog]

end Batch

/-! ## a machine that scans -/

namespace Machine

variable {machine other : Machine}

/-- Another machine has the same files, and no log is open on it. -/
structure SameFiles (machine other : Machine) : Prop where
  tree_eq : other.tree = machine.tree
  unlogged : other.log = none

theorem SameFiles.source_eq (same : machine.SameFiles other) (unlogged : machine.log = none)
    (catalog : Catalog) (path : String) : other.source catalog path = machine.source catalog path := by
  unfold source lookup logged
  rw [same.tree_eq, same.unlogged, unlogged]

/-- Without a log, to tell of events changes no file. -/
theorem sameFiles_emit (unlogged : machine.log = none) (options : Options) (event : Event) :
    machine.SameFiles ((host.emit options event).run machine).2 := by
  have hwrite (line : String) : machine.writeLog line = machine := by
    unfold writeLog
    rw [unlogged]
  unfold Host.emit
  split
  · split
    · change machine.SameFiles (machine.writeLog _)
      rw [hwrite]
      exact ⟨rfl, unlogged⟩
    · exact ⟨rfl, unlogged⟩
  · exact ⟨rfl, unlogged⟩

theorem sameFiles_emits (unlogged : machine.log = none) (options : Options) (events : List Event) :
    machine.SameFiles ((events.forM (host.emit options)).run machine).2 := by
  induction events generalizing machine with
  | nil => exact ⟨rfl, unlogged⟩
  | cons event rest ih =>
      have hevent := sameFiles_emit unlogged options event
      have hrest := ih hevent.unlogged
      exact ⟨hrest.tree_eq.trans hevent.tree_eq, hrest.unlogged⟩

/-- **A machine without a log brings the reports of a batch**, in the schedule that takes one
input after the other. -/
theorem reports_scanInputs (unlogged : machine.log = none) (options : Options) (failFast : Bool)
    (scanner : Scanner) (paths : List String) :
    let inputs := paths.map fun path => FileInput.mk path (machine.source scanner.catalog path)
    let batch := Batch.ofInputs scanner failFast inputs
    ((scanInputs failFast (host.emit options) scanner paths).run machine).1 =
      (batch.run batch.oneByOne).reports := by
  induction paths generalizing machine scanner with
  | nil => rfl
  | cons path rest ih =>
      intro inputs batch
      let alone := Batch.ofInputs scanner failFast [⟨path, machine.source scanner.catalog path⟩]
      let single := alone.run alone.oneByOne
      let later := ((single.log.toList.forM (host.emit options)).run machine).2
      have hfirst : ((scanInputs failFast (host.emit options) scanner (path :: rest)).run machine).1 =
          single.reports ++
            ((scanInputs failFast (host.emit options) single.scanner rest).run later).1 := rfl
      have same : machine.SameFiles later := sameFiles_emits unlogged options single.log.toList
      obtain ⟨aborted, hscanner⟩ := Batch.exists_scanner_run alone alone.oneByOne
      have hcatalog : single.scanner.catalog = scanner.catalog := by
        unfold single
        rw [hscanner]
        rfl
      have hinputs : (rest.map fun path =>
            FileInput.mk path (later.source single.scanner.catalog path)) =
          rest.map fun path => ⟨path, machine.source scanner.catalog path⟩ := by
        simp only [hcatalog, same.source_eq unlogged]
      rw [hfirst, ih same.unlogged single.scanner, hinputs]
      exact (Batch.reports_oneByOne_cons scanner failFast _ _).symm

end Machine

end AnchorScan
