import AnchorScan.Proofs.Batches
import Mathlib

/-!
# AnchorScan.Proofs.SideBySide

Scans of several files at once, under any schedule and so for any number of workers:
each move of a job changes nothing that others can see but the flag.

* `Batch.Tracks`: every job is on its way to the report that its input has alone, or the
  flag is up and called it off; and the flag is up because some scan failed by itself;
* `Batch.Tracks.step` and `Batch.Tracks.run`: one move keeps this, and so does a schedule;
* `Batch.complete_run`: a schedule that names every job often enough finishes all;
* `Host.scan_ends`: how a run ends on the reports that its scans bring; those of a machine
  without a log are the reports of a batch (`Machine.reports_announced`);
* `Batch.run_settles`: what the reports of a finished batch are, and how a run ends that
  hands them on.
-/

namespace AnchorScan

/-! ## failures and their reports -/

theorem not_begins_append {opening : String} {text : List Char} (h : ¬ opening.toList <+: text)
    (rest : String) : ¬ (opening ++ rest).toList <+: text := by
  intro hbegins
  rw [String.toList_append] at hbegins
  exact h ((List.prefix_append opening.toList rest.toList).trans hbegins)

/-- No other failure is told in the words of a scan that was called off. -/
theorem Failure.eq_aborted_of_message {failure : Failure}
    (h : failure.message = aborted.message) : failure = .aborted := by
  have hbegins : failure.message.toList <+: "Scan aborted".toList := by
    rw [h]
    exact List.prefix_rfl
  -- Unfolding `message` would compare its texts letter by letter, so only their beginnings are.
  cases failure with
  | aborted => rfl
  | startedBefore => exact absurd h (by decide)
  | unstarted => exact absurd h (by decide)
  | closed => exact absurd h (by decide)
  | sizeUnknown count =>
      exact absurd hbegins (not_begins_append (not_begins_append (by decide) _) _)
  | unreadableLine line reason =>
      exact absurd hbegins
        (not_begins_append (not_begins_append (not_begins_append (by decide) _) _) _)
  | _ => exact absurd hbegins (not_begins_append (by decide) _)

theorem Report.ofFailure_ne_aborted {failure : Failure} (h : failure ≠ .aborted)
    (path other : String) : ofFailure path failure ≠ ofFailure other .aborted := by
  intro heq
  have herror := congrArg Report.error heq
  exact h (Failure.eq_aborted_of_message (Option.some.inj herror))

/-! ## files to scan -/

/-- Nobody raises the flag while the file is read. -/
def FileInput.Quiet (scanner : Scanner) (input : FileInput) : Prop :=
  ∀ read ∈ scanner.readsOf (.file input.path input.opened), read.raisesAbort = false

/-- The catalog is as registrations make it, and nobody but a failure calls the scans of the
inputs off. -/
structure Scanner.Ready (scanner : Scanner) (inputs : List FileInput) : Prop where
  laidOut : scanner.catalog.LaidOut
  down : scanner.aborted = false
  quiet : ∀ input ∈ inputs, input.Quiet scanner

/-- The report of a file that is scanned on its own. -/
def Scanner.reportOf (scanner : Scanner) (input : FileInput) : Report :=
  .ofReply input.path (scanner.scanSource input.path input.opened).reply

/-- A scan on its own is not called off. -/
theorem Scanner.Ready.reportOf_ne_aborted {scanner : Scanner} {inputs : List FileInput}
    (ready : scanner.Ready inputs) {input : FileInput} (hinput : input ∈ inputs) :
    scanner.reportOf input ≠ .ofFailure input.path .aborted := by
  obtain ⟨used, hreads, heeds⟩ := scan_heedsFlag ready.laidOut (.file input.path input.opened)
  have hreply : (scanner.scanSource input.path input.opened).reply ≠ .error .aborted := by
    intro h
    obtain ⟨-, hup | ⟨before, read, hused, hraises, -⟩⟩ := heeds.of_aborted h
    · rw [ready.down] at hup
      contradiction
    · have hmem : read ∈ scanner.readsOf (.file input.path input.opened) := by
        rw [hreads, hused]
        simp
      rw [ready.quiet input hinput read hmem] at hraises
      contradiction
  unfold reportOf
  cases hscan : (scanner.scanSource input.path input.opened).reply with
  | ok session => simp [Report.ofReply, Report.ofSession, Report.ofFailure]
  | error failure =>
      refine Report.ofFailure_ne_aborted (fun h => hreply ?_) input.path input.path
      rw [hscan, h]

/-! ## what every move keeps -/

/-- A job is on its way to the report of its input alone, or the flag is up and it was
called off. -/
structure Job.Tracks (scanner : Scanner) (aborted : Bool) (input : FileInput) (job : Job) :
    Prop where
  path_eq : job.path = input.path
  quiet : ∀ read ∈ job.unread scanner, read.raisesAbort = false
  outcome_eq : job.outcome scanner = scanner.reportOf input ∨
    aborted = true ∧ job.outcome scanner = .ofFailure input.path .aborted

section

variable {scanner : Scanner} {aborted : Bool} {input : FileInput} {job : Job}

theorem FileInput.tracks (quiet : input.Quiet scanner) (aborted : Bool) :
    input.job.Tracks scanner aborted input := ⟨rfl, quiet, .inl rfl⟩

/-- The flag may go up meanwhile. -/
theorem Job.Tracks.mono (tracks : job.Tracks scanner aborted input) {raised : Bool}
    (h : aborted = true → raised = true) : job.Tracks scanner raised input where
  path_eq := tracks.path_eq
  quiet := tracks.quiet
  outcome_eq := tracks.outcome_eq.imp_right fun ⟨up, houtcome⟩ => ⟨h up, houtcome⟩

theorem Job.Tracks.move (tracks : job.Tracks scanner aborted input)
    (down : scanner.aborted = false) (failFast : Bool) :
    (job.move { scanner with aborted } failFast).job.Tracks scanner aborted input where
  path_eq := (path_move _ failFast job).trans tracks.path_eq
  quiet read h := tracks.quiet read (mem_unread_of_move h)
  outcome_eq := by
    rcases outcome_move down tracks.quiet aborted failFast with hkept | ⟨up, hcalledOff⟩
    · rw [hkept]
      exact tracks.outcome_eq
    · rw [tracks.path_eq] at hcalledOff
      exact .inr ⟨up, hcalledOff⟩

end

namespace Batch

/-- The jobs of a batch track their inputs; and the flag is up only because a scan failed
that was not called off itself. -/
structure Tracks (scanner : Scanner) (inputs : List FileInput) (batch : Batch) : Prop where
  scanner_eq : batch.scanner = { scanner with aborted := batch.scanner.aborted }
  size_eq : batch.jobs.size = inputs.length
  tracks_job : ∀ (i : Nat) (job : Job) (input : FileInput), batch.jobs[i]? = some job →
    inputs[i]? = some input → job.Tracks scanner batch.scanner.aborted input
  raised : batch.scanner.aborted = true → batch.failFast = true ∧
    ∃ (i : Nat) (input : FileInput) (failure : Failure), inputs[i]? = some input ∧
      failure ≠ .aborted ∧ batch.report? i = some (.ofFailure input.path failure)

variable {scanner : Scanner} {inputs : List FileInput} {batch : Batch} {index : Nat} {job : Job}
  {input : FileInput}

theorem tracks_ofInputs (ready : scanner.Ready inputs) (failFast : Bool) :
    (ofInputs scanner failFast inputs).Tracks scanner inputs where
  scanner_eq := rfl
  size_eq := by simp [ofInputs]
  tracks_job i job input hjob hinput := by
    obtain rfl : input.job = job := by simpa [ofInputs, hinput] using hjob
    exact FileInput.tracks (ready.quiet input (List.mem_of_getElem? hinput)) _
  raised up := by
    have hdown : (ofInputs scanner failFast inputs).scanner.aborted = false := ready.down
    rw [hdown] at up
    contradiction

theorem Tracks.move (tracks : batch.Tracks scanner inputs) (ready : scanner.Ready inputs)
    (hjob : batch.jobs[index]? = some job) (hinput : inputs[index]? = some input) :
    (job.move batch.scanner batch.failFast).job.Tracks scanner batch.scanner.aborted input := by
  rw [tracks.scanner_eq]
  exact (tracks.tracks_job index job input hjob hinput).move ready.down batch.failFast

/-- Who raises the flag has failed, and was not called off. -/
theorem Tracks.raises (tracks : batch.Tracks scanner inputs) (ready : scanner.Ready inputs)
    (hjob : batch.jobs[index]? = some job) (hinput : inputs[index]? = some input)
    (hdown : batch.scanner.aborted = false)
    (up : (job.move batch.scanner batch.failFast).aborted = true) :
    batch.failFast = true ∧ ∃ failure, failure ≠ .aborted ∧
      (batch.step index).report? index = some (.ofFailure input.path failure) := by
  have htracks := tracks.tracks_job index job input hjob hinput
  have hquiet : ∀ read ∈ job.unread batch.scanner, read.raisesAbort = false := by
    rw [tracks.scanner_eq]
    exact htracks.quiet
  obtain ⟨hfast, path, failure, unread, rfl⟩ := Job.aborted_move hdown hquiet up
  obtain rfl : path = input.path := htracks.path_eq
  have hreport : scanner.reportOf input = .ofFailure input.path failure := by
    rcases htracks.outcome_eq with houtcome | ⟨hup, -⟩
    · exact houtcome.symm
    · rw [hdown] at hup
      contradiction
  refine ⟨hfast, failure, ?_, ?_⟩
  · rintro rfl
    exact ready.reportOf_ne_aborted (List.mem_of_getElem? hinput) hreport
  · rw [report?, getElem?_jobs_step, if_pos rfl, hjob]
    rfl

/-- **Every move of every job keeps the batch on its tracks.** -/
theorem Tracks.step (tracks : batch.Tracks scanner inputs) (ready : scanner.Ready inputs)
    (index : Nat) : (batch.step index).Tracks scanner inputs := by
  cases hjob : batch.jobs[index]? with
  | none => rwa [step_of_none hjob]
  | some job =>
      obtain ⟨hlt, -⟩ := Array.getElem?_eq_some_iff.mp hjob
      rw [tracks.size_eq] at hlt
      have hinput : inputs[index]? = some inputs[index] := List.getElem?_eq_getElem hlt
      constructor
      case scanner_eq =>
        rw [scanner_step_of_getElem? hjob, tracks.scanner_eq]
      case size_eq => rw [size_jobs_step, tracks.size_eq]
      case tracks_job =>
        intro i other input hother hi
        rw [getElem?_jobs_step] at hother
        by_cases heq : i = index
        · subst heq
          rw [if_pos rfl, hjob] at hother
          obtain rfl := Option.some.inj hother
          exact (tracks.move ready hjob hi).mono fun up => aborted_step up i
        · rw [if_neg heq] at hother
          exact (tracks.tracks_job i other input hother hi).mono fun up => aborted_step up index
      case raised =>
        intro up
        rw [failFast_step]
        -- Either the flag was up before, or this move raised it.
        by_cases hup : batch.scanner.aborted = true
        · obtain ⟨hfast, i, input, failure, hi, hfailure, hreport⟩ := tracks.raised hup
          exact ⟨hfast, i, input, failure, hi, hfailure, report?_step hreport index⟩
        · rw [scanner_step_of_getElem? hjob] at up
          obtain ⟨hfast, failure, hfailure, hreport⟩ :=
            tracks.raises ready hjob hinput (Bool.eq_false_iff.mpr hup) up
          exact ⟨hfast, index, _, failure, hinput, hfailure, hreport⟩

/-! ## whole schedules -/

/-- **So does every schedule.** -/
theorem Tracks.run (tracks : batch.Tracks scanner inputs) (ready : scanner.Ready inputs)
    (schedule : List Nat) : (batch.run schedule).Tracks scanner inputs := by
  induction schedule generalizing batch with
  | nil => exact tracks
  | cons index rest ih => exact ih (tracks.step ready index)

/-- A job that is bound to fail stays so. -/
theorem doomed_run (up : batch.scanner.aborted = true) {i : Nat} (hjob : batch.jobs[i]? = some job)
    (doomed : job.Doomed) (schedule : List Nat) :
    ∃ last, (batch.run schedule).jobs[i]? = some last ∧ last.Doomed := by
  induction schedule generalizing batch job with
  | nil => exact ⟨job, hjob, doomed⟩
  | cons index rest ih =>
      have hstep := getElem?_jobs_step batch index i
      rw [hjob, Option.map_some] at hstep
      by_cases hi : i = index
      · rw [if_pos hi] at hstep
        exact ih (aborted_step up index) hstep (Job.doomed_move up batch.failFast doomed)
      · rw [if_neg hi] at hstep
        exact ih (aborted_step up index) hstep doomed

/-- Every mention in a schedule brings a job nearer to its end. -/
theorem remaining_run (tracks : batch.Tracks scanner inputs) (ready : scanner.Ready inputs) {i : Nat}
    (hjob : batch.jobs[i]? = some job) (schedule : List Nat) :
    ∃ last, (batch.run schedule).jobs[i]? = some last ∧
      last.remaining scanner ≤ job.remaining scanner - schedule.count i := by
  induction schedule generalizing batch job with
  | nil => exact ⟨job, hjob, Nat.le_refl _⟩
  | cons index rest ih =>
      have hstep := getElem?_jobs_step batch index i
      have hnext := tracks.step ready index
      rw [hjob, Option.map_some] at hstep
      by_cases hi : i = index
      · rw [if_pos hi] at hstep
        obtain ⟨last, hlast, hremaining⟩ := ih hnext hstep
        have hmove : (job.move batch.scanner batch.failFast).job.remaining scanner ≤
            job.remaining scanner - 1 := by
          rw [tracks.scanner_eq]
          exact Job.remaining_move _ _
        refine ⟨last, hlast, ?_⟩
        rw [hi, List.count_cons_self]
        rw [hi] at hremaining
        omega
      · rw [if_neg hi] at hstep
        rw [List.count_cons_of_ne (Ne.symm hi)]
        exact ih hnext hstep

/-! ## the reports of a batch -/

/-- Whether every job is done. -/
def Complete (batch : Batch) : Prop := ∀ job ∈ batch.jobs, job.report?.isSome = true

theorem Complete.report?_eq (complete : batch.Complete) (hjob : job ∈ batch.jobs)
    (scanner : Scanner) : job.report? = some (job.outcome scanner) := by
  obtain ⟨report, hreport⟩ := Option.isSome_iff_exists.mp (complete job hjob)
  rw [hreport, Job.outcome_of_report? hreport]

theorem Complete.reports_eq (complete : batch.Complete) (scanner : Scanner) :
    batch.reports = batch.jobs.toList.map (Job.outcome scanner) := by
  have hreport : ∀ job ∈ batch.jobs.toList, job.report? = some (job.outcome scanner) :=
    fun job hjob => complete.report?_eq (Array.mem_toList_iff.mp hjob) scanner
  rw [reports, List.filterMap_congr hreport, List.filterMap_eq_map']

theorem Complete.getElem?_reports (complete : batch.Complete) (i : Nat) :
    batch.reports[i]? = batch.report? i := by
  rw [complete.reports_eq batch.scanner, List.getElem?_map, Array.getElem?_toList, report?]
  cases hjob : batch.jobs[i]? with
  | none => rfl
  | some job => exact (complete.report?_eq (Array.mem_of_getElem? hjob) batch.scanner).symm

/-- Every input has its report, its own or that of a scan that was called off. -/
theorem Tracks.exists_report (tracks : batch.Tracks scanner inputs) (complete : batch.Complete)
    {i : Nat} (hinput : inputs[i]? = some input) :
    ∃ report, batch.reports[i]? = some report ∧ (report = scanner.reportOf input ∨
      batch.scanner.aborted = true ∧ report = .ofFailure input.path .aborted) := by
  obtain ⟨hlt, -⟩ := List.getElem?_eq_some_iff.mp hinput
  rw [← tracks.size_eq] at hlt
  have hjob : batch.jobs[i]? = some batch.jobs[i] := Array.getElem?_eq_getElem hlt
  refine ⟨_, ?_, (tracks.tracks_job i _ input hjob hinput).outcome_eq⟩
  rw [complete.reports_eq scanner, List.getElem?_map, Array.getElem?_toList, hjob]
  rfl

theorem Tracks.length_reports (tracks : batch.Tracks scanner inputs) (complete : batch.Complete) :
    batch.reports.length = inputs.length := by
  rw [complete.reports_eq scanner, List.length_map, Array.length_toList, tracks.size_eq]

/-- Where no failure calls off other scans, every input has the report that it has alone. -/
theorem Tracks.reports_eq (tracks : batch.Tracks scanner inputs) (complete : batch.Complete)
    (patient : batch.failFast = false) : batch.reports = inputs.map scanner.reportOf := by
  apply List.ext_getElem?
  intro i
  rw [List.getElem?_map]
  cases hinput : inputs[i]? with
  | none =>
      rw [List.getElem?_eq_none_iff] at hinput
      rw [List.getElem?_eq_none (by rwa [tracks.length_reports complete])]
      rfl
  | some input =>
      obtain ⟨report, hreport, rfl | ⟨up, -⟩⟩ := tracks.exists_report complete hinput
      · exact hreport
      · have hfast := (tracks.raised up).1
        rw [patient] at hfast
        contradiction

/-- A scan is called off only because another failed that was not. -/
theorem Tracks.exists_failed (tracks : batch.Tracks scanner inputs) (complete : batch.Complete)
    (ready : scanner.Ready inputs) {i : Nat} (hinput : inputs[i]? = some input)
    (h : batch.reports[i]? = some (.ofFailure input.path .aborted)) :
    ∃ (j : Nat) (other : FileInput) (failure : Failure), j ≠ i ∧ inputs[j]? = some other ∧
      failure ≠ .aborted ∧ batch.reports[j]? = some (.ofFailure other.path failure) := by
  obtain ⟨report, hreport, hcase⟩ := tracks.exists_report complete hinput
  obtain rfl := Option.some.inj (h.symm.trans hreport)
  rcases hcase with halone | ⟨up, -⟩
  · exact absurd halone.symm (ready.reportOf_ne_aborted (List.mem_of_getElem? hinput))
  · obtain ⟨-, j, other, failure, hother, hfailure, hfailed⟩ := tracks.raised up
    rw [← complete.getElem?_reports] at hfailed
    -- It is not the same scan, since the two failures are told in other words.
    refine ⟨j, other, failure, ?_, hother, hfailure, hfailed⟩
    rintro rfl
    exact Report.ofFailure_ne_aborted hfailure _ _ (Option.some.inj (hfailed.symm.trans h))

/-- A scan that begins with the flag up fails. -/
theorem succeeded_of_doomed (up : batch.scanner.aborted = true) {i : Nat}
    (hjob : batch.jobs[i]? = some job) (doomed : job.Doomed) {schedule : List Nat}
    (complete : (batch.run schedule).Complete) {report : Report}
    (hreport : (batch.run schedule).reports[i]? = some report) : report.succeeded = false := by
  obtain ⟨last, hlast, hdoomed⟩ := doomed_run up hjob doomed schedule
  rw [complete.getElem?_reports, Batch.report?, hlast] at hreport
  exact hdoomed.succeeded_eq hreport

end Batch

/-! ## the end of a run -/

/-- How a run ends: with an error that counts the failed reports, if there are any. -/
theorem verdict_eq (reports : List Report) :
    verdict reports =
      if (reports.filter (·.error.isSome)).length = 0 then .ok ()
      else .error [toString (reports.filter (·.error.isSome)).length ++
        " input(s) could not be scanned"] := by
  have hcount : Report.failureCount reports = (reports.filter (·.error.isSome)).length := by
    simp [Report.failureCount, Report.succeeded]
  rw [← hcount]
  unfold verdict
  split
  · next h => rw [if_pos h]
  · next h => rw [if_neg h]

/-- What a run says before it scans its inputs. -/
def Host.announce {m : Type → Type} [Monad m] (host : Host m) (options : Options)
    (settings : Settings) (catalog : Catalog) : m Unit := do
  if catalog.size = 0 then host.emit options (.noSignatures settings.signaturesFile)
  host.emit options (.loaded catalog.size)

/-- A run ends with the verdict on the reports that scanning its inputs brings, in the state
that it has come to by then. -/
theorem Host.scan_ends {σ : Type} {host : Host (StateM σ)} {options : Options}
    {settings : Settings} {catalog : Catalog} {scanner : Scanner} {reports : List Report} {state : σ}
    (hscanner : settings.scanner catalog = .ok scanner)
    (hreports : ((host.scanInputs scanner settings.threads options.failFast (host.emit options)
      options.inputs.toList).run ((host.announce options settings catalog).run state).2).1 =
        reports) :
    ((host.scan options settings catalog).run state).1 = verdict reports := by
  unfold Host.announce at hreports
  unfold Host.scan
  simp only [hscanner]
  by_cases empty : catalog.size = 0
  · simp only [empty, if_true] at hreports ⊢
    exact congrArg verdict hreports
  · simp only [empty, if_false] at hreports ⊢
    exact congrArg verdict hreports

/-- On a machine without a log, scanning brings the reports of a batch. -/
theorem Machine.reports_announced {machine : Machine} (unlogged : machine.log = none)
    (options : Options) (settings : Settings) (catalog : Catalog) (scanner : Scanner) :
    let inputs := options.inputs.toList.map fun path =>
      FileInput.mk path (machine.source scanner.catalog path)
    let batch := Batch.ofInputs scanner options.failFast inputs
    ((host.scanInputs scanner settings.threads options.failFast (host.emit options)
        options.inputs.toList).run ((host.announce options settings catalog).run machine).2).1 =
      (batch.run batch.oneByOne).reports := by
  intro inputs batch
  have same : machine.SameFiles ((host.announce options settings catalog).run machine).2 := by
    unfold Host.announce
    split
    · exact sameFiles_emits unlogged options [.noSignatures settings.signaturesFile, .loaded _]
    · exact sameFiles_emit unlogged options (.loaded _)
  have hinputs := List.map_congr_left (l := options.inputs.toList) fun path _ =>
    congrArg (FileInput.mk path) (same.source_eq unlogged scanner.catalog path)
  refine (reports_scanInputs same.unlogged options options.failFast scanner _).trans ?_
  rw [hinputs]

/-! ## batches under any schedule -/

namespace Batch

/-- What the reports of a batch over inputs are, whatever the schedule. -/
structure Settled (scanner : Scanner) (failFast : Bool) (inputs : List FileInput)
    (schedule : List Nat) (reports : List Report) : Prop where
  length_eq : reports.length = inputs.length
  /-- Where no failure calls off other scans, every input has the report that it has alone. -/
  patient : failFast = false → reports = inputs.map scanner.reportOf
  alone_or_aborted : ∀ (i : Nat) (input : FileInput) (report : Report), inputs[i]? = some input →
    reports[i]? = some report →
      report = scanner.reportOf input ∨ failFast = true ∧ report = .ofFailure input.path .aborted
  /-- A scan is called off only because another failed, and not by being called off. -/
  of_aborted : ∀ (i : Nat) (input : FileInput), inputs[i]? = some input →
    reports[i]? = some (.ofFailure input.path .aborted) →
      ∃ (j : Nat) (other : FileInput) (failure : Failure), j ≠ i ∧ inputs[j]? = some other ∧
        failure ≠ .aborted ∧ reports[j]? = some (.ofFailure other.path failure)
  /-- A scan that begins with the flag up fails. -/
  late : ∀ (before after : List Nat) (i : Nat) (path : String) (opened : Except FileFault Source)
    (report : Report), schedule = before ++ after →
      ((ofInputs scanner failFast inputs).run before).scanner.aborted = true →
      ((ofInputs scanner failFast inputs).run before).jobs[i]? = some (.queued path opened) →
      reports[i]? = some report → report.succeeded = false
  /-- A run over the inputs, on a host that in the state of its scans brings these reports, ends
  with an error that counts the failed ones, if there are any. -/
  ends : ∀ (σ : Type) (host : Host (StateM σ)) (options : Options) (settings : Settings)
    (catalog : Catalog) (state : σ),
      let asked := { options with failFast, inputs := (inputs.map FileInput.path).toArray }
      settings.scanner catalog = .ok scanner →
      ((host.scanInputs scanner settings.threads failFast (host.emit asked)
        (inputs.map FileInput.path)).run ((host.announce asked settings catalog).run state).2).1 =
          reports →
      ((host.scan asked settings catalog).run state).1 =
        if (reports.filter (·.error.isSome)).length = 0 then .ok ()
        else .error [toString (reports.filter (·.error.isSome)).length ++
          " input(s) could not be scanned"]

variable {scanner : Scanner} {inputs : List FileInput} {batch : Batch}

/-- A schedule that names every job often enough brings all of them to their end. -/
theorem complete_run (ready : scanner.Ready inputs) (failFast : Bool) {schedule : List Nat}
    (h : ∀ (i : Nat) (input : FileInput), inputs[i]? = some input →
      input.job.budget scanner ≤ schedule.count i) :
    ((ofInputs scanner failFast inputs).run schedule).Complete := by
  have tracks := tracks_ofInputs ready failFast
  have hsize := (tracks.run ready schedule).size_eq
  intro last hlast
  obtain ⟨i, hi, hget⟩ := Array.mem_iff_getElem.mp hlast
  rw [hsize] at hi
  have hinput : inputs[i]? = some inputs[i] := List.getElem?_eq_getElem hi
  have hjob : (ofInputs scanner failFast inputs).jobs[i]? = some inputs[i].job := by
    simp [ofInputs, hinput]
  obtain ⟨job, hjob', hremaining⟩ := remaining_run tracks ready hjob schedule
  have hbudget : inputs[i].job.remaining scanner ≤ schedule.count i := h i _ hinput
  have hzero : job.remaining scanner = 0 := by omega
  have hsame : some last = some job := by
    rw [← hjob', ← hget]
    exact (Array.getElem?_eq_getElem _).symm
  rw [Option.some.inj hsame, Job.report?_of_remaining hzero]
  rfl

/-- **Scans side by side do not depend on the schedule.**  Every schedule that goes on long
enough finishes all of them, and the reports of a finished batch are those of the inputs
alone, but for scans that a failure called off. -/
theorem run_settles (built : scanner.catalog.Built) (down : scanner.aborted = false)
    (quiet : ∀ input ∈ inputs, input.Quiet scanner) (failFast : Bool) (schedule : List Nat) :
    ((∀ (i : Nat) (input : FileInput), inputs[i]? = some input →
        input.job.budget scanner ≤ schedule.count i) →
      ((ofInputs scanner failFast inputs).run schedule).Complete) ∧
    (((ofInputs scanner failFast inputs).run schedule).Complete →
      Settled scanner failFast inputs schedule
        ((ofInputs scanner failFast inputs).run schedule).reports) := by
  have ready : scanner.Ready inputs := ⟨built.laidOut, down, quiet⟩
  have tracks := (tracks_ofInputs ready failFast).run ready schedule
  refine ⟨complete_run ready failFast, fun complete => ?_⟩
  have hfast : ((ofInputs scanner failFast inputs).run schedule).failFast = failFast :=
    failFast_run _ schedule
  constructor
  case length_eq => exact tracks.length_reports complete
  case patient => exact fun patient => tracks.reports_eq complete (hfast.trans patient)
  case alone_or_aborted =>
    intro i input report hinput hreport
    obtain ⟨report', hreport', hcase⟩ := tracks.exists_report complete hinput
    obtain rfl := Option.some.inj (hreport.symm.trans hreport')
    exact hcase.imp_right fun ⟨up, haborted⟩ => ⟨hfast.symm.trans (tracks.raised up).1, haborted⟩
  case of_aborted =>
    intro i input hinput h
    exact tracks.exists_failed complete ready hinput h
  case late =>
    intro before after i path opened report hschedule up hjob hreport
    subst hschedule
    rw [run_append] at complete hreport
    exact succeeded_of_doomed up hjob trivial complete hreport
  case ends =>
    intro σ host options settings catalog state asked hscanner hreports
    rw [Host.scan_ends hscanner hreports, verdict_eq]

/-- A missing file calls off the scan of another that has begun, and of one that begins later;
a machine that scans one after the other brings the same reports, and fails for all three. -/
theorem run_settles_sample :
    let scanner : Scanner := { catalog := Catalog.sample, buffer := ⟨2, by decide, by decide⟩ }
    let inputs : List FileInput := [⟨"a", .error .notFound⟩,
      ⟨"b", .ok (.regular [0, 1, 2, 3, 4])⟩, ⟨"b", .ok (.regular [0, 1, 2, 3, 4])⟩]
    let schedule := [1, 1, 1, 0, 0] ++ List.replicate 10 1 ++ List.replicate 10 2
    let batch := (ofInputs scanner true inputs).run schedule
    let machine : Machine := { tree := ⟨[(["home", "b"], [0, 1, 2, 3, 4])], ["home"]⟩ }
    let options : Options := { inputs := #["a", "b", "b"], failFast := true }
    let settings : Settings := { Settings.standard 1 with bufferSize := 2 }
    scanner.catalog.Built ∧ scanner.aborted = false ∧ (∀ input ∈ inputs, input.Quiet scanner) ∧
      batch.Complete ∧ Settled scanner true inputs schedule batch.reports ∧
      batch.reports = [.ofFailure "a" (.file .notFound), .ofFailure "b" .aborted,
        .ofFailure "b" .aborted] ∧
      settings.scanner Catalog.sample = .ok scanner ∧
      ((Machine.host.scan options settings Catalog.sample).run machine).1 =
        .error ["3 input(s) could not be scanned"] := by
  intro scanner inputs schedule batch machine options settings
  have built : scanner.catalog.Built := Catalog.built_sample
  have quiet : ∀ input ∈ inputs, input.Quiet scanner := by
    unfold FileInput.Quiet
    decide +kernel
  obtain ⟨hcomplete, hsettled⟩ := run_settles built rfl quiet true schedule
  have often : ∀ i : Fin 3, inputs[i].job.budget scanner ≤ schedule.count i.val := by
    decide +kernel
  have complete : batch.Complete := hcomplete fun i input h => by
    obtain ⟨hlt, rfl⟩ := List.getElem?_eq_some_iff.mp h
    exact often ⟨i, hlt⟩
  have settled := hsettled complete
  have hreports : batch.reports = [.ofFailure "a" (.file .notFound), .ofFailure "b" .aborted,
      .ofFailure "b" .aborted] := by decide +kernel
  have hscanner : settings.scanner Catalog.sample = .ok scanner := rfl
  have hmissing : machine.source Catalog.sample "a" = .error .notFound := by cbv
  have hfound : machine.source Catalog.sample "b" = .ok (.regular [0, 1, 2, 3, 4]) := by cbv
  have hinputs : (options.inputs.toList.map fun path =>
      FileInput.mk path (machine.source Catalog.sample path)) = inputs := by
    simp only [options, inputs, List.map_cons, List.map_nil, hmissing, hfound]
  have unlogged : machine.log = none := rfl
  have hmachine : ((Machine.host.scanInputs scanner 1 true (Machine.host.emit options)
      ["a", "b", "b"]).run ((Machine.host.announce options settings Catalog.sample).run machine).2).1 =
        batch.reports := by
    refine (Machine.reports_announced unlogged options settings Catalog.sample scanner).trans ?_
    rw [hinputs, hreports]
    decide +kernel
  have hends := settled.ends _ Machine.host options settings Catalog.sample machine hscanner hmachine
  rw [hreports] at hends
  exact ⟨built, rfl, quiet, complete, settled, hreports, hscanner, hends⟩

end Batch

end AnchorScan
