import AnchorScan.Proofs.History
import AnchorScan.Proofs.LogLines

/-!
# AnchorScan.Proofs.Transcript

The log of a session as a record of it.  The transcript of some requests is what all
of them, refused or not, have put into the log; read matter by matter, its lines tell
what became of the session.

* `Catalog.ofLog_startLog`, `ofLog_feedLog` and `ofLog_stopLog`: what each of the outcomes
  of a request adds to the account;
* `Session.Records`: what was told is what the session is, `Session.Outcome.records` and
  `Session.Known.records` that it stays so with one request and with any number;
* `Session.transcript_faithful`: all of it, for the lines of every run of a session.
-/

namespace AnchorScan

namespace Catalog

variable (catalog : Catalog) (total : Option Nat) (chunks : List Bytes) (chunk : Bytes)

/-! ## windows -/

/-- The windows of the signatures that are in range, in order of registration. -/
def windows : List Window := catalog.signatures.toList.filterMap (·.window? total)

/-- Signatures wait for the windows that the stream has not passed. -/
theorem length_waiting (stream : Bytes) :
    (catalog.waiting total stream).length =
      (catalog.windows total).countP (position stream < ·.stop) := by
  unfold waiting windows
  rw [← List.countP_eq_length_filter, List.countP_filterMap]
  refine List.countP_congr fun signature _ => ?_
  rw [Signature.pendingAfter_iff]
  cases signature.window? total <;> simp

/-- Before the first octet no window is complete. -/
theorem length_waiting_nil :
    (catalog.waiting total []).length = (catalog.windows total).length := by
  rw [length_waiting]
  refine List.countP_eq_length.mpr fun window hmem => decide_eq_true ?_
  obtain ⟨signature, -, hw⟩ := List.mem_filterMap.mp hmem
  have hbounds := Signature.window?_bounds hw
  have hpos := signature.length_pos
  rw [position_nil]
  omega

/-! ## what the log of a request says -/

/-- Signatures that are out of range are no matter of the account. -/
theorem ofLog_outOfRange (signatures : List Signature) :
    Account.ofLog (signatures.filterMap (·.outOfRange? total)) = ⟨[], [], [], [], []⟩ := by
  induction signatures with
  | nil => rfl
  | cons first rest ih =>
      rw [List.filterMap_cons, Signature.outOfRange?]
      by_cases h : first.window? total = none
      · rw [if_pos h]
        exact ih
      · rw [if_neg h]
        exact ih

theorem ofLog_startLog :
    Account.ofLog (catalog.startLog total) =
      ⟨[], [], [], [⟨(catalog.waiting total []).length, catalog.size, catalog.arenaLength⟩], []⟩ := by
  rw [startLog, prepareLog, List.append_assoc, Account.ofLog_append, ofLog_outOfRange]
  rfl

theorem ofLog_takeLog (stream : Bytes) :
    Account.ofLog (catalog.takeLog total stream chunk) =
      let found := catalog.completions total (stream ++ chunk) (position stream)
        (position (stream ++ chunk))
      ⟨found, if chunk = [] then [] else [⟨position stream, position (stream ++ chunk),
        (catalog.waiting total (stream ++ chunk)).length, found.length⟩], [], [], []⟩ := by
  by_cases hnil : chunk = []
  · simp [hnil, takeLog, completions_self, Account.ofLog]
  · simp [hnil, takeLog, Account.ofLog, Function.comp_def, Event.finding?, Event.intake?,
      Event.overrun?, Event.prepared?, Event.discarded?]

theorem ofLog_overrunLog (before after : Nat) :
    Account.ofLog (overrunLog total before after) =
      ⟨[], [], (total.filter fun size => before ≤ size ∧ size < after).toList.map (after, ·), [], []⟩ := by
  unfold overrunLog
  cases total.filter _ <;> rfl

theorem ofLog_feedLog :
    Account.ofLog (catalog.feedLog total chunks chunk) =
      let start := position chunks.flatten
      let stop := position (chunks.flatten ++ chunk)
      let found := catalog.completions total (chunks.flatten ++ chunk) start stop
      ⟨found, if chunk = [] then [] else
          [⟨start, stop, (catalog.waiting total (chunks.flatten ++ chunk)).length, found.length⟩],
        (total.filter fun size => start ≤ size ∧ size < stop).toList.map (stop, ·), [], []⟩ := by
  rw [feedLog, Account.ofLog_append, ofLog_takeLog, ofLog_overrunLog]
  simp [Account.append]

theorem ofLog_feedLog_nil : Account.ofLog (catalog.feedLog total chunks []) = ⟨[], [], [], [], []⟩ := by
  rw [ofLog_feedLog]
  simp [completions_self]

theorem ofLog_stopLog :
    Account.ofLog (catalog.stopLog total chunks) =
      let incomplete := (catalog.waiting total chunks.flatten).length
      ⟨[], [], [], [], if incomplete = 0 then [] else [incomplete]⟩ := by
  rw [stopLog]
  dsimp only
  split <;> rfl

end Catalog

namespace Session

variable {session : Session} {fed : List Bytes} {request : Request} {step : Step Session Unit}
  {catalog : Catalog} {total : Option Nat} {chunks : List Bytes} {log : List Event} {told : Account}

/-! ## what a log says -/

/-- The windows of a session's signatures that are in range. -/
def windows (session : Session) : List Window := session.catalog.windows session.total

/-- Number of windows that end at or before the cursor. -/
def complete (session : Session) : Nat := session.windows.countP (·.stop ≤ session.cursor)

/-- Number of windows that end past the cursor. -/
def incomplete (session : Session) : Nat := session.windows.countP (session.cursor < ·.stop)

theorem incomplete_add_complete (session : Session) :
    session.incomplete + session.complete = session.windows.length := by
  rw [List.length_eq_countP_add_countP (session.cursor < Window.stop ·)]
  congr 1
  refine List.countP_congr fun window _ => ?_
  simp

/-- What was told is what the session is. -/
structure Records (session : Session) (told : Account) : Prop where
  findings : told.findings = session.findings
  /-- The pieces of the stream follow on each other, from the first octet to the cursor. -/
  contiguous : 0 :: told.intakes.map (·.stop) = told.intakes.map (·.start) ++ [session.cursor]
  found : told.intakes.foldl (· + ·.found) 0 = session.findings.length
  overruns : told.overruns.length = if pastTotal session.total session.cursor then 1 else 0
  prepared : told.prepared = if session.phase = .created then [] else
    [⟨session.windows.length, session.catalog.size, session.catalog.arenaLength⟩]
  discarded : told.discarded =
    if session.phase = .stopped ∧ session.incomplete ≠ 0 then [session.incomplete] else []

theorem incomplete_underWay :
    (underWay catalog total chunks).incomplete = (catalog.waiting total chunks.flatten).length :=
  (catalog.length_waiting total chunks.flatten).symm

theorem not_pastTotal_iff {position : Nat} :
    ¬ pastTotal total position ↔ ∀ size, total = some size → position ≤ size := by
  cases total <;> simp [pastTotal]

/-- Going past the declared size happens at most once. -/
theorem length_overruns {before after : Nat} (h : before ≤ after) :
    (if pastTotal total before then 1 else 0) +
        (total.filter fun size => before ≤ size ∧ size < after).toList.length =
      if pastTotal total after then 1 else 0 := by
  cases total with
  | none => rfl
  | some size =>
      by_cases hbefore : size < before
      · have hafter : size < after := by omega
        have hnot : ¬ before ≤ size := by omega
        simp [pastTotal, Option.filter_some, hbefore, hafter, hnot]
      · have hle : before ≤ size := by omega
        by_cases hafter : size < after <;> simp [pastTotal, Option.filter_some, hbefore, hle, hafter]

theorem records_withTotal (catalog : Catalog) (total : Option Nat) :
    (withTotal catalog total).Records (.ofLog []) where
  findings := rfl
  contiguous := rfl
  found := rfl
  overruns := by cases total <;> rfl
  prepared := rfl
  discarded := by simp [withTotal, Account.ofLog]

/-- To declare the size reports nothing and changes nothing that was told. -/
theorem Records.declare (records : (withTotal catalog none).Records told) (size : Nat) :
    (withTotal catalog (some size)).Records told where
  findings := records.findings
  contiguous := records.contiguous
  found := records.found
  overruns := records.overruns
  prepared := records.prepared
  discarded := records.discarded.trans (by simp [withTotal])

/-- Starting reports the windows. -/
theorem Records.start (records : (withTotal catalog total).Records told) :
    (underWay catalog total []).Records (told.append (.ofLog (catalog.startLog total))) := by
  rw [Catalog.ofLog_startLog, Catalog.length_waiting_nil]
  simp only [Account.append, List.append_nil]
  constructor
  case findings => exact records.findings
  case contiguous => exact records.contiguous
  case found => exact records.found
  case overruns => exact records.overruns
  case prepared =>
    have hnone : told.prepared = [] := by simpa [withTotal] using records.prepared
    rw [hnone]
    rfl
  case discarded => simpa [withTotal, underWay] using records.discarded

/-- A chunk reports what it adds to the findings and to the cursor. -/
theorem Records.take (records : (underWay catalog total chunks).Records told) (chunk : Bytes) :
    (underWay catalog total (chunks ++ [chunk])).Records
      (told.append (.ofLog (catalog.feedLog total chunks chunk))) := by
  rw [Catalog.ofLog_feedLog]
  simp only [Account.append, List.append_nil]
  constructor
  case findings =>
    rw [findings_underWay, Catalog.completionsBy_concat, records.findings, findings_underWay]
  case contiguous =>
    rw [cursor_underWay, List.flatten_concat]
    by_cases hnil : chunk = []
    · simpa [hnil] using records.contiguous
    · simp only [if_neg hnil, List.map_append, ← List.cons_append, records.contiguous]
      simp
  case found =>
    rw [findings_underWay, Catalog.completionsBy_concat, List.length_append, ← findings_underWay,
      ← records.found]
    by_cases hnil : chunk = []
    · simp [hnil, Catalog.completions_self]
    · simp [hnil]
  case overruns =>
    have honward := position_le_append chunks.flatten chunk
    rw [List.length_append, records.overruns, List.length_map, cursor_underWay, cursor_underWay,
      List.flatten_concat]
    exact length_overruns honward
  case prepared => exact records.prepared
  case discarded => simpa [underWay] using records.discarded

/-- Stopping reports the windows that are not complete. -/
theorem Records.stop (records : (underWay catalog total chunks).Records told) :
    (halted catalog total chunks).Records (told.append (.ofLog (catalog.stopLog total chunks))) := by
  rw [Catalog.ofLog_stopLog]
  simp only [Account.append, List.append_nil, ← incomplete_underWay]
  constructor
  case findings => exact records.findings
  case contiguous => exact records.contiguous
  case found => exact records.found
  case overruns => exact records.overruns
  case prepared => exact records.prepared
  case discarded =>
    have hnone : told.discarded = [] := by simpa [underWay] using records.discarded
    have hsame : (halted catalog total chunks).incomplete = (underWay catalog total chunks).incomplete :=
      rfl
    have hstopped : (halted catalog total chunks).phase = .stopped := rfl
    rw [hnone, hsame, hstopped]
    by_cases hzero : (underWay catalog total chunks).incomplete = 0 <;> simp [hzero]

/-- **What was told stays what the session is**, whatever a request brings. -/
theorem Outcome.records (outcome : session.Outcome request step) (records : session.Records told) :
    step.state.Records (told.append (.ofLog step.log)) := by
  cases outcome with
  | refused session request failure => exact (Account.append_ofLog_nil told).symm ▸ records
  | declared catalog size => exact (Account.append_ofLog_nil told).symm ▸ records.declare size
  | started catalog total => exact records.start
  | taken catalog total chunks chunk => exact records.take chunk
  | stopped catalog total chunks => exact records.stop

/-! ## runs -/

/-- What requests put into the log, made one after the other. -/
def transcript : Session → List Request → List Event
  | _, [] => []
  | session, request :: rest =>
    (session.perform request).log ++ (session.perform request).state.transcript rest

theorem transcript_concat (session : Session) (requests : List Request) (request : Request) :
    session.transcript (requests ++ [request]) =
      session.transcript requests ++ ((session.performAll requests).perform request).log := by
  induction requests generalizing session with
  | nil => simp [transcript, performAll]
  | cons first rest ih =>
      rw [List.cons_append, transcript, transcript, ih, performAll_cons, List.append_assoc]

/-- Any number of requests keep what was told. -/
theorem Known.records (known : session.Known fed) (records : session.Records (.ofLog log))
    (requests : List Request) :
    (session.performAll requests).Records (.ofLog (log ++ session.transcript requests)) := by
  induction requests generalizing session fed log with
  | nil =>
      rw [transcript, List.append_nil]
      exact records
  | cons request rest ih =>
      obtain ⟨after, hafter⟩ := known.perform request
      have hrecords := (known.outcome request).records records
      rw [← Account.ofLog_append] at hrecords
      rw [performAll_cons, transcript, ← List.append_assoc]
      exact ih hafter hrecords

/-! ## call by call -/

/-- The request is a chunk that is not empty, and was taken in. -/
def Request.Adds (request : Request) (step : Step Session Unit) : Prop :=
  ∃ chunk, request = .feed chunk ∧ chunk ≠ [] ∧ step.reply = .ok ()

theorem Outcome.of_adds (outcome : session.Outcome request step) (adds : request.Adds step) :
    ∃ catalog total chunks chunk, chunk ≠ [] ∧ session = underWay catalog total chunks ∧
      step = Step.ok () (underWay catalog total (chunks ++ [chunk]))
        (catalog.feedLog total chunks chunk) := by
  obtain ⟨chunk, rfl, hne, hreply⟩ := adds
  cases outcome with
  | refused => cases hreply
  | taken catalog total chunks chunk => exact ⟨catalog, total, chunks, chunk, hne, rfl, rfl⟩

/-- No other request reports a piece of the stream, or going past its size. -/
theorem Outcome.of_not_adds (outcome : session.Outcome request step) (h : ¬ request.Adds step) :
    (Account.ofLog step.log).intakes = [] ∧ (Account.ofLog step.log).overruns = [] := by
  cases outcome with
  | refused => exact ⟨rfl, rfl⟩
  | declared => exact ⟨rfl, rfl⟩
  | started catalog total => simp [Step.ok, Catalog.ofLog_startLog]
  | taken catalog total chunks chunk =>
      have hnil : chunk = [] := by_contra fun hne => h ⟨chunk, rfl, hne, rfl⟩
      simp [Step.ok, hnil, Catalog.ofLog_feedLog_nil]
  | stopped catalog total chunks => simp [Step.ok, Catalog.ofLog_stopLog]

/-- A chunk that is taken in is reported once, with what it brought. -/
theorem Outcome.intakes_of_adds (outcome : session.Outcome request step) (adds : request.Adds step) :
    ∃ found, (Account.ofLog step.log).intakes =
        [⟨session.cursor, step.state.cursor, step.state.pending, found⟩] ∧
      session.findings.length + found = step.state.findings.length := by
  obtain ⟨catalog, total, chunks, chunk, hne, rfl, rfl⟩ := outcome.of_adds adds
  refine ⟨(catalog.completions total (chunks.flatten ++ chunk) (position chunks.flatten)
    (position (chunks.flatten ++ chunk))).length, ?_, ?_⟩
  · simp [Step.ok, Catalog.ofLog_feedLog, hne]
  · simp [Step.ok, Catalog.completionsBy_concat]

/-- Going past the declared size is reported by the chunk that does so. -/
theorem Outcome.mem_overruns_iff (outcome : session.Outcome request step) {cursor size : Nat} :
    (cursor, size) ∈ (Account.ofLog step.log).overruns ↔
      request.Adds step ∧ step.state.total = some size ∧ cursor = step.state.cursor ∧
        size < cursor ∧ session.cursor ≤ size := by
  by_cases adds : request.Adds step
  · obtain ⟨catalog, total, chunks, chunk, hne, rfl, rfl⟩ := outcome.of_adds adds
    have htotal : (underWay catalog total (chunks ++ [chunk])).total = total := rfl
    rw [and_iff_right adds]
    simp only [Step.ok, Catalog.ofLog_feedLog, cursor_underWay, List.flatten_concat, htotal,
      List.mem_map, Option.mem_toList, Option.filter_eq_some_iff, Prod.mk.injEq, decide_eq_true_iff]
    constructor
    · rintro ⟨declared, ⟨hdeclared, hbefore, hafter⟩, rfl, rfl⟩
      exact ⟨hdeclared, rfl, hafter, hbefore⟩
    · rintro ⟨hdeclared, rfl, hafter, hbefore⟩
      exact ⟨size, ⟨hdeclared, hbefore, hafter⟩, rfl, rfl⟩
  · simp [(outcome.of_not_adds adds).2, adds]

/-! ## the whole log -/

/-- A position is not passed if it was passed at no earlier moment. -/
theorem Known.cursor_le_iff (known : session.Known fed) {requests : List Request} {position : Nat} :
    (∀ earlier, earlier <+: requests → (session.performAll earlier).cursor ≤ position) ↔
      (session.performAll requests).cursor ≤ position := by
  constructor
  · exact fun h => h requests (List.prefix_refl requests)
  · rintro h earlier ⟨later, rfl⟩
    obtain ⟨-, after, hafter⟩ := known.performAll earlier
    rw [performAll_append] at h
    exact Nat.le_trans (hafter.onward_performAll later).cursor_le h

/-- **The log of a session is a faithful record of it.**  A new session gets any requests,
refused or not, and somebody listens at trace level; the lines tell just one account.  The
findings in it are those of the session; the pieces of the stream follow on each other up
to the cursor and count the findings.  A further request adds its own lines, which tell of
one piece of the stream, with the number of signatures then pending, if it is a chunk that
is not empty and is taken in, and of none otherwise; and that the stream is longer than
declared if the cursor is past the declared size after it, for the first time.  That is
told at most once, and never without a declared size.  Once the session is stopped, the
windows given up and those complete are as many as were prepared. -/
theorem transcript_faithful {catalog : Catalog} (built : catalog.Built) (total : Option Nat)
    (requests : List Request) :
    let session := withTotal catalog total
    let now := session.performAll requests
    ∃ told, TellsJust (heard .trace (session.transcript requests)) told ∧
      told.findings = now.findings ∧
      (0 :: told.intakes.map (·.stop) = told.intakes.map (·.start) ++ [now.cursor] ∧
        told.intakes.foldl (· + ·.found) 0 = now.findings.length) ∧
      (∀ request : Request,
        let step := now.perform request
        session.transcript (requests ++ [request]) = session.transcript requests ++ step.log ∧
          ∃ next, TellsJust (heard .trace step.log) next ∧
            (request.Adds step → ∃ found,
              next.intakes = [⟨now.cursor, step.state.cursor, step.state.pending, found⟩] ∧
                now.findings.length + found = step.state.findings.length) ∧
            (¬ request.Adds step → next.intakes = []) ∧
            ∀ cursor size, (cursor, size) ∈ next.overruns ↔
              request.Adds step ∧ step.state.total = some size ∧ cursor = step.state.cursor ∧
                size < cursor ∧
                ∀ earlier, earlier <+: requests → (session.performAll earlier).cursor ≤ size) ∧
      (told.overruns.length ≤ 1 ∧
        (told.overruns = [] ↔ ∀ size, now.total = some size → now.cursor ≤ size)) ∧
      (now.phase = .stopped → ∃ live count,
        told.prepared = [⟨live, catalog.size, catalog.arenaLength⟩] ∧
          told.discarded = (if count = 0 then [] else [count]) ∧ count + now.complete = live) := by
  intro session now
  have known : session.Known [] := .created built.laidOut total
  obtain ⟨hcatalog, fed, hknown⟩ := known.performAll requests
  have records : now.Records (.ofLog (session.transcript requests)) :=
    known.records (records_withTotal catalog total) requests
  refine ⟨.ofLog (session.transcript requests), tellsJust_heard _, records.findings,
    ⟨records.contiguous, records.found⟩, fun request => ?_, ⟨?_, ?_⟩,
    fun stopped => ⟨now.windows.length, now.incomplete, ?_, ?_, now.incomplete_add_complete⟩⟩
  · intro step
    have outcome : now.Outcome request step := hknown.outcome request
    refine ⟨session.transcript_concat requests request, .ofLog step.log, tellsJust_heard _,
      outcome.intakes_of_adds, fun h => (outcome.of_not_adds h).1, fun cursor size => ?_⟩
    rw [known.cursor_le_iff]
    exact outcome.mem_overruns_iff
  · rw [records.overruns]
    split <;> omega
  · rw [← List.length_eq_zero_iff, records.overruns, ← not_pastTotal_iff]
    split <;> simp [*]
  · rw [records.prepared, if_neg (by rw [stopped]; nofun), hcatalog]
    rfl
  · rw [records.discarded]
    by_cases hzero : now.incomplete = 0 <;> simp [stopped, hzero]

/-- A run with requests out of turn and an empty chunk, that is stopped while a window is
incomplete; and one whose second chunk goes past the declared size. -/
theorem transcript_faithful_sample :
    let session := withTotal Catalog.sample (some 5)
    let run : List Request :=
      [.feed [0], .start, .feed [0, 1], .declareTotal 9, .feed [], .feed [2], .stop, .feed [3]]
    let told : Account := ⟨[⟨"head", 1⟩], [⟨0, 2, 2, 0⟩, ⟨2, 3, 1, 1⟩], [], [⟨2, 2, 4⟩], [1]⟩
    let begun : List Request := [.start, .feed [0, 1, 2]]
    let passing : Request := .feed [3, 4, 5]
    let now := session.performAll begun
    let step := now.perform passing
    let next : Account := ⟨[⟨"tail", 3⟩], [⟨3, 6, 0, 1⟩], [(6, 5)], [], []⟩
    Catalog.sample.Built ∧
      (heard .trace (session.transcript run) =
          [⟨.debug, "Prepared scan: 2 of 2 signature(s) live, 4 arena byte(s)"⟩,
            ⟨.debug, "Scan started: 2 signature(s), total size Some(5)"⟩,
            ⟨.trace, "Fed [0, 2): 2 live, 0 new match(es)"⟩,
            ⟨.debug, "Matched head at offset 1"⟩,
            ⟨.trace, "Fed [2, 3): 1 live, 1 new match(es)"⟩,
            ⟨.debug, "Discarding 1 incomplete signature window(s)"⟩,
            ⟨.debug, "Scan stopped after 3 byte(s): 1 result(s)"⟩] ∧
        TellsJust (heard .trace (session.transcript run)) told ∧
        (session.performAll run).phase = .stopped ∧
        told.findings = (session.performAll run).findings ∧
        ∃ live count, told.prepared = [⟨live, Catalog.sample.size, Catalog.sample.arenaLength⟩] ∧
          told.discarded = (if count = 0 then [] else [count]) ∧
          count + (session.performAll run).complete = live) ∧
      heard .trace step.log =
          [⟨.debug, "Matched tail at offset 3"⟩,
            ⟨.trace, "Fed [3, 6): 0 live, 1 new match(es)"⟩,
            ⟨.warn, "Scanned 6 byte(s), past the declared total size of 5"⟩] ∧
        TellsJust (heard .trace step.log) next ∧
        passing.Adds step ∧ ¬ Request.Adds .stop now.stop ∧
        (∃ last, TellsJust (heard .trace now.stop.log) last ∧ last.intakes = []) ∧
        (∀ earlier, earlier <+: begun → (session.performAll earlier).cursor ≤ 5) ∧
        ∃ found, next.intakes = [⟨now.cursor, step.state.cursor, step.state.pending, found⟩] ∧
          now.findings.length + found = step.state.findings.length := by
  intro session run told begun passing now step next
  have built : Catalog.sample.Built := Catalog.built_sample
  have stopped : (session.performAll run).phase = .stopped := by decide +kernel
  have htold : told = .ofLog (session.transcript run) := by decide +kernel
  have started : now.phase = .started := by decide +kernel
  have hreply : (now.feed [3, 4, 5]).reply = .ok () := reply_feed_of_started started _
  have adds : passing.Adds step := ⟨[3, 4, 5], rfl, by decide, hreply⟩
  have not_adds : ¬ Request.Adds .stop now.stop := nofun
  have hnext : next = .ofLog step.log := by decide +kernel
  obtain ⟨account, ⟨tells, only⟩, hfindings, -, -, -, hwindows⟩ :=
    transcript_faithful built (some 5) run
  obtain rfl : told = account := htold.trans (only _ (tellsJust_heard _).1)
  obtain ⟨-, -, -, -, hsteps, -, -⟩ := transcript_faithful built (some 5) begun
  obtain ⟨-, last, hlast, -, hnone, -⟩ := hsteps .stop
  obtain ⟨-, account, ⟨tells', only'⟩, hintakes, -, hoverruns⟩ := hsteps passing
  obtain rfl : next = account := hnext.trans (only' _ (tellsJust_heard _).1)
  have hpasses : (6, 5) ∈ next.overruns := List.mem_singleton_self _
  obtain ⟨-, -, -, -, hfirst⟩ := (hoverruns 6 5).mp hpasses
  exact ⟨built, ⟨by decide +kernel, ⟨tells, only⟩, stopped, hfindings, hwindows stopped⟩,
    by decide +kernel, ⟨tells', only'⟩, adds, not_adds, ⟨last, hlast, hnone not_adds⟩, hfirst,
    hintakes adds⟩

end Session

end AnchorScan
