import AnchorScan.Proofs.Refusals

/-!
# AnchorScan.Proofs.History

The history of a session goes in one direction.  `Session.Outcome` says once what a
request can bring, with its reply and its events, `Session.Move` what it can do to the
session, and `Session.Onward` what holds between any earlier and any later moment:
phases, cursor and findings only grow, the number of pending signatures only falls, and
what is found is paid for by signatures that are no longer pending.

* `Session.Known.outcome`: every request has one of the outcomes, and makes one of the
  moves (`Session.Known.move`);
* `Session.Onward.trans` and `Session.Known.onward_performAll`: from one request
  to any number of them;
* `Session.performAll_of_stopped`: a session that is over stays as it is;
* `Session.history_onward`: all of it, for every session that calls lead to.
-/

namespace AnchorScan

/-! ## what a chunk costs -/

section

variable (catalog : Catalog) (total : Option Nat) (stream chunk : Bytes)

/-- Nobody waits for a longer stream who does not wait for a shorter one. -/
theorem Catalog.length_waiting_append_le :
    (catalog.waiting total (stream ++ chunk)).length ≤ (catalog.waiting total stream).length := by
  rw [← Catalog.filter_waiting]
  exact List.length_filter_le _ _

/-- A signature is found or still waits, but not both, and only if it did wait. -/
theorem Catalog.length_completions_add_waiting_le :
    (catalog.completions total (stream ++ chunk) (position stream)
        (position (stream ++ chunk))).length +
      (catalog.waiting total (stream ++ chunk)).length ≤ (catalog.waiting total stream).length := by
  rw [← Catalog.filterMap_waiting, ← @Catalog.filter_waiting catalog total stream chunk,
    List.length_filterMap_eq_countP, ← List.countP_eq_length_filter,
    List.length_eq_countP_add_countP (·.pendingAfter total (stream ++ chunk)), Nat.add_comm]
  refine Nat.add_le_add_left (List.countP_mono_left fun signature _ hfound => ?_) _
  cases hpending : signature.pendingAfter total (stream ++ chunk) with
  | false => rfl
  | true => rw [Signature.completion_of_pending hpending] at hfound; contradiction

end

/-! ## what a request reports -/

/-- The event of going past the declared size between two positions. -/
def overrunLog (total : Option Nat) (before after : Nat) : List Event :=
  (total.filter fun size => before ≤ size ∧ size < after).toList.map (.overrun after ·)

namespace Catalog

variable (catalog : Catalog) (total : Option Nat) (chunks : List Bytes) (chunk : Bytes)

/-- The events of starting a scan. -/
def startLog : List Event := catalog.prepareLog total ++ [.started catalog.size total]

/-- The events of taking in a chunk, in a session that took in others. -/
def feedLog : List Event :=
  catalog.takeLog total chunks.flatten chunk ++
    overrunLog total (position chunks.flatten) (position (chunks.flatten ++ chunk))

/-- The events of stopping a session that took in chunks. -/
def stopLog : List Event :=
  let incomplete := (catalog.waiting total chunks.flatten).length
  (if incomplete = 0 then [] else [.discarded incomplete]) ++
    [.stopped (position chunks.flatten) (catalog.completionsBy total chunks).length]

end Catalog

/-! ## phases -/

/-- The place of a phase in the life of a session. -/
def Phase.rank : Phase → Nat
  | created => 0
  | started => 1
  | stopped => 2

theorem Phase.rank_eq_zero_iff {phase : Phase} : phase.rank = 0 ↔ phase = .created := by
  cases phase <;> decide

namespace Session

variable {session earlier middle later : Session} {fed : List Bytes} {request : Request}
  {step : Step Session Unit}

/-! ## outcomes -/

section

variable {catalog : Catalog} {total : Option Nat} {chunks : List Bytes}

/-- All that a request can bring: the reply, the session afterwards and what is reported. -/
inductive Outcome : Session → Request → Step Session Unit → Prop
  | refused (session : Session) (request : Request) (failure : Failure) :
      Outcome session request (Step.refused failure session)
  | declared (catalog : Catalog) (size : Nat) :
      Outcome (withTotal catalog none) (.declareTotal size)
        (Step.ok () (withTotal catalog (some size)) [])
  | started (catalog : Catalog) (total : Option Nat) :
      Outcome (withTotal catalog total) .start
        (Step.ok () (underWay catalog total []) (catalog.startLog total))
  | taken (catalog : Catalog) (total : Option Nat) (chunks : List Bytes) (chunk : Bytes) :
      Outcome (underWay catalog total chunks) (.feed chunk)
        (Step.ok () (underWay catalog total (chunks ++ [chunk])) (catalog.feedLog total chunks chunk))
  | stopped (catalog : Catalog) (total : Option Nat) (chunks : List Bytes) :
      Outcome (underWay catalog total chunks) .stop
        (Step.ok () (halted catalog total chunks) (catalog.stopLog total chunks))

/-- Noting an overrun reports it unless it was noted before. -/
theorem log_noteOverrun {before : Nat} (log : List Event)
    (hnoted : session.overrunNoted = pastTotal session.total before) :
    (session.noteOverrun log).log = log ++ overrunLog session.total before session.cursor := by
  unfold noteOverrun newOverrun overrunLog
  rw [hnoted]
  cases session.total with
  | none => simp [Step.ok]
  | some size =>
      by_cases hover : size < session.cursor <;> by_cases hbefore : before ≤ size <;>
        simp [pastTotal, Option.filter_some, hover, hbefore, Step.ok]

/-- Feeding a session under way, all that it reports included. -/
theorem feed_underWay (laidOut : catalog.LaidOut) (chunk : Bytes) :
    (underWay catalog total chunks).feed chunk =
      Step.ok () (underWay catalog total (chunks ++ [chunk])) (catalog.feedLog total chunks chunk) := by
  have hlog : ((underWay catalog total chunks).feed chunk).log = catalog.feedLog total chunks chunk := by
    rw [underWay, feed, Progress.take_after laidOut]
    exact log_noteOverrun _ rfl
  rw [Step.eq_ok (reply_feed_underWay chunk), state_feed_underWay laidOut, hlog]

/-- Stopping a session under way, all that it reports included. -/
theorem stop_underWay :
    (underWay catalog total chunks).stop =
      Step.ok () (halted catalog total chunks) (catalog.stopLog total chunks) := by
  have hstarted : (underWay catalog total chunks).phase = .started := rfl
  rw [stop, if_pos hstarted, Catalog.stopLog, pending_underWay]
  rfl

end

/-- **Every request has one of the outcomes.** -/
theorem Known.outcome (known : session.Known fed) (request : Request) :
    session.Outcome request (session.perform request) := by
  by_cases hturn : session.phase = request.turn
  · cases known with
    | @created catalog laidOut total =>
        cases request with
        | declareTotal size =>
            cases total with
            | none => exact .declared catalog size
            | some declared => exact .refused _ _ (.sizeDeclaredBefore declared)
        | start =>
            rw [Session.perform, start_withTotal laidOut]
            split
            · exact .refused _ _ _
            · exact .started catalog total
        | feed chunk => contradiction
        | stop => contradiction
    | @underWay catalog total laidOut hasTotal =>
        cases request with
        | declareTotal size => contradiction
        | start => contradiction
        | feed chunk =>
            rw [Session.perform, feed_underWay laidOut]
            exact .taken catalog total fed chunk
        | stop =>
            rw [Session.perform, stop_underWay]
            exact .stopped catalog total fed
    | halted laidOut hasTotal => cases request <;> contradiction
  · rw [perform_outOfTurn hturn]
    exact .refused session request _

/-! ## moves -/

/-- What a request can do to a session. -/
inductive Move : Session → Session → Prop
  /-- It was refused. -/
  | stay (session : Session) : Move session session
  | declare (catalog : Catalog) (size : Nat) :
      Move (withTotal catalog none) (withTotal catalog (some size))
  | start (catalog : Catalog) (total : Option Nat) :
      Move (withTotal catalog total) (underWay catalog total [])
  | take (catalog : Catalog) (total : Option Nat) (chunks : List Bytes) (chunk : Bytes) :
      Move (underWay catalog total chunks) (underWay catalog total (chunks ++ [chunk]))
  | halt (catalog : Catalog) (total : Option Nat) (chunks : List Bytes) :
      Move (underWay catalog total chunks) (halted catalog total chunks)

theorem Outcome.move (outcome : session.Outcome request step) : session.Move step.state := by
  cases outcome with
  | refused session => exact .stay session
  | declared catalog size => exact .declare catalog size
  | started catalog total => exact .start catalog total
  | taken catalog total chunks chunk => exact .take catalog total chunks chunk
  | stopped catalog total chunks => exact .halt catalog total chunks

/-- Every request makes one of the moves. -/
theorem Known.move (known : session.Known fed) (request : Request) :
    session.Move (session.perform request).state := (known.outcome request).move

/-- A move keeps the phase or leads to the next. -/
theorem Move.phase (move : earlier.Move later) :
    later.phase = earlier.phase ∨ later.phase.rank = earlier.phase.rank + 1 := by
  cases move with
  | start | halt => exact .inr rfl
  | stay | declare | take => exact .inl rfl

/-- A move changes the size only before the start, and only if there was none. -/
theorem Move.total (move : earlier.Move later) (h : later.total ≠ earlier.total) :
    earlier.phase = .created ∧ later.phase = .created ∧ earlier.total = none := by
  cases move with
  | declare => exact ⟨rfl, rfl, rfl⟩
  | stay | start | take | halt => exact absurd rfl h

/-! ## earlier and later -/

/-- What holds between an earlier and a later moment of a session's history. -/
structure Onward (earlier later : Session) : Prop where
  phase_le : earlier.phase.rank ≤ later.phase.rank
  total : later.total ≠ earlier.total → earlier.phase = .created ∧ earlier.total = none
  cursor_le : earlier.cursor ≤ later.cursor
  findings : earlier.findings <+: later.findings
  /-- Before the start nobody is pending. -/
  pending_le : earlier.phase ≠ .created → later.pending ≤ earlier.pending
  /-- What is found is no longer pending. -/
  balance : earlier.phase ≠ .created →
    later.findings.length + later.pending ≤ earlier.findings.length + earlier.pending

namespace Onward

theorem refl (session : Session) : session.Onward session where
  phase_le := Nat.le_refl _
  total h := absurd rfl h
  cursor_le := Nat.le_refl _
  findings := List.prefix_refl _
  pending_le _ := Nat.le_refl _
  balance _ := Nat.le_refl _

/-- What is created was created before. -/
theorem phase_of_created (onward : earlier.Onward later) (h : later.phase = .created) :
    earlier.phase = .created := by
  have hle := onward.phase_le
  rw [Phase.rank_eq_zero_iff.mpr h] at hle
  exact Phase.rank_eq_zero_iff.mp (Nat.le_zero.mp hle)

theorem trans (first : earlier.Onward middle) (second : middle.Onward later) :
    earlier.Onward later where
  phase_le := Nat.le_trans first.phase_le second.phase_le
  total h := by
    by_cases hmiddle : middle.total = earlier.total
    · obtain ⟨hcreated, hnone⟩ := second.total (hmiddle ▸ h)
      exact ⟨first.phase_of_created hcreated, hmiddle ▸ hnone⟩
    · exact first.total hmiddle
  cursor_le := Nat.le_trans first.cursor_le second.cursor_le
  findings := first.findings.trans second.findings
  pending_le begun :=
    Nat.le_trans (second.pending_le (mt first.phase_of_created begun)) (first.pending_le begun)
  balance begun :=
    Nat.le_trans (second.balance (mt first.phase_of_created begun)) (first.balance begun)

end Onward

/-- Every move leads onward. -/
theorem Move.onward (move : earlier.Move later) : earlier.Onward later := by
  cases move with
  | stay => exact .refl _
  | declare catalog size =>
      exact { Onward.refl (withTotal catalog none) with total := fun _ => ⟨rfl, rfl⟩ }
  | start catalog total =>
      exact ⟨Nat.zero_le 1, fun h => absurd rfl h, Nat.zero_le _, List.nil_prefix,
        fun h => absurd rfl h, fun h => absurd rfl h⟩
  | take catalog total chunks chunk =>
      have hwaiting := catalog.length_waiting_append_le total chunks.flatten chunk
      have hbalance := catalog.length_completions_add_waiting_le total chunks.flatten chunk
      refine ⟨Nat.le_refl _, fun h => absurd rfl h, ?_, ?_, fun _ => ?_, fun _ => ?_⟩
      · simpa using position_le_append chunks.flatten chunk
      · simp [Catalog.completionsBy_concat]
      · simpa using hwaiting
      · simp only [findings_underWay, pending_underWay, Catalog.completionsBy_concat,
          List.flatten_concat, List.length_append]
        omega
  | halt catalog total chunks =>
      exact ⟨Nat.le_succ 1, fun h => absurd rfl h, Nat.le_refl _, List.prefix_refl _,
        fun _ => Nat.zero_le _, fun _ => Nat.add_le_add_left (Nat.zero_le _) _⟩

/-- Any number of requests lead onward. -/
theorem Known.onward_performAll (known : session.Known fed) (requests : List Request) :
    session.Onward (session.performAll requests) := by
  induction requests generalizing session fed with
  | nil => exact .refl session
  | cons request rest ih =>
      obtain ⟨after, hafter⟩ := known.perform request
      exact (known.move request).onward.trans (ih hafter)

/-- Requests that are all out of turn leave a session as it is. -/
theorem performAll_outOfTurn {requests : List Request}
    (h : ∀ request ∈ requests, session.phase ≠ request.turn) :
    session.performAll requests = session := by
  induction requests with
  | nil => rfl
  | cons request rest ih =>
      obtain ⟨hrequest, hrest⟩ := List.forall_mem_cons.mp h
      rw [performAll_cons, perform_outOfTurn hrequest, Step.state_refused, ih hrest]

/-- A session that is over stays as it is. -/
theorem performAll_of_stopped (h : session.phase = .stopped) (requests : List Request) :
    session.performAll requests = session :=
  performAll_outOfTurn fun request _ => by
    rw [h]
    cases request <;> nofun

/-- A session that was stopped is over. -/
theorem phase_stop (h : session.stop.reply = .ok ()) : session.stop.state.phase = .stopped := by
  by_cases started : session.phase = .started
  · rw [stop, if_pos started]
    rfl
  · rw [stop, if_neg started] at h
    cases h

/-- Chunks, accepted or not, find no more signatures than they settle. -/
theorem Known.balance_feeds (known : session.Known fed) (chunks : List Bytes) :
    let after := session.performAll (chunks.map .feed)
    after.findings.length + after.pending ≤ session.findings.length + session.pending := by
  intro after
  by_cases created : session.phase = .created
  · -- before the start all of them are refused
    have hstays : after = session := performAll_outOfTurn fun request hmem => by
      obtain ⟨chunk, -, rfl⟩ := List.mem_map.mp hmem
      rw [created]
      nofun
    exact Nat.le_of_eq (by rw [hstays])
  · exact (known.onward_performAll _).balance created

/-- **The history of a session goes in one direction.**  A request keeps the phase
or leads to the next, and changes the size only before the start and only if
there was none.  Whatever was requested in between, a later moment has a later
phase or the same, the same size once there is one, no smaller cursor, all
findings in their places and some more, and after the start no more signatures
pending.  What chunks find is no more than what ceases to be pending.  Nothing
changes any more once the session was stopped. -/
theorem history_onward (reached : session.Reached fed) :
    (∀ request : Request,
      let after := (session.perform request).state
      (after.phase = session.phase ∨ after.phase.rank = session.phase.rank + 1) ∧
        (after.total ≠ session.total →
          session.phase = .created ∧ after.phase = .created ∧ session.total = none)) ∧
      (∀ requests, session.Onward (session.performAll requests)) ∧
      (∀ chunks : List Bytes,
        let after := session.performAll (chunks.map .feed)
        after.findings.length + after.pending ≤ session.findings.length + session.pending) ∧
      (session.stop.reply = .ok () →
        ∀ requests, session.stop.state.performAll requests = session.stop.state) := by
  have known := reached.known
  exact ⟨fun request => ⟨(known.move request).phase, (known.move request).total⟩,
    known.onward_performAll, known.balance_feeds,
    fun stopped => performAll_of_stopped (phase_stop stopped)⟩

theorem history_onward_sample :
    let session := ((withTotal Catalog.sample (some 5)).start.state.feed [0, 1]).state
    let requests : List Request := [.start, .feed [2, 3], .declareTotal 6, .feed [4]]
    let after := session.performAll requests
    session.Reached [[0, 1]] ∧ session.Onward after ∧
      (session.findings, session.pending) = ([], 2) ∧
      (after.findings, after.pending) = ([⟨"head", 1⟩, ⟨"tail", 3⟩], 0) ∧
      session.stop.reply = .ok () ∧ session.stop.state.performAll requests = session.stop.state := by
  intro session requests after
  have reached : session.Reached [[0, 1]] :=
    .feed (.start (.opened Catalog.built_sample (some 5))) [0, 1] rfl
  have stopped : session.stop.reply = .ok () := rfl
  obtain ⟨-, honward, -, hover⟩ := history_onward reached
  exact ⟨reached, honward requests, by decide +kernel, by decide +kernel, stopped,
    hover stopped requests⟩

end Session

end AnchorScan
