import AnchorScan.Proofs.Streaming

/-!
# AnchorScan.Proofs.Refusals

What a session refuses, and what a refusal leaves behind.  A request has its
turn in the life of a session; out of turn it is refused for that reason alone.
In turn only two things can be wrong: the size was declared before, or end
anchors lack it.

* `Session.Refuses`: the reasons, one constructor for each;
* `Session.state_perform_of_error`: a refused request changes nothing;
* `Session.performAll_of_refusesAll`: so it is with any number of them;
* `Session.Known.performAll`: where any requests lead, refused or not;
* `Session.refuses_exactly`: a session that calls lead to refuses a request
  exactly for one of the reasons.
-/

namespace AnchorScan

/-! ## signatures that need a size -/

/-- Number of signatures that count back from the end of the stream. -/
def Catalog.endAnchorCount (catalog : Catalog) : Nat :=
  catalog.signatures.toList.countP (·.anchor.anchorClass = .fromEnd)

theorem Catalog.LaidOut.size_endAnchored {catalog : Catalog} (laidOut : catalog.LaidOut) :
    catalog.endAnchored.size = catalog.endAnchorCount := by
  have hpositions := congrArg List.length (laidOut.positions_eq .fromEnd)
  rwa [List.length_map, ← List.countP_eq_length_filter, positions, Array.length_toList]
    at hpositions

/-- A catalog lacks a size if none is declared and somebody counts back from it. -/
theorem Catalog.LaidOut.lacksTotal_iff {catalog : Catalog} (laidOut : catalog.LaidOut)
    {total : Option Nat} :
    catalog.LacksTotal total ↔ total = none ∧ 0 < catalog.endAnchorCount := by
  unfold LacksTotal needsTotal
  rw [laidOut.size_endAnchored, Option.isNone_iff_eq_none, decide_eq_true_iff]

namespace Session

/-! ## requests and reasons to refuse them -/

/-- What a session can be asked to do. -/
inductive Request where
  | declareTotal (size : Nat)
  | start
  | feed (chunk : Bytes)
  | stop

/-- The phase in which a request is in turn. -/
def Request.turn : Request → Phase
  | declareTotal _ => .created
  | start => .created
  | feed _ => .started
  | stop => .started

/-- Does what the session is asked to do. -/
def perform (session : Session) : Request → Step Session Unit
  | .declareTotal size => session.declareTotal size
  | .start => session.start
  | .feed chunk => session.feed chunk
  | .stop => session.stop

/-- The reasons to refuse a request. -/
inductive Refuses (session : Session) : Request → Failure → Prop
  /-- The scan has begun, or is over. -/
  | late {request : Request} (turn : request.turn = .created) (begun : session.phase ≠ .created) :
      Refuses session request .startedBefore
  /-- The scan has not begun. -/
  | early {request : Request} (turn : request.turn = .started) (waits : session.phase = .created) :
      Refuses session request .unstarted
  /-- The scan is over. -/
  | closed {request : Request} (turn : request.turn = .started) (ended : session.phase = .stopped) :
      Refuses session request .closed
  | declaredBefore {size declared : Nat} (waits : session.phase = .created)
      (total : session.total = some declared) :
      Refuses session (.declareTotal size) (.sizeDeclaredBefore declared)
  /-- All end anchors are counted, not only the first. -/
  | sizeUnknown (waits : session.phase = .created) (total : session.total = none)
      (needed : 0 < session.catalog.endAnchorCount) :
      Refuses session .start (.sizeUnknown session.catalog.endAnchorCount)

variable {session : Session} {fed : List Bytes} {request : Request} {failure : Failure}

/-! ## out of turn -/

/-- Why a request out of turn is refused. -/
def outOfTurn (session : Session) (request : Request) : Failure :=
  match request.turn with
  | .created => .startedBefore
  | _ => session.notUnderWay

/-- Out of turn every request is refused and changes nothing. -/
theorem perform_outOfTurn (h : session.phase ≠ request.turn) :
    session.perform request = Step.refused (session.outOfTurn request) session := by
  obtain ⟨catalog, phase, total, progress, noted⟩ := session
  -- three phases for each request, of which the one in turn is ruled out
  cases request <;> cases phase <;> first | contradiction | rfl

/-- Out of turn that is the only reason. -/
theorem refuses_outOfTurn_iff (h : session.phase ≠ request.turn) :
    session.Refuses request failure ↔ failure = session.outOfTurn request := by
  unfold outOfTurn notUnderWay
  constructor
  · intro hrefuses
    cases hrefuses with
    | late turn => rw [turn]
    | early turn waits => rw [turn, waits]
    | closed turn ended => rw [turn, ended]
    | declaredBefore waits => exact absurd waits h
    | sizeUnknown waits => exact absurd waits h
  · rintro rfl
    cases hturn : request.turn with
    | created => exact .late hturn (hturn ▸ h)
    | started =>
        rw [hturn] at h
        cases hphase : session.phase with
        | created => exact .early hturn hphase
        | started => contradiction
        | stopped => exact .closed hturn hphase
    | stopped => cases request <;> cases hturn

/-! ## in turn -/

theorem reply_feed_of_started (h : session.phase = .started) (chunk : Bytes) :
    (session.feed chunk).reply = .ok () := by
  obtain ⟨catalog, phase, total, progress, noted⟩ := session
  cases h
  exact reply_noteOverrun _ _

theorem reply_stop_of_started (h : session.phase = .started) : session.stop.reply = .ok () := by
  rw [stop, if_pos h, Step.reply_ok]

/-- A size is declared unless one was. -/
theorem declareTotal_of_created (h : session.phase = .created) (size : Nat) :
    session.declareTotal size = match session.total with
      | none => Step.ok () { session with total := some size } []
      | some declared => Step.refused (.sizeDeclaredBefore declared) session := by
  unfold declareTotal
  rw [h]
  cases session.total <;> rfl

/-- A scan starts unless no session over the catalog can do without a size. -/
theorem reply_start_of_created (known : session.Known fed) (h : session.phase = .created) :
    session.start.reply =
      if session.total = none ∧ 0 < session.catalog.endAnchorCount then
        .error (.sizeUnknown session.catalog.endAnchorCount)
      else .ok () := by
  cases known with
  | @created catalog laidOut total =>
      have hlacks : catalog.LacksTotal total ↔ total = none ∧ 0 < catalog.endAnchorCount :=
        laidOut.lacksTotal_iff
      rw [start_withTotal laidOut, laidOut.size_endAnchored]
      by_cases htotal : total = none ∧ 0 < catalog.endAnchorCount
      · rw [if_pos (hlacks.mpr htotal)]
        exact (if_pos htotal).symm
      · rw [if_neg (hlacks.not.mpr htotal)]
        exact (if_neg htotal).symm
  | underWay => cases h
  | halted => cases h

/-! ## a refusal changes nothing -/

/-- **A refused request leaves the session as it was.** -/
theorem state_perform_of_error (h : (session.perform request).reply = .error failure) :
    (session.perform request).state = session := by
  by_cases hturn : session.phase = request.turn
  · cases request with
    | declareTotal size =>
        rw [perform, declareTotal_of_created hturn] at h ⊢
        cases htotal : session.total with
        | none =>
            rw [htotal] at h
            cases h
        | some declared => rfl
    | start =>
        unfold perform start at h ⊢
        rw [hturn] at h ⊢
        cases hinitial : Progress.initial session.catalog session.total with
        | error failure => rfl
        | ok prepared => simp [Request.turn, hinitial] at h
    | feed chunk =>
        rw [perform, reply_feed_of_started hturn] at h
        cases h
    | stop =>
        rw [perform, reply_stop_of_started hturn] at h
        cases h
  · rw [perform_outOfTurn hturn, Step.state_refused]

/-- The session after requests, refused or not. -/
def performAll (session : Session) (requests : List Request) : Session :=
  requests.foldl (fun session request => (session.perform request).state) session

/-- Every one of the requests is refused when it is made. -/
def RefusesAll : Session → List Request → Prop
  | _, [] => True
  | session, request :: rest =>
    (∃ failure, (session.perform request).reply = .error failure) ∧
      (session.perform request).state.RefusesAll rest

theorem performAll_cons (request : Request) (rest : List Request) :
    session.performAll (request :: rest) = (session.perform request).state.performAll rest := rfl

theorem performAll_append (session : Session) (first second : List Request) :
    session.performAll (first ++ second) = (session.performAll first).performAll second :=
  List.foldl_append

/-- Any number of refused requests leave the session as it was. -/
theorem performAll_of_refusesAll {requests : List Request} (h : session.RefusesAll requests) :
    session.performAll requests = session := by
  induction requests with
  | nil => rfl
  | cons request rest ih =>
      obtain ⟨⟨failure, hrefused⟩, hrest⟩ := h
      rw [performAll, List.foldl_cons, state_perform_of_error hrefused]
      rw [state_perform_of_error hrefused] at hrest
      exact ih hrest

/-! ## what requests lead to -/

/-- A session keeps its catalog. -/
theorem catalog_perform (session : Session) (request : Request) :
    (session.perform request).state.catalog = session.catalog := by
  by_cases hturn : session.phase = request.turn
  · cases request with
    | declareTotal size =>
        rw [perform, declareTotal_of_created hturn]
        cases session.total <;> rfl
    | start =>
        unfold perform start
        rw [hturn]
        dsimp only [Request.turn]
        cases Progress.initial session.catalog session.total <;> rfl
    | feed chunk =>
        obtain ⟨catalog, phase, total, progress, noted⟩ := session
        obtain rfl : phase = .started := hturn
        rw [perform, feed, state_noteOverrun]
    | stop =>
        have started : session.phase = .started := hturn
        rw [perform, stop, if_pos started]
        rfl
  · rw [perform_outOfTurn hturn, Step.state_refused]

/-- A request leads from a session that took in chunks to another. -/
theorem Known.perform (known : session.Known fed) (request : Request) :
    ∃ fed, (session.perform request).state.Known fed := by
  cases request with
  | declareTotal size => exact ⟨fed, known.declareTotal size⟩
  | start => exact ⟨fed, known.start⟩
  | feed chunk =>
      by_cases accepted : (session.feed chunk).reply = .ok ()
      · exact ⟨_, known.feed chunk accepted⟩
      · exact ⟨fed, known.feedRefused chunk accepted⟩
  | stop => exact ⟨fed, known.stop⟩

/-- So does any number of requests, and the catalog stays the same. -/
theorem Known.performAll (known : session.Known fed) (requests : List Request) :
    (session.performAll requests).catalog = session.catalog ∧
      ∃ fed, (session.performAll requests).Known fed := by
  induction requests generalizing session fed with
  | nil => exact ⟨rfl, fed, known⟩
  | cons request rest ih =>
      obtain ⟨after, hafter⟩ := known.perform request
      obtain ⟨hcatalog, hknown⟩ := ih hafter
      exact ⟨hcatalog.trans (session.catalog_perform request), hknown⟩

/-! ## every refusal has its reason -/

/-- In turn only the size can be a reason: declared before, or lacking. -/
theorem Refuses.of_inTurn (refuses : session.Refuses request failure)
    (h : session.phase = request.turn) :
    (∃ size declared, request = .declareTotal size ∧ session.total = some declared ∧
        failure = .sizeDeclaredBefore declared) ∨
      request = .start ∧ session.total = none ∧ 0 < session.catalog.endAnchorCount ∧
        failure = .sizeUnknown session.catalog.endAnchorCount := by
  cases refuses with
  | late turn begun => exact absurd (h.trans turn) begun
  | early turn waits => rw [waits, turn] at h; cases h
  | closed turn ended => rw [ended, turn] at h; cases h
  | declaredBefore _ declared => exact .inl ⟨_, _, rfl, declared, rfl⟩
  | sizeUnknown _ unknown needed => exact .inr ⟨rfl, unknown, needed, rfl⟩

/-- A session refuses a request exactly for one of the reasons. -/
theorem reply_perform_eq_error_iff (known : session.Known fed) :
    (session.perform request).reply = .error failure ↔ session.Refuses request failure := by
  by_cases hturn : session.phase = request.turn
  · constructor
    · intro hreply
      cases request with
      | declareTotal size =>
          rw [perform, declareTotal_of_created hturn] at hreply
          cases htotal : session.total with
          | none => rw [htotal] at hreply; cases hreply
          | some declared =>
              rw [htotal] at hreply
              cases hreply
              exact .declaredBefore hturn htotal
      | start =>
          rw [perform, reply_start_of_created known hturn] at hreply
          split at hreply
          · next hunknown =>
              cases hreply
              exact .sizeUnknown hturn hunknown.1 hunknown.2
          · cases hreply
      | feed chunk => rw [perform, reply_feed_of_started hturn] at hreply; cases hreply
      | stop => rw [perform, reply_stop_of_started hturn] at hreply; cases hreply
    · intro refuses
      rcases refuses.of_inTurn hturn with
        ⟨size, declared, rfl, htotal, rfl⟩ | ⟨rfl, htotal, hneeded, rfl⟩
      · rw [perform, declareTotal_of_created hturn, htotal, Step.reply_refused]
      · rw [perform, reply_start_of_created known hturn, if_pos ⟨htotal, hneeded⟩]
  · rw [perform_outOfTurn hturn, refuses_outOfTurn_iff hturn, Step.reply_refused, Except.error.injEq]
    exact eq_comm

/-! ## after a history of refusals -/

/-- **A session refuses exactly what it has a reason to refuse, and a refusal
leaves no trace.**  A new session that refused any number of requests can still
be told the size and be started, and is then the session that was given the size
when it was made. -/
theorem refuses_exactly (reached : session.Reached fed) :
    (∀ request failure,
        (session.perform request).reply = .error failure ↔ session.Refuses request failure) ∧
      (∀ request failure, (session.perform request).reply = .error failure →
        (session.perform request).state = session) ∧
      ∀ requests size, (new session.catalog).RefusesAll requests →
        let told := ((new session.catalog).performAll requests).declareTotal size
        let made := withTotal session.catalog (some size)
        told.reply = .ok () ∧ told.state.start.reply = .ok () ∧ made.start.reply = .ok () ∧
          told.state.start.state = made.start.state := by
  refine ⟨fun _ _ => reply_perform_eq_error_iff reached.known,
    fun _ _ => state_perform_of_error, fun requests size refusesAll => ?_⟩
  intro told made
  have htold : told = Step.ok () made [] := by
    unfold told
    rw [performAll_of_refusesAll refusesAll]
    rfl
  have hmade : made.start.reply = .ok () := by
    have known : made.Known [] := .created reached.known.laidOut (some size)
    rw [reply_start_of_created known rfl]
    exact if_neg nofun
  rw [htold]
  exact ⟨rfl, hmade, hmade, rfl⟩

theorem refuses_exactly_sample :
    let catalog := (Catalog.sample.register ⟨"foot", .fromEnd 1, [9]⟩).state
    let requests : List Request := [.stop, .start, .feed [1, 2], .start]
    (new catalog).Reached [] ∧ (new catalog).RefusesAll requests ∧
      (new catalog).start.reply = .error (.sizeUnknown 2) ∧ (new catalog).start.state = new catalog ∧
      (((new catalog).performAll requests).declareTotal 5).state.start.state =
        (withTotal catalog (some 5)).start.state := by
  intro catalog requests
  have reached : (new catalog).Reached [] := .opened (.register Catalog.built_sample _) none
  obtain ⟨hrefuses, hstate, hhistory⟩ := refuses_exactly reached
  have hreply : (new catalog).start.reply = .error (.sizeUnknown 2) :=
    (hrefuses .start _).mpr (.sizeUnknown rfl rfl (by decide))
  have hstart : (new catalog).start.state = new catalog := hstate .start _ hreply
  have refusesAll : (new catalog).RefusesAll requests := by
    refine ⟨⟨_, rfl⟩, ⟨_, hreply⟩, ?_⟩
    show ((new catalog).start.state).RefusesAll [.feed [1, 2], .start]
    rw [hstart]
    exact ⟨⟨_, rfl⟩, ⟨_, hreply⟩, trivial⟩
  exact ⟨reached, refusesAll, hreply, hstart, (hhistory requests 5 refusesAll).2.2.2⟩

end Session

end AnchorScan
