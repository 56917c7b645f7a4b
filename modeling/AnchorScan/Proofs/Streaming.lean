import AnchorScan.Proofs.Preparation
import AnchorScan.Session

/-!
# AnchorScan.Proofs.Streaming

Sessions and the streams they took in.  A session under way is determined by its
catalog, the declared size and the chunks fed to it: `Session.underWay` names it,
feeding leads from one such session to the next (`Session.state_feed_underWay`),
and every session that calls can lead to is one of them, or waits for its start,
or was stopped (`Session.Reached.known`).

* `Session.findings_feedAll`: chunk by chunk a session finds the signatures whose
  windows end there with their patterns in them, and no others.
-/

namespace AnchorScan

/-! ## findings chunk by chunk -/

/-- The findings of a stream that comes in chunks, in the order in which the
chunks complete their windows. -/
def Catalog.completionsBy (catalog : Catalog) (total : Option Nat) (chunks : List Bytes) :
    List Finding :=
  (List.range chunks.length).flatMap fun k =>
    catalog.completions total chunks.flatten (position (chunks.take k).flatten)
      (position (chunks.take (k + 1)).flatten)

theorem length_flatten_take_le (chunks : List Bytes) (k : Nat) :
    (chunks.take k).flatten.length ≤ chunks.flatten.length := by
  have hsplit : (chunks.take k).flatten ++ (chunks.drop k).flatten = chunks.flatten := by
    rw [← List.flatten_append, List.take_append_drop]
  rw [← hsplit, List.length_append]
  exact Nat.le_add_right _ _

theorem Catalog.completionsBy_concat (catalog : Catalog) (total : Option Nat) (chunks : List Bytes)
    (chunk : Bytes) :
    catalog.completionsBy total (chunks ++ [chunk]) = catalog.completionsBy total chunks ++
      catalog.completions total (chunks.flatten ++ chunk) (position chunks.flatten)
        (position (chunks.flatten ++ chunk)) := by
  unfold completionsBy
  rw [List.length_append, List.length_singleton, List.range_succ, List.flatMap_append,
    List.flatten_concat]
  congr 1
  · refine List.flatMap_congr fun k hk => ?_
    have hk := List.mem_range.mp hk
    have hprefix := length_flatten_take_le chunks (k + 1)
    rw [List.take_append_of_le_length (by omega), List.take_append_of_le_length (by omega)]
    exact catalog.completions_append total (Nat.le_trans (position_le_length _) hprefix) chunk _
  · have hall : (chunks ++ [chunk]).take (chunks.length + 1) = chunks ++ [chunk] :=
      List.take_of_length_le (by simp)
    simp [hall]

namespace Session

variable {catalog : Catalog} {total : Option Nat} {chunks : List Bytes}

/-! ## sessions under way -/

/-- Whether a position lies past the declared size. -/
def pastTotal (total : Option Nat) (position : Nat) : Bool := total.any (· < position)

/-- Once past the declared size, past it from then on. -/
theorem pastTotal_or {before after : Nat} (h : before ≤ after) :
    (pastTotal total before || pastTotal total after) = pastTotal total after := by
  cases total with
  | none => rfl
  | some size => by_cases hb : size < before <;> simp [pastTotal, hb]; omega

/-- The session that took in chunks. -/
def underWay (catalog : Catalog) (total : Option Nat) (chunks : List Bytes) : Session where
  catalog
  phase := .started
  total
  progress := Progress.after catalog total chunks.flatten (catalog.completionsBy total chunks)
  overrunNoted := pastTotal total (position chunks.flatten)

@[simp] theorem cursor_underWay : (underWay catalog total chunks).cursor = position chunks.flatten :=
  rfl

@[simp] theorem findings_underWay :
    (underWay catalog total chunks).findings = catalog.completionsBy total chunks := rfl

@[simp] theorem pending_underWay :
    (underWay catalog total chunks).pending = (catalog.waiting total chunks.flatten).length :=
  List.length_map _

/-- Starting leads to the session that took in nothing, unless an end anchor
lacks the size. -/
theorem start_withTotal (laidOut : catalog.LaidOut) (total : Option Nat) :
    (withTotal catalog total).start =
      if catalog.LacksTotal total then
        Step.refused (.sizeUnknown catalog.endAnchored.size) (withTotal catalog total)
      else
        Step.ok () (underWay catalog total [])
          (catalog.prepareLog total ++ [.started catalog.size total]) := by
  simp only [start, withTotal, Progress.initial_eq laidOut]
  by_cases hlacks : catalog.LacksTotal total
  · simp only [if_pos hlacks]
  · simp only [if_neg hlacks]
    simp [underWay, Catalog.completionsBy, pastTotal]

theorem reply_noteOverrun (session : Session) (log : List Event) :
    (session.noteOverrun log).reply = .ok () := by
  unfold noteOverrun
  split <;> rfl

/-- An overrun is noted once there is one. -/
theorem state_noteOverrun (session : Session) (log : List Event) :
    (session.noteOverrun log).state = { session with
      overrunNoted := session.overrunNoted || pastTotal session.total session.cursor } := by
  obtain ⟨catalog, phase, total, progress, noted⟩ := session
  cases total with
  | none => cases noted <;> rfl
  | some size =>
      by_cases hover : size < progress.cursor <;> cases noted <;>
        simp [noteOverrun, newOverrun, pastTotal, cursor, hover, Option.filter_some]

theorem reply_feed_underWay (chunk : Bytes) :
    ((underWay catalog total chunks).feed chunk).reply = .ok () := reply_noteOverrun _ _

/-- **Feeding leads from one session under way to the next.** -/
theorem state_feed_underWay (laidOut : catalog.LaidOut) (chunk : Bytes) :
    ((underWay catalog total chunks).feed chunk).state =
      underWay catalog total (chunks ++ [chunk]) := by
  rw [underWay, feed, Progress.take_after laidOut, state_noteOverrun]
  have hpast := @pastTotal_or total _ _ (position_le_append chunks.flatten chunk)
  simp only [underWay, Catalog.completionsBy_concat, List.flatten_concat, cursor, Progress.after,
    hpast]

theorem feedAll_underWay (laidOut : catalog.LaidOut) (more : List Bytes) :
    ((underWay catalog total chunks).feedAll more).reply = .ok () ∧
      ((underWay catalog total chunks).feedAll more).state = underWay catalog total (chunks ++ more) := by
  induction more generalizing chunks with
  | nil => simp [feedAll]
  | cons chunk rest ih =>
      have hreply : ((underWay catalog total chunks).feed chunk).reply = .ok () :=
        reply_feed_underWay chunk
      rw [feedAll, Step.reply_andThen hreply, Step.state_andThen hreply,
        state_feed_underWay laidOut]
      have hrest := @ih (chunks ++ [chunk])
      rwa [List.append_assoc, List.singleton_append] at hrest

/-! ## stopping -/

theorem reply_stop_underWay : (underWay catalog total chunks).stop.reply = .ok () := rfl

/-- A session that took in chunks and was stopped. -/
def halted (catalog : Catalog) (total : Option Nat) (chunks : List Bytes) : Session :=
  { underWay catalog total chunks with
    progress := (underWay catalog total chunks).progress.abandon
    phase := .stopped }

theorem state_stop_underWay :
    (underWay catalog total chunks).stop.state = halted catalog total chunks := rfl

@[simp] theorem cursor_halted : (halted catalog total chunks).cursor = position chunks.flatten := rfl

@[simp] theorem findings_halted :
    (halted catalog total chunks).findings = catalog.completionsBy total chunks := rfl

@[simp] theorem pending_halted : (halted catalog total chunks).pending = 0 := rfl

/-! ## the sessions that calls lead to -/

/-- The sessions that calls lead to, those that were refused among them, with
the chunks that were taken in. -/
inductive Reached : Session → List Bytes → Prop
  | opened {catalog : Catalog} (built : catalog.Built) (total : Option Nat) :
      Reached (withTotal catalog total) []
  | declareTotal {session : Session} {fed : List Bytes} (reached : Reached session fed) (size : Nat) :
      Reached (session.declareTotal size).state fed
  | start {session : Session} {fed : List Bytes} (reached : Reached session fed) :
      Reached session.start.state fed
  | feed {session : Session} {fed : List Bytes} (reached : Reached session fed) (chunk : Bytes)
      (accepted : (session.feed chunk).reply = .ok ()) :
      Reached (session.feed chunk).state (fed ++ [chunk])
  | feedRefused {session : Session} {fed : List Bytes} (reached : Reached session fed)
      (chunk : Bytes) (refused : (session.feed chunk).reply ≠ .ok ()) :
      Reached (session.feed chunk).state fed
  | stop {session : Session} {fed : List Bytes} (reached : Reached session fed) :
      Reached session.stop.state fed

/-- What a session can be that took in chunks. -/
inductive Known : Session → List Bytes → Prop
  | created {catalog : Catalog} (laidOut : catalog.LaidOut) (total : Option Nat) :
      Known (withTotal catalog total) []
  | underWay {catalog : Catalog} {total : Option Nat} (laidOut : catalog.LaidOut)
      (hasTotal : ¬ catalog.LacksTotal total) (chunks : List Bytes) :
      Known (underWay catalog total chunks) chunks
  | halted {catalog : Catalog} {total : Option Nat} (laidOut : catalog.LaidOut)
      (hasTotal : ¬ catalog.LacksTotal total) (chunks : List Bytes) :
      Known (halted catalog total chunks) chunks

namespace Known

variable {session : Session} {fed : List Bytes}

theorem declareTotal (known : session.Known fed) (size : Nat) :
    (session.declareTotal size).state.Known fed := by
  cases known with
  | created laidOut total =>
      cases total with
      | none => exact .created laidOut (some size)
      | some declared => exact .created laidOut (some declared)
  | underWay laidOut hasTotal => exact .underWay laidOut hasTotal fed
  | halted laidOut hasTotal => exact .halted laidOut hasTotal fed

theorem start (known : session.Known fed) : session.start.state.Known fed := by
  cases known with
  | created laidOut total =>
      rw [start_withTotal laidOut]
      split
      · exact .created laidOut total
      · next hasTotal => exact .underWay laidOut hasTotal []
  | underWay laidOut hasTotal => exact .underWay laidOut hasTotal fed
  | halted laidOut hasTotal => exact .halted laidOut hasTotal fed

theorem feed (known : session.Known fed) (chunk : Bytes)
    (accepted : (session.feed chunk).reply = .ok ()) :
    (session.feed chunk).state.Known (fed ++ [chunk]) := by
  cases known with
  | created laidOut total => cases accepted
  | underWay laidOut hasTotal =>
      rw [state_feed_underWay laidOut]
      exact .underWay laidOut hasTotal (fed ++ [chunk])
  | halted laidOut hasTotal => cases accepted

theorem feedRefused (known : session.Known fed) (chunk : Bytes)
    (refused : (session.feed chunk).reply ≠ .ok ()) : (session.feed chunk).state.Known fed := by
  cases known with
  | created laidOut total => exact .created laidOut total
  | underWay laidOut hasTotal => exact absurd (reply_feed_underWay chunk) refused
  | halted laidOut hasTotal => exact .halted laidOut hasTotal fed

theorem stop (known : session.Known fed) : session.stop.state.Known fed := by
  cases known with
  | created laidOut total => exact .created laidOut total
  | underWay laidOut hasTotal => exact .halted laidOut hasTotal fed
  | halted laidOut hasTotal => exact .halted laidOut hasTotal fed

theorem laidOut (known : session.Known fed) : session.catalog.LaidOut := by
  cases known with
  | created laidOut total => exact laidOut
  | underWay laidOut hasTotal => exact laidOut
  | halted laidOut hasTotal => exact laidOut

/-- A session that can be started waits for its start and has the size it needs. -/
theorem of_start_ok (known : session.Known fed) (h : session.start.reply = .ok ()) :
    session.catalog.LaidOut ∧ fed = [] ∧ session = withTotal session.catalog session.total ∧
      session.start.state = Session.underWay session.catalog session.total [] := by
  cases known with
  | created laidOut total =>
      rw [start_withTotal laidOut] at h ⊢
      split at h
      · cases h
      · next hasTotal => exact ⟨laidOut, rfl, rfl, by rw [if_neg hasTotal]; rfl⟩
  | underWay laidOut hasTotal => cases h
  | halted laidOut hasTotal => cases h

/-- A session in its started phase is the one under way. -/
theorem of_started (known : session.Known fed) (h : session.phase = .started) :
    session.catalog.LaidOut ∧ session = Session.underWay session.catalog session.total fed := by
  cases known with
  | created laidOut total => cases h
  | underWay laidOut hasTotal => exact ⟨laidOut, rfl⟩
  | halted laidOut hasTotal => cases h

end Known

/-- **A session that calls lead to is known from its catalog, the declared size
and the chunks it took in.** -/
theorem Reached.known {session : Session} {fed : List Bytes} (reached : session.Reached fed) :
    session.Known fed := by
  induction reached with
  | opened built total => exact .created built.laidOut total
  | declareTotal _ size ih => exact ih.declareTotal size
  | start _ ih => exact ih.start
  | feed _ chunk accepted ih => exact ih.feed chunk accepted
  | feedRefused _ chunk refused ih => exact ih.feedRefused chunk refused
  | stop _ ih => exact ih.stop

/-! ## a stream in chunks -/

/-- **A session finds exactly what the stream shows.**  After a start that
succeeds and any chunks, the findings are, chunk by chunk and in order of
registration, the signatures whose windows end in the chunk and hold the
pattern; stopping leaves them as they are. -/
theorem findings_feedAll {session : Session} {fed : List Bytes} (reached : session.Reached fed)
    (started : session.start.reply = .ok ()) (chunks : List Bytes) :
    let scanned := session.start.state.feedAll chunks
    scanned.reply = .ok () ∧
      scanned.state.findings = (List.range chunks.length).flatMap (fun k =>
        session.catalog.completions session.total chunks.flatten
          (position (chunks.take k).flatten) (position (chunks.take (k + 1)).flatten)) ∧
      scanned.state.stop.reply = .ok () ∧
      scanned.state.stop.state.findings = scanned.state.findings := by
  obtain ⟨laidOut, -, -, hstart⟩ := reached.known.of_start_ok started
  intro scanned
  have hscanned : scanned.reply = .ok () ∧
      scanned.state = underWay session.catalog session.total chunks := by
    unfold scanned
    rw [hstart]
    exact feedAll_underWay laidOut chunks
  obtain ⟨hreply, hstate⟩ := hscanned
  rw [hstate]
  exact ⟨hreply, rfl, rfl, rfl⟩

theorem findings_feedAll_sample :
    (withTotal Catalog.sample (some 5)).Reached [] ∧
      (withTotal Catalog.sample (some 5)).start.reply = .ok () ∧
      let scanned := (withTotal Catalog.sample (some 5)).start.state.feedAll [[0, 1], [], [2], [3, 4]]
      scanned.reply = .ok () ∧ scanned.state.findings = [⟨"head", 1⟩, ⟨"tail", 3⟩] ∧
        scanned.state.stop.reply = .ok () ∧
        scanned.state.stop.state.findings = scanned.state.findings := by
  have reached : (withTotal Catalog.sample (some 5)).Reached [] := .opened Catalog.built_sample (some 5)
  have started : (withTotal Catalog.sample (some 5)).start.reply = .ok () := rfl
  obtain ⟨hreply, hfindings, hstop⟩ := findings_feedAll reached started [[0, 1], [], [2], [3, 4]]
  exact ⟨reached, started, hreply, hfindings.trans (by decide), hstop⟩

end Session

end AnchorScan
