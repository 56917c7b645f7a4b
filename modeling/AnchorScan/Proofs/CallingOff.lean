import AnchorScan.Proofs.Reading

/-!
# AnchorScan.Proofs.CallingOff

The abort flag over whole runs of a scanner.  Once it is up it stays up, and no
read is made any more; the read that raised it is the last of its scan, and what
it delivered decides how the scan ends.

* `Course.of_raised`: the end of a scan during whose read the flag went up;
* `Course.of_aborted`: nothing but the flag calls off a scan;
* `Scanner.scan_heedsFlag`: both, for any scan of a reader or a file;
* `Scanner.performAll_heedsFlag`: so it is after any calls on a scanner.
-/

namespace AnchorScan

open Session

/-! ## courses and the flag -/

/-- Whether a scan goes on after a delivery. -/
def Delivery.goesOn : Delivery → Bool
  | octets [] => false
  | octets _ => true
  | interrupted => true
  | failed _ => false

theorem Delivery.goesOn_octets {chunk : Bytes} (h : chunk ≠ []) : (octets chunk).goesOn = true := by
  cases chunk with
  | nil => contradiction
  | cons => rfl

/-- The chunks that reads delivered. -/
def chunksOf : List Read → List Bytes
  | [] => []
  | ⟨.octets (octet :: more), _⟩ :: rest => (octet :: more) :: chunksOf rest
  | _ :: rest => chunksOf rest

@[simp] theorem chunksOf_nil : chunksOf [] = [] := rfl

@[simp] theorem chunksOf_interrupted (raises : Bool) (rest : List Read) :
    chunksOf (⟨.interrupted, raises⟩ :: rest) = chunksOf rest := rfl

theorem chunksOf_octets {chunk : Bytes} (h : chunk ≠ []) (raises : Bool) (rest : List Read) :
    chunksOf (⟨.octets chunk, raises⟩ :: rest) = chunk :: chunksOf rest := by
  cases chunk with
  | nil => contradiction
  | cons => rfl

namespace Course

variable {catalog : Catalog} {total : Option Nat} {chunks : List Bytes} {aborted : Bool}
  {used unread : List Read} {reply : Except Failure Session}

/-- With the flag up a scan makes no read and is called off. -/
theorem of_flagUp (course : Course catalog total chunks true used unread reply) :
    used = [] ∧ reply = .error .aborted := by
  cases course
  exact ⟨rfl, rfl⟩

/-- After some reads a scan takes a course from what these delivered. -/
theorem drop (course : Course catalog total chunks aborted used unread reply)
    {before after : List Read} {read : Read} (h : used = before ++ read :: after) :
    Course catalog total (chunks ++ chunksOf before) false (read :: after) unread reply := by
  induction course generalizing before with
  | calledOff => simp at h
  | resolved => simp at h
  | ranOut => simp at h
  | ended waits =>
      rcases List.cons_eq_append_iff.mp h with ⟨rfl, hfirst⟩ | ⟨rest, rfl, hrest⟩
      · rw [hfirst, chunksOf_nil, List.append_nil]
        exact .ended waits
      · simp at hrest
  | failed waits =>
      rcases List.cons_eq_append_iff.mp h with ⟨rfl, hfirst⟩ | ⟨rest, rfl, hrest⟩
      · rw [hfirst, chunksOf_nil, List.append_nil]
        exact .failed waits
      · simp at hrest
  | interrupted waits course ih =>
      rcases List.cons_eq_append_iff.mp h with ⟨rfl, hfirst⟩ | ⟨rest, rfl, hrest⟩
      · rw [hfirst, chunksOf_nil, List.append_nil]
        exact .interrupted waits course
      · rw [chunksOf_interrupted]
        exact ih hrest
  | fed waits nonempty course ih =>
      rcases List.cons_eq_append_iff.mp h with ⟨rfl, hfirst⟩ | ⟨rest, rfl, hrest⟩
      · rw [hfirst, chunksOf_nil, List.append_nil]
        exact .fed waits nonempty course
      · rw [chunksOf_octets nonempty, ← List.singleton_append, ← List.append_assoc]
        exact ih hrest

/-- **The read that raises the flag is the last**, and the scan ends as its
delivery has it. -/
theorem of_raised (course : Course catalog total chunks aborted used unread reply)
    {before after : List Read} {read : Read} (h : used = before ++ read :: after)
    (raised : read.raisesAbort = true) :
    after = [] ∧ (read.delivery.goesOn = true → reply = .error .aborted) ∧
      (∀ fault, read.delivery = .failed fault → reply = .error (.file fault)) ∧
      (read.delivery = .octets [] →
        reply = .ok (halted catalog total (chunks ++ chunksOf before))) := by
  obtain ⟨delivery, raises⟩ := read
  obtain rfl : raises = true := raised
  cases course.drop h with
  | ended => exact ⟨rfl, nofun, nofun, fun _ => rfl⟩
  | failed => exact ⟨rfl, nofun, fun _ hfault => by rw [Delivery.failed.inj hfault], nofun⟩
  | interrupted _ course =>
      obtain ⟨hused, hreply⟩ := course.of_flagUp
      exact ⟨hused, fun _ => hreply, nofun, nofun⟩
  | fed _ nonempty course =>
      obtain ⟨hused, hreply⟩ := course.of_flagUp
      exact ⟨hused, fun _ => hreply, nofun, fun hc => absurd (Delivery.octets.inj hc) nonempty⟩

/-- **Nothing but the flag calls off a scan**: it was up before, or the last read
raised it and would have gone on. -/
theorem of_aborted (course : Course catalog total chunks aborted used unread reply)
    (h : reply = .error .aborted) :
    aborted = true ∨ ∃ before read, used = before ++ [read] ∧ read.raisesAbort = true ∧
      read.delivery.goesOn = true := by
  induction course with
  | calledOff => exact .inl rfl
  | resolved => cases h
  | ranOut => cases h
  | ended => cases h
  | failed => cases h
  | interrupted _ course ih =>
      right
      rcases ih h with rfl | ⟨before, read, rfl, hread⟩
      · obtain ⟨rfl, -⟩ := course.of_flagUp
        exact ⟨[], _, rfl, rfl, rfl⟩
      · exact ⟨_ :: before, read, rfl, hread⟩
  | fed _ nonempty course ih =>
      right
      rcases ih h with rfl | ⟨before, read, rfl, hread⟩
      · obtain ⟨rfl, -⟩ := course.of_flagUp
        exact ⟨[], _, rfl, rfl, Delivery.goesOn_octets nonempty⟩
      · exact ⟨_ :: before, read, rfl, hread⟩

end Course

/-! ## calls on a scanner -/

/-- What a scan is asked to read: a reader, or a file and what opening it brought. -/
inductive Input where
  | reader (total : Option Nat) (reads : List Read)
  | file (path : String) (opened : Except FileFault Source)

/-- The size that a scan is told. -/
def Input.total : Input → Option Nat
  | reader total _ => total
  | file _ (.ok source) => source.extent.size?
  | file _ (.error _) => none

/-- The calls on a scanner. -/
inductive Call where
  | resize (size : Nat)
  | callOff
  | newSession (total : Option Nat)
  | scanOctets (data : Bytes)
  | scan (input : Input)

namespace Scanner

/-- Scans a reader or a file. -/
def scan (scanner : Scanner) : Input → Run
  | .reader total reads => scanner.scanReads total reads
  | .file path opened => scanner.scanSource path opened

/-- The answers that the reader of an input has for the scanner. -/
def readsOf (scanner : Scanner) : Input → List Read
  | .reader _ reads => reads
  | .file _ (.ok source) => source.reads scanner.buffer.octets
  | .file _ (.error _) => []

/-- Why no session can be started, if none can. -/
def refusal (scanner : Scanner) (total : Option Nat) : Option Failure :=
  match (scanner.newSession total).start.reply with
  | .error failure => some failure
  | .ok () => none

/-- What goes wrong before a scan looks at the flag: the file cannot be opened,
or the session cannot be started. -/
def setback (scanner : Scanner) : Input → Option Failure
  | .reader total _ => scanner.refusal total
  | .file _ (.ok source) => scanner.refusal source.extent.size?
  | .file _ (.error fault) => some (.file fault)

/-- The scanner after a call. -/
def perform (scanner : Scanner) : Call → Scanner
  | .resize size => (scanner.resize size).state
  | .callOff => scanner.callOff
  | .newSession _ => scanner
  | .scanOctets _ => scanner
  | .scan input => { scanner with aborted := (scanner.scan input).aborted }

/-- The scanner after calls. -/
def performAll (scanner : Scanner) (calls : List Call) : Scanner := calls.foldl perform scanner

variable {scanner : Scanner} {input : Input}

/-! ## the flag over calls -/

theorem refusal_eq_some_iff {total : Option Nat} {failure : Failure} :
    scanner.refusal total = some failure ↔
      (scanner.newSession total).start.reply = .error failure := by
  unfold refusal
  cases (scanner.newSession total).start.reply <;> simp

theorem refusal_eq_none_iff {total : Option Nat} :
    scanner.refusal total = none ↔ (scanner.newSession total).start.reply = .ok () := by
  unfold refusal
  cases (scanner.newSession total).start.reply <;> simp

/-- A session is refused for want of a size, never because of the flag. -/
theorem refusal_ne_aborted (laidOut : scanner.catalog.LaidOut) (total : Option Nat) :
    scanner.refusal total ≠ some .aborted := by
  rw [Ne, refusal_eq_some_iff, newSession, start_withTotal laidOut]
  split <;> simp

/-- A scan that meets a setback makes no read. -/
theorem scan_of_setback {failure : Failure} (h : scanner.setback input = some failure) :
    (scanner.scan input).reply = .error failure ∧ (scanner.scan input).aborted = scanner.aborted ∧
      (scanner.scan input).unread = scanner.readsOf input := by
  match input with
  | .reader total reads =>
      obtain ⟨log, hrun⟩ := scanReads_refused (refusal_eq_some_iff.mp h) reads
      simp [scan, readsOf, hrun]
  | .file path (.ok source) =>
      obtain ⟨log, hrun⟩ := scanReads_refused (refusal_eq_some_iff.mp h)
        (source.reads scanner.buffer.octets)
      simp [scan, scanSource, Run.after, readsOf, hrun]
  | .file path (.error fault) =>
      obtain rfl := Option.some.inj h
      exact ⟨rfl, rfl, rfl⟩

/-- A scan that meets no setback takes a course. -/
theorem scan_course (laidOut : scanner.catalog.LaidOut) (h : scanner.setback input = none) :
    (scanner.scan input).Takes scanner.catalog input.total [] scanner.aborted
      (scanner.readsOf input) := by
  match input with
  | .reader total reads => exact scanReads_course laidOut (refusal_eq_none_iff.mp h) reads
  | .file path (.ok source) => exact scanReads_course laidOut (refusal_eq_none_iff.mp h) _
  | .file path (.error fault) => cases h

end Scanner

/-- **How a run heeds the flag**, that was up before or not, by the reads that it
made. -/
structure Run.HeedsFlag (run : Run) (catalog : Catalog) (total : Option Nat)
    (setback : Option Failure) (aborted : Bool) (used : List Read) : Prop where
  aborted_eq : run.aborted = (aborted || used.any (·.raisesAbort))
  of_setback : ∀ failure, setback = some failure → used = [] ∧ run.reply = .error failure
  of_flagUp : aborted = true → used = [] ∧ (setback = none → run.reply = .error .aborted)
  /-- The read that raises the flag is the last. -/
  raised_last : ∀ before read after, used = before ++ read :: after → read.raisesAbort = true →
    after = []
  raised_goesOn : ∀ before read, used = before ++ [read] → read.raisesAbort = true →
    read.delivery.goesOn = true → run.reply = .error .aborted
  raised_failed : ∀ before read fault, used = before ++ [read] → read.raisesAbort = true →
    read.delivery = .failed fault → run.reply = .error (.file fault)
  raised_ended : ∀ before read, used = before ++ [read] → read.raisesAbort = true →
    read.delivery = .octets [] → ∃ session, run.reply = .ok session ∧ session.phase = .stopped ∧
      session.cursor = position (chunksOf before).flatten ∧
      session.findings = catalog.completionsBy total (chunksOf before)
  of_aborted : run.reply = .error .aborted → setback = none ∧
    (aborted = true ∨ ∃ before read, used = before ++ [read] ∧ read.raisesAbort = true ∧
      read.delivery.goesOn = true)

namespace Scanner

variable {scanner : Scanner} {input : Input}

theorem setback_ne_aborted (laidOut : scanner.catalog.LaidOut) (input : Input) :
    scanner.setback input ≠ some .aborted := by
  match input with
  | .reader total _ => exact refusal_ne_aborted laidOut total
  | .file _ (.ok source) => exact refusal_ne_aborted laidOut source.extent.size?
  | .file _ (.error fault) => simp [setback]

/-- Every scan heeds the flag. -/
theorem scan_heedsFlag (laidOut : scanner.catalog.LaidOut) (input : Input) :
    ∃ used, scanner.readsOf input = used ++ (scanner.scan input).unread ∧
      (scanner.scan input).HeedsFlag scanner.catalog input.total (scanner.setback input)
        scanner.aborted used := by
  cases hsetback : scanner.setback input with
  | some failure =>
      obtain ⟨hreply, haborted, hunread⟩ := scan_of_setback hsetback
      refine ⟨[], hunread.symm, ?_⟩
      constructor
      case aborted_eq => simp [haborted]
      case of_setback =>
        intro _ h
        exact ⟨rfl, by rw [hreply, Option.some.inj h]⟩
      case of_flagUp => exact fun _ => ⟨rfl, nofun⟩
      case raised_last => simp
      case raised_goesOn => simp
      case raised_failed => simp
      case raised_ended => simp
      case of_aborted =>
        intro h
        obtain rfl := Except.error.inj (hreply.symm.trans h)
        exact absurd hsetback (setback_ne_aborted laidOut input)
  | none =>
      obtain ⟨used, hreads, haborted, course⟩ := scan_course laidOut hsetback
      refine ⟨used, hreads, ?_⟩
      constructor
      case aborted_eq => exact haborted
      case of_setback => exact nofun
      case of_flagUp =>
        intro hup
        rw [hup] at course
        exact ⟨course.of_flagUp.1, fun _ => course.of_flagUp.2⟩
      case raised_last =>
        intro before read after h raised
        exact (course.of_raised h raised).1
      case raised_goesOn =>
        intro before read h raised
        exact (course.of_raised h raised).2.1
      case raised_failed =>
        intro before read fault h raised
        exact (course.of_raised h raised).2.2.1 fault
      case raised_ended =>
        intro before read h raised hended
        exact ⟨_, (course.of_raised h raised).2.2.2 hended, rfl, rfl, rfl⟩
      case of_aborted => exact fun h => ⟨rfl, course.of_aborted h⟩

theorem catalog_perform (scanner : Scanner) (call : Call) :
    (scanner.perform call).catalog = scanner.catalog := by
  cases call with
  | resize size =>
      rw [perform, state_resize]
  | callOff => rfl
  | newSession => rfl
  | scanOctets => rfl
  | scan => rfl

/-- No call takes the flag down. -/
theorem aborted_perform (laidOut : scanner.catalog.LaidOut) (up : scanner.aborted = true)
    (call : Call) : (scanner.perform call).aborted = true := by
  cases call with
  | resize size =>
      rw [perform, state_resize]
      exact up
  | callOff => rfl
  | newSession => exact up
  | scanOctets => exact up
  | scan input =>
      obtain ⟨used, -, heeds⟩ := scan_heedsFlag laidOut input
      show (scanner.scan input).aborted = true
      rw [heeds.aborted_eq, up, Bool.true_or]

theorem performAll_cons (scanner : Scanner) (call : Call) (rest : List Call) :
    scanner.performAll (call :: rest) = (scanner.perform call).performAll rest := rfl

theorem catalog_performAll (scanner : Scanner) (calls : List Call) :
    (scanner.performAll calls).catalog = scanner.catalog := by
  induction calls generalizing scanner with
  | nil => rfl
  | cons call rest ih => rw [performAll_cons, ih, catalog_perform]

theorem aborted_performAll (laidOut : scanner.catalog.LaidOut) (up : scanner.aborted = true)
    (calls : List Call) : (scanner.performAll calls).aborted = true := by
  induction calls generalizing scanner with
  | nil => exact up
  | cons call rest ih =>
      have hup := aborted_perform laidOut up call
      rw [← catalog_perform scanner call] at laidOut
      exact ih laidOut hup

/-- **What the flag does to scans, and to nothing else.**  Whatever calls were
made on a scanner, its flag never goes down, sessions and scans in memory are as
ever, and every scan of a reader or a file heeds the flag. -/
theorem performAll_heedsFlag {first : Scanner} (built : first.catalog.Built) (calls : List Call) :
    let scanner := first.performAll calls
    (first.aborted = true → scanner.aborted = true) ∧
      (∀ total, scanner.newSession total = first.newSession total) ∧
      (∀ data, scanner.scanOctets data = first.scanOctets data) ∧
      ∀ input, ∃ used, scanner.readsOf input = used ++ (scanner.scan input).unread ∧
        (scanner.scan input).HeedsFlag scanner.catalog input.total (scanner.setback input)
          scanner.aborted used := by
  intro scanner
  have hcatalog : scanner.catalog = first.catalog := catalog_performAll first calls
  have hsession : ∀ total, scanner.newSession total = first.newSession total := fun total => by
    rw [newSession, newSession, hcatalog]
  refine ⟨fun up => aborted_performAll built.laidOut up calls, hsession, ?_, ?_⟩
  · intro data
    rw [scanOctets, scanOctets, hsession]
  · intro input
    rw [← hcatalog] at built
    exact scan_heedsFlag built.laidOut input

theorem performAll_heedsFlag_sample :
    let first : Scanner := { catalog := Catalog.sample }
    let scanner := first.performAll [.resize 2, .scanOctets [0, 1, 2]]
    let input : Input := .reader (some 5)
      [⟨.octets [0, 1], false⟩, ⟨.octets [2, 3], false⟩, ⟨.octets [4], true⟩, ⟨.octets [5], false⟩]
    first.catalog.Built ∧ (scanner.scan input).unread = [⟨.octets [5], false⟩] ∧
      (scanner.scan input).aborted = true ∧ (scanner.scan input).reply = .error .aborted := by
  intro first scanner input
  have built : first.catalog.Built := Catalog.built_sample
  obtain ⟨-, -, -, hscan⟩ := performAll_heedsFlag built [.resize 2, .scanOctets [0, 1, 2]]
  obtain ⟨used, hreads, heeds⟩ := hscan input
  have hunread : (scanner.scan input).unread = [⟨.octets [5], false⟩] := by decide +kernel
  have hused : used = [⟨.octets [0, 1], false⟩, ⟨.octets [2, 3], false⟩] ++ [⟨.octets [4], true⟩] := by
    rw [hunread] at hreads
    exact (List.append_cancel_right hreads).symm
  refine ⟨built, hunread, ?_, heeds.raised_goesOn _ _ hused rfl rfl⟩
  rw [heeds.aborted_eq, hused]
  decide +kernel

end Scanner

end AnchorScan
