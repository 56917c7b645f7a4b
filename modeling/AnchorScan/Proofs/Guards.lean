import AnchorScan.Proofs.Refusals

/-!
# AnchorScan.Proofs.Guards

A session with guards.  What a session does is done here once more, step by step
and with a guard before each step that has to be possible: an element that is
read or replaced is there, a range lies within what it is a range of, a
difference does not fall below zero, a sum does not pass the largest position,
a window does not end before it starts.  A guard that does not hold ends the run
with a `Trap`.

* `Session.guardedPerform` does what a session is asked to do, with guards;
* `Window.guardedTransfer_eq` and `Signature.guardedLocate_eq`: the guards on
  windows hold whatever the window.
-/

namespace AnchorScan

/-- A guard that does not hold. -/
inductive Trap where
  /-- There is no element at the place. -/
  | outside (index size : Nat)
  /-- The range is reversed or goes past the end. -/
  | uncovered (start stop size : Nat)
  /-- The difference falls below zero. -/
  | underflow (minuend subtrahend : Nat)
  /-- The sum passes the largest position. -/
  | overflow (first second : Nat)
  /-- The window ends before it starts. -/
  | reversed (start stop : Nat)
  /-- More octets were observed than the pattern has. -/
  | overfull (observed length : Nat)
  /-- The buffers of the session were released. -/
  | released
  deriving DecidableEq, Repr

/-- The result of a step with guards. -/
abbrev Guarded (α : Type) := Except Trap α

/-! ## guards -/

namespace Guarded

/-- The element at a place. -/
def item (array : Array α) (index : Nat) : Guarded α :=
  match array[index]? with
  | some element => .ok element
  | none => .error (.outside index array.size)

/-- Puts another element at a place. -/
def replace (array : Array α) (index : Nat) (element : α) : Guarded (Array α) :=
  if index < array.size then .ok (array.setIfInBounds index element)
  else .error (.outside index array.size)

/-- Holds if a range lies within so many elements. -/
def covered (start stop size : Nat) : Guarded Unit :=
  if start ≤ stop ∧ stop ≤ size then .ok () else .error (.uncovered start stop size)

def difference (minuend subtrahend : Nat) : Guarded Nat :=
  if subtrahend ≤ minuend then .ok (minuend - subtrahend)
  else .error (.underflow minuend subtrahend)

def sum (first second : Nat) : Guarded Nat :=
  if first + second ≤ maxPosition then .ok (first + second) else .error (.overflow first second)

def window (start stop : Nat) : Guarded Window :=
  if h : start ≤ stop then .ok ⟨start, stop, h⟩ else .error (.reversed start stop)

@[simp] theorem ok_bind {α β : Type} (a : α) (next : α → Guarded β) :
    ((.ok a : Guarded α) >>= next) = next a := rfl

@[simp] theorem pure_eq_ok {α : Type} (a : α) : (pure a : Guarded α) = .ok a := rfl

theorem item_of_getElem? {array : Array α} {index : Nat} {element : α}
    (h : array[index]? = some element) : item array index = .ok element := by
  simp only [item, h]

theorem replace_of_lt {array : Array α} {index : Nat} (h : index < array.size) (element : α) :
    replace array index element = .ok (array.setIfInBounds index element) := if_pos h

theorem covered_of_le {start stop size : Nat} (h : start ≤ stop) (hs : stop ≤ size) :
    covered start stop size = .ok () := if_pos ⟨h, hs⟩

theorem difference_of_le {minuend subtrahend : Nat} (h : subtrahend ≤ minuend) :
    difference minuend subtrahend = .ok (minuend - subtrahend) := if_pos h

theorem sum_of_le {first second : Nat} (h : first + second ≤ maxPosition) :
    sum first second = .ok (first + second) := if_pos h

theorem window_of_le {start stop : Nat} (h : start ≤ stop) :
    window start stop = .ok ⟨start, stop, h⟩ := dif_pos h

end Guarded

open Guarded

/-! ## windows -/

namespace Window

/-- What a window takes from a chunk, with guards. -/
def guardedTransfer (window : Window) (start stop : Nat) : Guarded (Option Transfer) :=
  if max window.start start < min window.stop stop then do
    let overlap ← Guarded.window (max window.start start) (min window.stop stop)
    let count ← difference overlap.stop overlap.start
    let source ← difference overlap.start start
    let target ← difference overlap.start window.start
    return some ⟨source, target, count⟩
  else return none

/-- A transfer can always be computed. -/
theorem guardedTransfer_eq (window : Window) (start stop : Nat) :
    window.guardedTransfer start stop = .ok (window.transfer start stop) := by
  unfold guardedTransfer transfer intersect
  split
  · next h =>
    have hle := Nat.le_of_lt h
    simp only [window_of_le hle, difference_of_le hle, difference_of_le (Nat.le_max_right _ _),
      difference_of_le (Nat.le_max_left _ _), ok_bind, pure_eq_ok, Option.map_some]
    rfl
  · rfl

end Window

/-- The window of `length` octets from `start` on, with guards. -/
def guardedWindowFrom (start length : Nat) (total : Option Nat) : Guarded Location :=
  if start + length ≤ maxPosition ∧ total.all (start + length ≤ ·) then do
    let window ← Guarded.window start (start + length)
    return .window window
  else return .outOfRange

theorem guardedWindowFrom_eq (start length : Nat) (total : Option Nat) :
    guardedWindowFrom start length total = .ok (windowFrom start length total) := by
  unfold guardedWindowFrom windowFrom
  split
  · rw [window_of_le (Nat.le_add_right start length)]
    rfl
  · rfl

namespace Signature

/-- The window of a signature, with guards. -/
def guardedLocate (signature : Signature) (total : Option Nat) :
    Guarded (Except Failure Location) :=
  match signature.anchor, total with
  | .fromStart offset, total => return .ok (← guardedWindowFrom offset signature.length total)
  | .fromEnd _, none => return .error (.sizeUnknown 1)
  | .fromEnd offset, some size =>
    if offset ≤ size then do
      let start ← difference size offset
      return .ok (← guardedWindowFrom start signature.length (some size))
    else return .ok .outOfRange

/-- A signature can always be located, if only to be refused. -/
theorem guardedLocate_eq (signature : Signature) (total : Option Nat) :
    signature.guardedLocate total = .ok (signature.locate total) := by
  unfold guardedLocate locate
  cases signature.anchor with
  | fromStart offset => simp only [guardedWindowFrom_eq, ok_bind, pure_eq_ok]
  | fromEnd offset =>
      cases total with
      | none => rfl
      | some size =>
          by_cases h : offset ≤ size
          · simp only [if_pos h, difference_of_le h, guardedWindowFrom_eq, ok_bind, pure_eq_ok]
          · simp only [if_neg h, pure_eq_ok]

/-- Puts the octets of a transfer into a signature's buffer, with guards: the
buffer lies in the arena, the octets in the chunk, and there is room for them. -/
def guardedReceive (signature : Signature) (arena : Array UInt8) (chunk : Bytes)
    (transfer : Transfer) : Guarded (Array UInt8) := do
  let arenaStop ← sum signature.arenaStart signature.length
  covered signature.arenaStart arenaStop arena.size
  let targetStop ← sum transfer.target transfer.count
  covered transfer.target targetStop (arenaStop - signature.arenaStart)
  let sourceStop ← sum transfer.source transfer.count
  covered transfer.source sourceStop chunk.length
  return write arena (signature.arenaStart + transfer.target) (transfer.octets chunk)

/-- Adds to the octets that were observed, with guards. -/
def guardedObserve (signature : Signature) (observed count : Nat) : Guarded Nat := do
  let observed ← sum observed count
  if observed ≤ signature.length then return observed
  else .error (.overfull observed signature.length)

end Signature

/-! ## the progress of a scan -/

/-- Fills in the statuses of the signatures at some positions, with guards. -/
def guardedLocateAll (catalog : Catalog) (total : Option Nat) :
    List Nat → Array Status → Guarded (Except Failure (Array Status × List Event))
  | [], statuses => return .ok (statuses, [])
  | position :: rest, statuses => do
    let signature ← item catalog.signatures position
    match ← signature.guardedLocate total with
    | .error failure => return .error failure
    | .ok (.window window) =>
      let statuses ← replace statuses signature.index (.pending window 0)
      guardedLocateAll catalog total rest statuses
    | .ok .outOfRange =>
      let statuses ← replace statuses signature.index .rejected
      match ← guardedLocateAll catalog total rest statuses with
      | .error failure => return .error failure
      | .ok (statuses, log) =>
        return .ok (statuses, .outOfRange signature.identifier total :: log)

/-- Hands a chunk to the live signatures, with guards. -/
def guardedSweep (catalog : Catalog) (chunk : Bytes) (start stop : Nat) :
    List Nat → Array UInt8 → Array Status → Guarded Sweep
  | [], arena, statuses => return ⟨arena, statuses, [], []⟩
  | index :: rest, arena, statuses => do
    let signature ← item catalog.signatures index
    match ← item statuses index with
    | .pending window observed =>
      match ← window.guardedTransfer start stop with
      | none =>
        let swept ← guardedSweep catalog chunk start stop rest arena statuses
        return swept.keep index
      | some transfer =>
        let arena ← signature.guardedReceive arena chunk transfer
        let observed ← signature.guardedObserve observed transfer.count
        if observed < signature.length then
          let statuses ← replace statuses index (.pending window observed)
          let swept ← guardedSweep catalog chunk start stop rest arena statuses
          return swept.keep index
        else if signature.buffer arena = signature.pattern then
          let statuses ← replace statuses index .matched
          let swept ← guardedSweep catalog chunk start stop rest arena statuses
          return swept.find ⟨signature.identifier, window.start⟩
        else
          let statuses ← replace statuses index .rejected
          guardedSweep catalog chunk start stop rest arena statuses
    | _ => guardedSweep catalog chunk start stop rest arena statuses

namespace Progress

/-- The state before the first octet, with guards. -/
def guardedInitial (catalog : Catalog) (total : Option Nat) :
    Guarded (Except Failure (Progress × List Event)) := do
  if total.isNone ∧ catalog.needsTotal then
    return .error (.sizeUnknown catalog.endAnchored.size)
  else
    let unresolved := Array.replicate catalog.size Status.rejected
    match ← guardedLocateAll catalog total
        (catalog.positions .fromStart ++ catalog.positions .fromEnd) unresolved with
    | .error failure => return .error failure
    | .ok (statuses, log) =>
      let live := pendingPositions statuses
      return .ok ({ arena := Array.replicate catalog.arenaLength 0, statuses, live },
        log ++ [.prepared live.length catalog.size catalog.arenaLength])

/-- Holds if an arena has the buffers of all signatures. -/
def guardArena (catalog : Catalog) (arena : Array UInt8) : Guarded Unit :=
  if arena.size = catalog.arenaLength then .ok () else .error .released

/-- Takes in the next chunk, with guards.  The live signatures are not gone
through unless the arena has all buffers. -/
def guardedTake (catalog : Catalog) : Progress → Bytes → Guarded (Progress × List Event)
  | progress, [] => return (progress, [])
  | ⟨start, arena, statuses, live, findings⟩, chunk => do
    let stop := advance start chunk.length
    guardArena catalog arena
    let swept ← guardedSweep catalog chunk start stop live arena statuses
    let results := findings ++ swept.found
    let found ← difference results.size findings.size
    return (⟨stop, swept.arena, swept.statuses, swept.live, results⟩,
      swept.found.map (fun finding => .matched finding.identifier finding.offset) ++
        [.fed start stop swept.live.length found])

theorem guardedTake_of_ne_nil {chunk : Bytes} (hc : chunk ≠ []) (catalog : Catalog)
    (progress : Progress) :
    progress.guardedTake catalog chunk = (do
      let stop := advance progress.cursor chunk.length
      guardArena catalog progress.arena
      let swept ← guardedSweep catalog chunk progress.cursor stop progress.live progress.arena
        progress.statuses
      let results := progress.findings ++ swept.found
      let found ← difference results.size progress.findings.size
      return (⟨stop, swept.arena, swept.statuses, swept.live, results⟩,
        swept.found.map (fun finding => .matched finding.identifier finding.offset) ++
          [.fed progress.cursor stop swept.live.length found])) := by
  cases chunk with
  | nil => contradiction
  | cons octet rest => rfl

end Progress

/-! ## sessions -/

namespace Session

/-- Starts a session, with guards. -/
def guardedStart (session : Session) : Guarded (Step Session Unit) :=
  match session.phase with
  | .created => do
    match ← Progress.guardedInitial session.catalog session.total with
    | .error failure => return Step.refused failure session
    | .ok (progress, log) =>
      return Step.ok () { session with progress, phase := .started }
        (log ++ [.started session.catalog.size session.total])
  | _ => return Step.refused .startedBefore session

/-- Takes in the next chunk of the stream, with guards. -/
def guardedFeed (session : Session) (chunk : Bytes) : Guarded (Step Session Unit) :=
  match session.phase with
  | .started => do
    let (progress, log) ← session.progress.guardedTake session.catalog chunk
    return noteOverrun { session with progress } log
  | _ => return Step.refused session.notUnderWay session

/-- Does what the session is asked to do, with guards. -/
def guardedPerform (session : Session) : Request → Guarded (Step Session Unit)
  | .declareTotal size => return session.declareTotal size
  | .start => session.guardedStart
  | .feed chunk => session.guardedFeed chunk
  | .stop => return session.stop

/-- The session after requests, refused or not, with guards. -/
def guardedRun (session : Session) : List Request → Guarded Session
  | [] => return session
  | request :: rest => do
    let step ← session.guardedPerform request
    step.state.guardedRun rest

end Session

end AnchorScan
