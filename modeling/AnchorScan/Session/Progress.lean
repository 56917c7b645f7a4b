import AnchorScan.Catalog
import AnchorScan.Location

/-!
# AnchorScan.Session.Progress

How far a scan has come.  Every signature with a window has a status that counts
how many octets of the window were observed, and a buffer in the arena that
keeps them; a window may be spread over any number of chunks.  Once a window is
observed whole, its buffer is compared with the pattern, and the signature is
matched or rejected for good.

* `Progress.initial` resolves all windows before the first octet;
* `Transfer` says which part of a chunk goes where in a buffer;
* `take` hands a chunk to every live signature, in order of registration.
-/

namespace AnchorScan

/-- A signature that a stream was found to show, and where. -/
structure Finding where
  identifier : String
  offset : Nat
  deriving DecidableEq, Repr

/-- What is known of one signature. -/
inductive Status where
  /-- So many octets of the window were observed. -/
  | pending (window : Window) (observed : Nat)
  | matched
  | rejected
  deriving DecidableEq

/-- Whether a signature is still looked for. -/
def Status.isPending : Status → Bool
  | .pending .. => true
  | _ => false

/-- How far a scan has come. -/
structure Progress where
  /-- Number of octets taken in. -/
  cursor : Nat := 0
  /-- The buffers of all signatures. -/
  arena : Array UInt8 := #[]
  /-- One status for each signature. -/
  statuses : Array Status := #[]
  /-- Positions of the signatures still looked for, in order. -/
  live : List Nat := []
  /-- What was found, in the order in which windows were completed. -/
  findings : Array Finding := #[]
  deriving DecidableEq

/-! ## preparing -/

/-- Fills in the statuses of signatures; those out of range are reported. -/
def locateAll (total : Option Nat) :
    List Signature → Array Status → Except Failure (Array Status × List Event)
  | [], statuses => .ok (statuses, [])
  | signature :: rest, statuses =>
    match signature.locate total with
    | .error failure => .error failure
    | .ok (.window window) =>
      locateAll total rest (statuses.setIfInBounds signature.index (.pending window 0))
    | .ok .outOfRange =>
      match locateAll total rest (statuses.setIfInBounds signature.index .rejected) with
      | .error failure => .error failure
      | .ok (statuses, log) => .ok (statuses, .outOfRange signature.identifier total :: log)

/-- Positions of the pending statuses. -/
def pendingPositions (statuses : Array Status) : List Nat :=
  statuses.toList.zipIdx.filterMap fun (status, index) =>
    if status.isPending then some index else none

/-- The state before the first octet, and the events of finding it.  An end
anchor cannot be resolved without a size. -/
def Progress.initial (catalog : Catalog) (total : Option Nat) :
    Except Failure (Progress × List Event) :=
  if total.isNone ∧ catalog.needsTotal then
    .error (.sizeUnknown catalog.endAnchored.size)
  else
    let unresolved := Array.replicate catalog.size Status.rejected
    match locateAll total (catalog.ofClass .fromStart ++ catalog.ofClass .fromEnd) unresolved with
    | .error failure => .error failure
    | .ok (statuses, log) =>
      let live := pendingPositions statuses
      .ok ({ arena := Array.replicate catalog.arenaLength 0, statuses, live },
        log ++ [.prepared live.length catalog.size catalog.arenaLength])

/-! ## taking a chunk -/

/-- A part of a chunk that belongs to a window: `count` octets, the first of
them at `source` in the chunk and at `target` in the window. -/
structure Transfer where
  source : Nat
  target : Nat
  count : Nat
  deriving DecidableEq, Repr

/-- What a window takes from a chunk that covers the positions from `start` up
to `stop`. -/
def Window.transfer (window : Window) (start stop : Nat) : Option Transfer :=
  (window.intersect start stop).map fun overlap =>
    ⟨overlap.start - start, overlap.start - window.start, overlap.length⟩

/-- Puts octets into the arena from a place on. -/
def write (arena : Array UInt8) (place : Nat) : Bytes → Array UInt8
  | [] => arena
  | octet :: rest => write (arena.setIfInBounds place octet) (place + 1) rest

/-- The octets that a transfer moves. -/
def Transfer.octets (transfer : Transfer) (chunk : Bytes) : Bytes :=
  (chunk.drop transfer.source).take transfer.count

/-- A signature's buffer. -/
def Signature.buffer (signature : Signature) (arena : Array UInt8) : Bytes :=
  (arena.extract signature.arenaStart signature.arenaStop).toList

/-- What the live signatures made of a chunk. -/
structure Sweep where
  arena : Array UInt8
  statuses : Array Status
  live : List Nat
  found : List Finding

/-- The signature at a position stays live. -/
def Sweep.keep (index : Nat) (sweep : Sweep) : Sweep := { sweep with live := index :: sweep.live }

/-- A signature was found. -/
def Sweep.find (finding : Finding) (sweep : Sweep) : Sweep :=
  { sweep with found := finding :: sweep.found }

/-- Hands a chunk, which covers the positions from `start` up to `stop`, to the
live signatures one after the other. -/
def sweep (catalog : Catalog) (chunk : Bytes) (start stop : Nat) :
    List Nat → Array UInt8 → Array Status → Sweep
  | [], arena, statuses => ⟨arena, statuses, [], []⟩
  | index :: rest, arena, statuses =>
    match catalog.get? index, statuses[index]? with
    | some signature, some (.pending window observed) =>
      match window.transfer start stop with
      | none => (sweep catalog chunk start stop rest arena statuses).keep index
      | some transfer =>
        let arena := write arena (signature.arenaStart + transfer.target) (transfer.octets chunk)
        let observed := observed + transfer.count
        if observed < window.length then
          (sweep catalog chunk start stop rest arena
            (statuses.setIfInBounds index (.pending window observed))).keep index
        else if signature.buffer arena = signature.pattern then
          (sweep catalog chunk start stop rest arena (statuses.setIfInBounds index .matched)).find
            ⟨signature.identifier, window.start⟩
        else sweep catalog chunk start stop rest arena (statuses.setIfInBounds index .rejected)
    | _, _ => sweep catalog chunk start stop rest arena statuses

namespace Progress

/-- Takes in the next chunk of the stream.  An empty chunk changes nothing and
is not reported. -/
def take (catalog : Catalog) : Progress → Bytes → Progress × List Event
  | progress, [] => (progress, [])
  | ⟨start, arena, statuses, live, findings⟩, chunk =>
    let stop := advance start chunk.length
    let ⟨arena, statuses, live, found⟩ := sweep catalog chunk start stop live arena statuses
    (⟨stop, arena, statuses, live, findings ++ found⟩,
      found.map (fun finding => .matched finding.identifier finding.offset) ++
        [.fed start stop live.length found.length])

/-- Gives up what is still looked for and releases the buffers. -/
def abandon (progress : Progress) : Progress := { progress with arena := #[], live := [] }

end Progress

end AnchorScan
