import AnchorScan.Session.Progress

/-!
# AnchorScan.Session

One scan of one stream against a catalog, used once: it is created, may be told
the size of its stream, is started, takes in the stream chunk by chunk, and is
stopped.  A call out of turn is refused and leaves the session as it was.  The
stream may be longer or shorter than declared; the first chunk that goes past
the declared size is reported.
-/

namespace AnchorScan

/-- What a session has been through. -/
inductive Phase where
  | created
  | started
  | stopped
  deriving DecidableEq, Repr

/-- One scan of one stream. -/
structure Session where
  catalog : Catalog
  phase : Phase := .created
  /-- The declared size of the stream. -/
  total : Option Nat := none
  progress : Progress := {}
  /-- Whether it was reported that the stream is longer than declared. -/
  overrunNoted : Bool := false

namespace Session

/-- A new session. -/
def new (catalog : Catalog) : Session := { catalog }

/-- A new session over a stream whose size may be known. -/
def withTotal (catalog : Catalog) (total : Option Nat) : Session := { catalog, total }

/-! ## views -/

/-- Number of octets taken in. -/
def cursor (session : Session) : Nat := session.progress.cursor

/-- Number of signatures still looked for. -/
def pending (session : Session) : Nat := session.progress.live.length

/-- What was found so far. -/
def findings (session : Session) : List Finding := session.progress.findings.toList

/-- The identifiers found so far. -/
def identifiers (session : Session) : List String :=
  session.findings.map fun finding => finding.identifier

/-- Whether a signature of that name was found. -/
def hasFound (session : Session) (identifier : String) : Bool :=
  session.identifiers.contains identifier

/-! ## calls -/

/-- Declares the size of the stream: once, and before the start. -/
def declareTotal (session : Session) (size : Nat) : Step Session Unit :=
  match session.phase, session.total with
  | .created, none => Step.ok () { session with total := some size } []
  | .created, some declared => Step.refused (.sizeDeclaredBefore declared) session
  | _, _ => Step.refused .startedBefore session

/-- Resolves the windows and gets ready for the first chunk. -/
def start (session : Session) : Step Session Unit :=
  match session.phase with
  | .created =>
    match Progress.initial session.catalog session.total with
    | .error failure => Step.refused failure session
    | .ok (progress, log) =>
      Step.ok () { session with progress, phase := .started }
        (log ++ [.started session.catalog.size session.total])
  | _ => Step.refused .startedBefore session

/-- Why a session that is not under way takes no chunk and cannot be stopped. -/
def notUnderWay (session : Session) : Failure :=
  match session.phase with
  | .stopped => .closed
  | _ => .unstarted

/-- The declared size, if more than that was taken in and nobody was told. -/
def newOverrun (session : Session) : Option Nat :=
  session.total.filter fun total => total < session.cursor && !session.overrunNoted

/-- Reports that the stream is longer than declared, once it is. -/
def noteOverrun (session : Session) (log : List Event) : Step Session Unit :=
  match session.newOverrun with
  | none => Step.ok () session log
  | some total =>
    Step.ok () { session with overrunNoted := true } (log ++ [.overrun session.cursor total])

/-- Takes in the next chunk of the stream.  The session is taken apart, so that
its buffers are changed in place. -/
def feed : Session → Bytes → Step Session Unit
  | ⟨catalog, .started, total, progress, reported⟩, chunk =>
    let (progress, log) := progress.take catalog chunk
    noteOverrun ⟨catalog, .started, total, progress, reported⟩ log
  | session, _ => Step.refused session.notUnderWay session

/-- Takes in chunks up to the first that is refused. -/
def feedAll (session : Session) : List Bytes → Step Session Unit
  | [] => Step.ok () session []
  | chunk :: rest => (session.feed chunk).andThen fun _ session => session.feedAll rest

/-- Ends the session and gives up the windows that are not complete. -/
def stop (session : Session) : Step Session Unit :=
  if session.phase = .started then
    let unfinished := if session.pending = 0 then [] else [.discarded session.pending]
    Step.ok () { session with progress := session.progress.abandon, phase := .stopped }
      (unfinished ++ [.stopped session.cursor session.findings.length])
  else Step.refused session.notUnderWay session

end Session

end AnchorScan
