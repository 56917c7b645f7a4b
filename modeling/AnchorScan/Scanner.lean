import AnchorScan.Scanner.Reader
import AnchorScan.Session

/-!
# AnchorScan.Scanner

A catalog, the size of the buffer that streams are read through, and a flag that
calls off all scans of a reader.  The flag is looked at before every read and
never goes down.

A scan of a reader turns in a loop: it ends when the flag is up, when no
signature is left to look for, or when the stream ends, and otherwise reads
once more (`Session.turn`, `Session.receive`, `pump`).  A scan of octets in
memory feeds them at once and heeds no flag.
-/

namespace AnchorScan

/-! ## scanners -/

/-- The largest buffer that can be asked for. -/
def maxBufferSize : Nat := 0x7FFFFFFFFFFFFFFF

/-- A number of octets that a buffer can have. -/
structure BufferSize where
  octets : Nat
  octets_pos : 0 < octets
  octets_le : octets ≤ maxBufferSize
  deriving DecidableEq

namespace BufferSize

/-- The buffer of those who ask for none. -/
def standard : BufferSize := ⟨65536, by decide, by decide⟩

/-- Checks a size that was asked for. -/
def ofNat (size : Nat) : Except Failure BufferSize :=
  if h : 0 < size ∧ size ≤ maxBufferSize then .ok ⟨size, h.1, h.2⟩
  else .error (.unusableBufferSize size)

end BufferSize

/-- Scans streams for the signatures of a catalog. -/
structure Scanner where
  catalog : Catalog
  buffer : BufferSize := .standard
  /-- Whether scans of readers are called off. -/
  aborted : Bool := false

/-! ## the loop of a scan -/

/-- The end of a scan of a reader: the session or what went wrong, the abort
flag, the answers that the reader was not asked for, and the events. -/
structure Run where
  reply : Except Failure Session
  aborted : Bool
  unread : List Read
  log : List Event

/-- Events that came before. -/
def Run.after (log : List Event) (run : Run) : Run := { run with log := log ++ run.log }

/-- What a scan does next. -/
inductive Turn where
  | giveUp
  | finish
  | read
  deriving DecidableEq, Repr

/-- The flag comes first, then whether anything is left to look for. -/
def Session.turn (session : Session) (aborted : Bool) : Turn :=
  if aborted then .giveUp else if session.pending = 0 then .finish else .read

/-- What a delivery means for a scan. -/
inductive Receipt where
  | goOn (session : Session) (log : List Event)
  | streamEnded (session : Session)
  | failed (failure : Failure)

/-- Takes in a delivery. -/
def Session.receive (session : Session) : Delivery → Receipt
  | .octets [] => .streamEnded session
  | .octets chunk =>
    let step := session.feed chunk
    match step.reply with
    | .ok () => .goOn step.state step.log
    | .error failure => .failed failure
  | .interrupted => .goOn session []
  | .failed fault => .failed (.file fault)

/-- Stops the session of a scan that came to its end. -/
def conclude (session : Session) (aborted : Bool) (unread : List Read) : Run :=
  let step := session.stop
  ⟨step.reply.map fun _ => step.state, aborted, unread, step.log⟩

/-- Turns the loop of a scan until it ends. -/
def pump (session : Session) (aborted : Bool) (reads : List Read) : Run :=
  match session.turn aborted, reads with
  | .giveUp, reads => ⟨.error .aborted, aborted, reads, [.aborted session.cursor]⟩
  | .finish, reads => (conclude session aborted reads).after [.allResolved session.cursor]
  | .read, [] => conclude session aborted []
  | .read, read :: rest =>
    match session.receive read.delivery with
    | .goOn session log => (pump session (aborted || read.raisesAbort) rest).after log
    | .streamEnded session => conclude session (aborted || read.raisesAbort) rest
    | .failed failure => ⟨.error failure, aborted || read.raisesAbort, rest, []⟩

namespace Scanner

/-- Changes the size of the buffer. -/
def resize (scanner : Scanner) (size : Nat) : Step Scanner Unit :=
  match BufferSize.ofNat size with
  | .ok buffer => Step.ok () { scanner with buffer } []
  | .error failure => Step.refused failure scanner

/-- Asking for a buffer size changes the buffer and nothing else. -/
theorem state_resize (scanner : Scanner) (size : Nat) :
    (scanner.resize size).state = { scanner with buffer := (scanner.resize size).state.buffer } := by
  unfold resize
  cases BufferSize.ofNat size <;> rfl

/-- Calls off all scans of readers, for good. -/
def callOff (scanner : Scanner) : Scanner := { scanner with aborted := true }

/-- A session over a stream whose size may be known. -/
def newSession (scanner : Scanner) (total : Option Nat) : Session :=
  Session.withTotal scanner.catalog total

/-- Scans octets in memory. -/
def scanOctets (scanner : Scanner) (data : Bytes) : Step Session Unit :=
  (scanner.newSession (some data.length)).start.andThen fun _ session =>
    (session.feed data).andThen fun _ session => session.stop

/-- Scans what a reader delivers. -/
def scanReads (scanner : Scanner) (total : Option Nat) (reads : List Read) : Run :=
  match (scanner.newSession total).start with
  | ⟨.error failure, _, log⟩ => ⟨.error failure, scanner.aborted, reads, log⟩
  | ⟨.ok (), session, log⟩ => (pump session scanner.aborted reads).after log

/-- Scans a file, given what opening it brought. -/
def scanSource (scanner : Scanner) (path : String) (opened : Except FileFault Source) : Run :=
  match opened with
  | .error fault => ⟨.error (.file fault), scanner.aborted, [], []⟩
  | .ok source =>
    (scanner.scanReads source.extent.size? (source.reads scanner.buffer.octets)).after
      [.scanning path source.extent.size?]

end Scanner

/-! ## how far a scan can have to read -/

/-- Where the window of a signature ends, if it has one. -/
def Signature.reach (signature : Signature) (total : Option Nat) : Nat :=
  match signature.locate total with
  | .ok (.window window) => window.stop
  | _ => 0

/-- The position up to which a stream can matter: the last end of a window. -/
def Catalog.reach (catalog : Catalog) (total : Option Nat) : Nat :=
  catalog.signatures.foldl (fun reach signature => max reach (signature.reach total)) 0

end AnchorScan
