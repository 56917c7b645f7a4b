import AnchorScan.CommandLine.Program
import AnchorScan.Scanner.Batch
import Std.Time.DateTime.Timestamp

/-!
# AnchorScan.Main

The program on a real machine: its host reads and writes files, prints, and
asks the clocks.  Workers take the inputs in turn and bring each scan to its end
through its stages, with an abort flag that all of them share.
-/

namespace AnchorScan.Main

/-! ## files -/

/-- What the system reports, by its number and its wording. -/
def fault (code : UInt32) (details : String) : FileFault :=
  match code with
  | 2 => .notFound
  | 20 => .notDirectory
  | 21 => .isDirectory
  | 36 => .nameTooLong
  | _ => .other (details ++ " (os error " ++ toString code ++ ")")

/-- What the system reports. -/
def faultOf (error : IO.Error) : FileFault :=
  match error with
  | .noFileOrDirectory _ code details | .interrupted _ code details
  | .alreadyExists _ code details | .invalidArgument _ code details
  | .permissionDenied _ code details | .resourceExhausted _ code details
  | .inappropriateType _ code details | .noSuchThing _ code details
  | .otherError code details | .resourceBusy code details | .resourceVanished code details
  | .unsupportedOperation code details | .hardwareFault code details
  | .unsatisfiedConstraints code details | .illegalOperation code details
  | .protocolError code details | .timeExpired code details => fault code details
  | .unexpectedEof => .other "unexpected end of file"
  | .userError text => .other text

/-- Does something with the file of a path. -/
def withPath {α : Type} (path : String) (action : IO α) : IO (Except FileFault α) := do
  if path.toList.contains '\x00' then return .error .nulInPath
  try return .ok (← action) catch error => return .error (faultOf error)

/-- Opens a file to scan it.  Handles cannot be positioned, so only a regular
file tells how far it reaches. -/
def openInput (path : String) : IO (IO.FS.Handle × Option Nat) := do
  let handle ← IO.FS.Handle.mk path .read
  let metadata ← ((← IO.currentDir) / path).metadata
  let extent := match metadata.type with
    | .file => Extent.regular metadata.byteSize.toNat
    | _ => Extent.unseekable
  return (handle, extent.size?)

/-- Reads once. -/
def readOnce (handle : IO.FS.Handle) (count : Nat) : IO Delivery := do
  try
    return .octets (← handle.read (USize.ofNat count)).toList
  catch error =>
    match error with
    | .interrupted .. => return .interrupted
    | _ => return .failed (faultOf error)

/-! ## scanning -/

/-- What the scans of a run share. -/
structure Shared where
  scanner : Scanner
  failFast : Bool
  aborted : IO.Ref Bool
  emit : Event → IO Unit

/-- Brings the scan of one file to its end. -/
partial def finish (shared : Shared) (path : String) (handle : Option IO.FS.Handle)
    (stage : Stage) (log : List Event) : IO Report := do
  log.forM shared.emit
  match stage, handle with
  | .done report, _ => return report
  | .turning session, _ =>
    let (stage, log) := Stage.turn path (← shared.aborted.get) session
    finish shared path handle stage log
  | .reading session, some input =>
    let delivery ← readOnce input shared.scanner.buffer.octets
    let (stage, log) := Stage.receive path session delivery
    finish shared path handle stage log
  | .reading session, none =>
    let (stage, log) := Stage.conclude path session
    finish shared path handle stage log
  | .failing failure, _ =>
    let (stage, log) := Stage.fail path failure
    let report ← finish shared path handle stage log
    if shared.failFast then shared.aborted.set true
    return report

/-- Scans one file. -/
def scanPath (shared : Shared) (path : String) : IO Report := do
  let opened ← withPath path (openInput path)
  let handle := opened.toOption.map fun input => input.1
  let (stage, log) :=
    Stage.start shared.scanner path (opened.map fun input => input.2)
  finish shared path handle stage log

/-- Takes inputs, each the next one that nobody took, until none is left. -/
partial def work (shared : Shared) (inputs : Array String) (next : IO.Ref Nat) :
    IO (List (Nat × Report)) := do
  let index ← next.modifyGet fun index => (index, index + 1)
  match inputs[index]? with
  | none => return []
  | some path =>
    let report ← scanPath shared path
    return (index, report) :: (← work shared inputs next)

/-- Scans files with some workers and puts the reports in the order of the
inputs. -/
def scanInputs (scanner : Scanner) (workers : Nat) (failFast : Bool) (emit : Event → IO Unit)
    (inputs : List String) : IO (List Report) := do
  let shared : Shared := { scanner, failFast, aborted := ← IO.mkRef scanner.aborted, emit }
  let next ← IO.mkRef 0
  let tasks ← (List.range (min workers inputs.length)).mapM fun _ =>
    IO.asTask (work shared inputs.toArray next) .dedicated
  let finished ← tasks.mapM fun task => IO.ofExcept task.get
  let reports := finished.flatten
  return (List.range inputs.length).filterMap fun index => reports.lookup index

/-! ## the host -/

/-- The time since the epoch. -/
def wallClock : IO Duration := do
  let now ← Std.Time.Timestamp.now
  return Duration.ofParts 0 now.toNanosecondsSinceUnixEpoch.toInt.toNat

/-- Counts the processors that the system lists, of which there is at least
one. -/
def processors : IO Nat := do
  match ← withPath "/proc/cpuinfo" (IO.FS.lines "/proc/cpuinfo") with
  | .ok lines => return max 1 (lines.filter (·.startsWith "processor")).size
  | .error _ => return 1

/-- The machine that the program runs on. -/
def host (started : Nat) (log : IO.Ref (Option IO.FS.Handle)) : Host IO where
  processors := processors
  readFile path := withPath path do return (← IO.FS.readBinFile path).toList
  openLog path := withPath path do log.set (some (← IO.FS.Handle.mk path .append))
  writeLog line := do
    match ← log.get with
    | none => return
    | some handle =>
      handle.putStr line
      handle.flush
  printOut text := IO.print text
  printError text := IO.eprint text
  showsColors := do (← IO.getStdout).isTty
  wallClock := wallClock
  stopwatch := do return Duration.ofParts 0 ((← IO.monoNanosNow) - started)
  scanInputs := scanInputs

end AnchorScan.Main

/-- Runs the program. -/
def main (arguments : List String) : IO UInt32 := do
  let started ← IO.monoNanosNow
  let log ← IO.mkRef none
  (AnchorScan.Main.host started log).execute arguments
