import AnchorScan.CommandLine.FileTree
import AnchorScan.CommandLine.Program
import AnchorScan.Scanner.Batch

/-!
# AnchorScan.CommandLine.Machine

A machine in memory: files, what was printed, and clocks that stand still.  It
scans the inputs of a run one after the other.
-/

namespace AnchorScan

/-- A log file, and the lines that were written to it, the latest first. -/
structure Log where
  place : Place
  lines : List String := []

/-- What was written to a log. -/
def Log.octets (log : Log) : Bytes :=
  log.lines.reverse.flatMap fun line => line.toUTF8.data.toList

/-- A machine in memory. -/
structure Machine where
  /-- The files, without what was written to the log. -/
  tree : FileTree
  log : Option Log := none
  out : String := ""
  error : String := ""

namespace Machine

/-! ## files -/

/-- What was written to the file at a place. -/
def logged (machine : Machine) (place : Place) : Bytes :=
  match machine.log with
  | some log => if log.place = place then log.octets else []
  | none => []

/-- Opens what a path leads to. -/
def lookup (machine : Machine) (path : String) : Except FileFault Node :=
  match machine.tree.locate path with
  | .error fault => .error fault
  | .ok place =>
    match machine.tree.node? place with
    | some (.regular content) => .ok (.regular (content ++ machine.logged place))
    | some node => .ok node
    | none => .error .notFound

/-- What opening a file to scan it brings.  An endless device is shown as far as
the signatures reach. -/
def source (machine : Machine) (catalog : Catalog) (path : String) : Except FileFault Source :=
  (machine.lookup path).map fun
    | .regular content => .regular content
    | .directory => .directory
    | .null => .null
    | .zeros => .zeros (catalog.reach none)

/-- The content of a file that is read whole. -/
def content (machine : Machine) (path : String) : Except FileFault Bytes :=
  match machine.lookup path with
  | .error fault => .error fault
  | .ok (.regular content) => .ok content
  | .ok .directory => .error .isDirectory
  | .ok .null => .ok []
  | .ok .zeros => .error (.other "Cannot allocate memory (os error 12)")

/-! ## printing and logging -/

/-- Prints. -/
def printOut (machine : Machine) (text : String) : Machine :=
  { machine with out := machine.out ++ text }

/-- Prints to the channel for errors. -/
def printError (machine : Machine) (text : String) : Machine :=
  { machine with error := machine.error ++ text }

/-- Opens a log. -/
def openLog (machine : Machine) (path : String) : Except FileFault Unit × Machine :=
  match machine.tree.openForAppend path with
  | .error fault => (.error fault, machine)
  | .ok (place, tree) => (.ok (), { machine with tree, log := some { place } })

/-- Writes to the log, which may be one of the channels that are printed to. -/
def writeLog (machine : Machine) (line : String) : Machine :=
  match machine.log with
  | none => machine
  | some ⟨["dev", "stdout"], _⟩ => machine.printOut line
  | some ⟨["dev", "stderr"], _⟩ => machine.printError line
  | some ⟨place, lines⟩ => { machine with log := some ⟨place, line :: lines⟩ }

/-! ## scanning -/

/-- The scan of one input, brought to its end. -/
def scan (machine : Machine) (scanner : Scanner) (failFast : Bool) (path : String) : Batch :=
  let job := Job.queued path (machine.source scanner.catalog path)
  let batch : Batch := { scanner, failFast, jobs := #[job] }
  batch.run batch.oneByOne

/-- Scans inputs one after the other, and opens each when its turn comes. -/
def scanInputs (failFast : Bool) (emit : Event → StateM Machine Unit) :
    Scanner → List String → StateM Machine (List Report)
  | _, [] => pure []
  | scanner, path :: rest => do
    let batch := (← get).scan scanner failFast path
    batch.log.toList.forM emit
    let reports ← scanInputs failFast emit batch.scanner rest
    return batch.reports ++ reports

/-- The machine as a host of the program. -/
def host : Host (StateM Machine) where
  processors := pure 1
  readFile path := do return (← get).content path
  openLog path := modifyGet (·.openLog path)
  writeLog line := modify (·.writeLog line)
  printOut text := modify (·.printOut text)
  printError text := modify (·.printError text)
  showsColors := pure false
  wallClock := pure (Duration.ofParts 1000000000 0)
  stopwatch := pure (Duration.ofParts 0 0)
  scanInputs scanner _ failFast emit inputs := scanInputs failFast emit scanner inputs

/-- Runs the program: its exit code and the machine afterwards. -/
def run (machine : Machine) (arguments : List String) : UInt32 × Machine :=
  StateT.run (host.execute arguments) machine

end Machine

end AnchorScan
