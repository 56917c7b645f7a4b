import AnchorScan.CommandLine.Options
import AnchorScan.Settings
import AnchorScan.DefinitionFile
import AnchorScan.Report.Duration
import AnchorScan.Report.Text

/-!
# AnchorScan.CommandLine.Program

What the program does, from its arguments to its exit code.  Everything it asks
of the machine it runs on goes through a `Host`: reading and writing files,
printing, the clocks, and scanning files side by side.  A run opens the log,
settles the configuration, reads the definitions, scans the inputs and prints
the reports, in that order; what goes wrong on the way ends it with one line
that tells the chain of causes.
-/

namespace AnchorScan

/-! ## the machine -/

/-- What the program asks of the machine it runs on. -/
structure Host (m : Type → Type) where
  /-- The number of processors. -/
  processors : m Nat
  readFile : String → m (Except FileFault Bytes)
  /-- Opens a file that log lines are written to from now on. -/
  openLog : String → m (Except FileFault Unit)
  writeLog : String → m Unit
  printOut : String → m Unit
  printError : String → m Unit
  /-- Whether printed text is shown in colours. -/
  showsColors : m Bool
  /-- The time since the epoch. -/
  wallClock : m Duration
  /-- The time since the program started. -/
  stopwatch : m Duration
  /-- Scans files, so many of them side by side, and hands on the events; the
  truth value says whether the first failure calls off the other scans. -/
  scanInputs : Scanner → Nat → Bool → (Event → m Unit) → List String → m (List Report)

/-! ## log lines -/

/-- The name of the program, as log lines show it. -/
def programName : String := "sigscan"

/-- The version of the program. -/
def programVersion : String := "1.0.0"

/-- A level's name, filled up to five characters. -/
def Level.column (level : Level) : String :=
  level.name ++ String.ofList (List.replicate (5 - level.name.length) ' ')

/-- An event as a line. -/
def Event.line (event : Event) : String :=
  event.level.column ++ " [" ++ programName ++ "] " ++ event.message ++ "\n"

/-- A time as seconds with three decimals. -/
def stamp (time : Duration) : String :=
  toString time.seconds ++ "." ++ String.ofList (padded 3 (time.nanoseconds / 1000000))

/-! ## the settings of a run -/

/-- Lays the options of the command line over a configuration. -/
def Options.override (options : Options) (settings : Settings) : Settings :=
  { signaturesFile := options.signatures.getD settings.signaturesFile
    bufferSize := options.bufferSize.getD settings.bufferSize
    threads := options.threads.getD settings.threads
    jsonOutput := options.json || settings.jsonOutput
    progressBars := !(options.noProgress || options.json) && settings.progressBars }

/-- What a run failed for: the chain of causes, outermost first. -/
abbrev Causes := List String

/-- A run fails if any of its scans failed, and tells how many. -/
def verdict (reports : List Report) : Except Causes Unit :=
  match Report.failureCount reports with
  | 0 => .ok ()
  | failed => .error [toString failed ++ " input(s) could not be scanned"]

namespace Host

variable {m : Type → Type} [Monad m] (host : Host m)

/-- Hands an event to the log file, if there is one, or prints it. -/
def emit (options : Options) (event : Event) : m Unit := do
  if event.heardAt (Level.ofVerbosity options.verbosity) then
    if options.logFile.isSome then
      host.writeLog (stamp (← host.wallClock) ++ " " ++ event.line)
    else host.printError event.line

/-- Hands on events in order. -/
def emitAll (options : Options) : List Event → m Unit
  | [] => pure ()
  | event :: rest => do
    host.emit options event
    emitAll options rest

/-- Opens the log file, if one is wanted. -/
def prepareLog (options : Options) : m (Except Causes Unit) := do
  match options.logFile with
  | none => return .ok ()
  | some path =>
    match ← host.openLog path with
    | .ok () => return .ok ()
    | .error fault => return .error ["Failed to open log file", fault.message]

/-- Loads the configuration file, if there is one. -/
def readSettings (options : Options) : m (Except Causes Settings) := do
  let processors ← host.processors
  match options.config with
  | none => return .ok (Settings.standard processors)
  | some path =>
    match Settings.load processors (← host.readFile path) with
    | .ok settings => return .ok settings
    | .error failure => return .error (("Failed to load config " ++ path) :: failure.causes)

/-- Settles the configuration. -/
def settle (options : Options) : m (Except Causes Settings) := do
  match ← host.readSettings options with
  | .error causes => return .error causes
  | .ok loaded =>
    let settings := options.override loaded
    match settings.check with
    | .ok _ => return .ok settings
    | .error failure => return .error failure.causes

/-- Reads the signature definitions. -/
def readCatalog (options : Options) (path : String) : m (Except Causes Catalog) := do
  let step := Catalog.empty.loadFile path (← host.readFile path)
  host.emitAll options step.log
  match step.reply with
  | .ok _ => return .ok step.state
  | .error failure =>
    return .error (("Failed to read signature definitions " ++ path) :: failure.causes)

/-- Prints the reports. -/
def printReports (options : Options) (settings : Settings) (reports : List Report) : m Unit := do
  if settings.jsonOutput then host.printOut (Report.jsonText reports ++ "\n")
  else
    let color := (← host.showsColors) && !options.noColor
    host.printOut (Report.allText { color, size := !options.noSize } reports)
    host.printError ("[+] Scan complete in " ++ (← host.stopwatch).text ++ "\n")

/-- Scans the inputs and prints the reports. -/
def scan (options : Options) (settings : Settings) (catalog : Catalog) :
    m (Except Causes Unit) := do
  if catalog.size = 0 then host.emit options (.noSignatures settings.signaturesFile)
  host.emit options (.loaded catalog.size)
  match settings.scanner catalog with
  | .error failure => return .error failure.causes
  | .ok scanner =>
    let reports ←
      host.scanInputs scanner settings.threads options.failFast (host.emit options)
        options.inputs.toList
    host.printReports options settings reports
    return verdict reports

/-- Does what a command line with inputs asks for. -/
def run (options : Options) : m (Except Causes Unit) := do
  match ← host.prepareLog options with
  | .error causes => return .error causes
  | .ok () =>
    match ← host.settle options with
    | .error causes => return .error causes
    | .ok settings =>
      match ← host.readCatalog options settings.signaturesFile with
      | .error causes => return .error causes
      | .ok catalog => host.scan options settings catalog

/-- The text of the help page. -/
def helpText : String :=
  "Identifies file formats by anchored signatures\n\n" ++
  "Usage: sigscan [OPTIONS] <INPUTS>...\n\n" ++
  "Arguments:\n" ++
  "  <INPUTS>...  Files to scan\n\n" ++
  "Options:\n" ++
  "  -c, --signatures <SIGNATURES>    Signature definitions file\n" ++
  "      --config <CONFIG>            Scanner configuration (JSON)\n" ++
  "      --json\n" ++
  "  -v, --verbose...\n" ++
  "      --buffer-size <BUFFER_SIZE>\n" ++
  "  -j, --threads <THREADS>\n" ++
  "      --no-progress\n" ++
  "      --no-color\n" ++
  "      --no-size                    Omit input sizes from text output\n" ++
  "      --fail-fast                  Abort the remaining scans after the first failure\n" ++
  "      --log-file <LOG_FILE>\n" ++
  "  -h, --help                       Print help\n" ++
  "  -V, --version                    Print version\n"

/-- Runs the program and answers with its exit code: 2 for a command line that
is refused, 1 for a run that failed. -/
def execute (arguments : List String) : m UInt32 := do
  match parseArguments arguments with
  | .error fault =>
    host.printError ("error: " ++ fault.message ++ "\n")
    return 2
  | .ok .help =>
    host.printOut helpText
    return 0
  | .ok .version =>
    host.printOut (programName ++ " " ++ programVersion ++ "\n")
    return 0
  | .ok (.scan options) =>
    match ← host.run options with
    | .ok () => return 0
    | .error causes =>
      host.printError ("[!] " ++ String.intercalate ": " causes ++ "\n")
      return 1

end Host

end AnchorScan
