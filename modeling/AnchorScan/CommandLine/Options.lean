import AnchorScan.Bytes

/-!
# AnchorScan.CommandLine.Options

The arguments of the program.  Arguments are taken from left to right: the
first that is wrong refuses the command line, and the first that asks for the
version or for help ends it, whatever follows.  An option has a long name after
two hyphens, some have a letter after one hyphen, and letters can be joined.
The value of an option follows it, after an equals sign, right after its letter
or as the next argument, which must not look like an option.  After two hyphens
alone every argument is an input.
-/

namespace AnchorScan

/-! ## options -/

/-- Options without a value. -/
inductive Flag where
  | json
  | verbose
  | noProgress
  | noColor
  | noSize
  | failFast
  | help
  | version
  deriving DecidableEq, Repr

/-- Options with a value. -/
inductive Parameter where
  | signatures
  | config
  | bufferSize
  | threads
  | logFile
  deriving DecidableEq, Repr

/-- An option. -/
inductive Switch where
  | flag (flag : Flag)
  | parameter (parameter : Parameter)
  deriving DecidableEq, Repr

namespace Switch

/-- The option of a long name. -/
def long? (name : String) : Option Switch :=
  match name with
  | "json" => some (flag .json)
  | "verbose" => some (flag .verbose)
  | "no-progress" => some (flag .noProgress)
  | "no-color" => some (flag .noColor)
  | "no-size" => some (flag .noSize)
  | "fail-fast" => some (flag .failFast)
  | "help" => some (flag .help)
  | "version" => some (flag .version)
  | "signatures" => some (parameter .signatures)
  | "config" => some (parameter .config)
  | "buffer-size" => some (parameter .bufferSize)
  | "threads" => some (parameter .threads)
  | "log-file" => some (parameter .logFile)
  | _ => none

/-- The option of a letter. -/
def letter? (letter : Char) : Option Switch :=
  match letter with
  | 'c' => some (parameter .signatures)
  | 'j' => some (parameter .threads)
  | 'v' => some (flag .verbose)
  | 'h' => some (flag .help)
  | 'V' => some (flag .version)
  | _ => none

end Switch

/-- What the user asked for. -/
structure Options where
  inputs : Array String := #[]
  signatures : Option String := none
  config : Option String := none
  bufferSize : Option Nat := none
  threads : Option Nat := none
  logFile : Option String := none
  verbosity : Nat := 0
  json : Bool := false
  noProgress : Bool := false
  noColor : Bool := false
  noSize : Bool := false
  failFast : Bool := false
  deriving DecidableEq, Repr

/-- What is wrong with a command line. -/
inductive UsageError where
  | unknownOption (written : String)
  | missingValue
  | unexpectedValue (written : String)
  | invalidValue (written : String)
  | repeatedOption
  | noInputs
  deriving DecidableEq, Repr

/-- The text of a usage error. -/
def UsageError.message : UsageError → String
  | unknownOption written => "unexpected argument '" ++ written ++ "' found"
  | missingValue => "a value is required for an option but none was supplied"
  | unexpectedValue written => "unexpected value for '" ++ written ++ "' found"
  | invalidValue written => "invalid value '" ++ written ++ "'"
  | repeatedOption => "an option cannot be used multiple times"
  | noInputs => "the following required arguments were not provided: <INPUTS>..."

/-! ## single options -/

/-- A number with a decimal digit behind it.  One that is too large already
stays as it is. -/
def appendDigit (value : Nat) (digit : Char) : Nat :=
  if maxPosition < value then value else 10 * value + (digit.toNat - 48)

/-- A 64-bit natural number in decimal digits, which a plus sign may precede. -/
def parseNatural? (text : String) : Option Nat :=
  let digits : List Char := match text.toList with
    | '+' :: rest => rest
    | all => all
  let value := digits.foldl appendDigit 0
  if digits ≠ [] ∧ digits.all (fun c => '0' ≤ c ∧ c ≤ '9') ∧ value ≤ maxPosition then some value
  else none

/-- Turns on something that is off. -/
def turnOn (isOn : Bool) (changed : Options) : Except UsageError Options :=
  if isOn then .error .repeatedOption else .ok changed

/-- Fills in a value that is missing. -/
def fillIn {α : Type} (present : Option α) (changed : Options) : Except UsageError Options :=
  if present.isSome then .error .repeatedOption else .ok changed

namespace Options

/-- Takes in a path; the empty one is none. -/
def withInput (options : Options) (path : String) : Except UsageError Options :=
  if path = "" then .error (.invalidValue path)
  else .ok { options with inputs := options.inputs.push path }

/-- Takes in an option with its value. -/
def withParameter (options : Options) (parameter : Parameter) (value : String) :
    Except UsageError Options :=
  match parameter, value, parseNatural? value with
  | .bufferSize, _, none | .threads, _, none | .signatures, "", _ | .config, "", _
  | .logFile, "", _ => .error (.invalidValue value)
  | .bufferSize, _, some size =>
    fillIn options.bufferSize { options with bufferSize := some size }
  | .threads, _, some count => fillIn options.threads { options with threads := some count }
  | .signatures, path, _ => fillIn options.signatures { options with signatures := some path }
  | .config, path, _ => fillIn options.config { options with config := some path }
  | .logFile, path, _ => fillIn options.logFile { options with logFile := some path }

end Options

/-! ## the command line -/

/-- What a command line asks for. -/
inductive Request where
  | scan (options : Options)
  | help
  | version
  deriving DecidableEq, Repr

/-- What the arguments so far amount to. -/
inductive Parsed where
  /-- The options so far, and one that its value has to follow. -/
  | soFar (options : Options) (waiting : Option Parameter)
  /-- After two hyphens alone. -/
  | onlyInputs (options : Options)
  /-- Nothing that follows matters. -/
  | settled (request : Request)
  deriving DecidableEq, Repr

/-- Takes in an option without a value. -/
def takeFlag (options : Options) : Flag → Except UsageError Parsed
  | .help => .ok (.settled .help)
  | .version => .ok (.settled .version)
  | .verbose => .ok (.soFar { options with verbosity := options.verbosity + 1 } none)
  | .json => (turnOn options.json { options with json := true }).map (.soFar · none)
  | .noProgress =>
    (turnOn options.noProgress { options with noProgress := true }).map (.soFar · none)
  | .noColor => (turnOn options.noColor { options with noColor := true }).map (.soFar · none)
  | .noSize => (turnOn options.noSize { options with noSize := true }).map (.soFar · none)
  | .failFast => (turnOn options.failFast { options with failFast := true }).map (.soFar · none)

/-- Takes in an argument that starts with two hyphens and goes on. -/
def takeLong (options : Options) (written : List Char) : Except UsageError Parsed :=
  let name := String.ofList (written.takeWhile (· ≠ '='))
  match Switch.long? name, written.dropWhile (· ≠ '=') with
  | none, _ => .error (.unknownOption ("--" ++ name))
  | some (.flag flag), [] => takeFlag options flag
  | some (.flag _), _ => .error (.unexpectedValue ("--" ++ name))
  | some (.parameter parameter), [] => .ok (.soFar options (some parameter))
  | some (.parameter parameter), _ :: value =>
    (options.withParameter parameter (String.ofList value)).map (.soFar · none)

/-- Takes in the letters of an argument that starts with one hyphen. -/
def takeLetters (options : Options) : List Char → Except UsageError Parsed
  | [] => .ok (.soFar options none)
  | letter :: rest =>
    match Switch.letter? letter, rest with
    | none, _ => .error (.unknownOption (String.ofList ['-', letter]))
    | some (.flag flag), rest =>
      match takeFlag options flag with
      | .ok (.soFar options _) => takeLetters options rest
      | settled => settled
    | some (.parameter parameter), [] => .ok (.soFar options (some parameter))
    | some (.parameter parameter), '=' :: value =>
      (options.withParameter parameter (String.ofList value)).map (.soFar · none)
    | some (.parameter parameter), value =>
      (options.withParameter parameter (String.ofList value)).map (.soFar · none)

namespace Parsed

/-- Takes in one argument. -/
def take (parsed : Parsed) (argument : String) : Except UsageError Parsed :=
  match parsed, argument.toList with
  | settled request, _ => .ok (settled request)
  | onlyInputs options, _ => (options.withInput argument).map onlyInputs
  | soFar options none, ['-', '-'] => .ok (onlyInputs options)
  | soFar options none, '-' :: '-' :: written => takeLong options written
  | soFar options none, '-' :: letter :: letters => takeLetters options (letter :: letters)
  | soFar options none, _ => (options.withInput argument).map (soFar · none)
  | soFar _ (some _), '-' :: _ :: _ => .error .missingValue
  | soFar options (some parameter), _ =>
    (options.withParameter parameter argument).map (soFar · none)

/-- What the command line asks for, now that it is at its end. -/
def request : Parsed → Except UsageError Request
  | settled request => .ok request
  | soFar _ (some _) => .error .missingValue
  | soFar options none | onlyInputs options =>
    if options.inputs.isEmpty then .error .noInputs else .ok (.scan options)

end Parsed

/-- Takes in arguments from left to right. -/
def takeArguments (parsed : Parsed) : List String → Except UsageError Parsed
  | [] => .ok parsed
  | argument :: rest =>
    match parsed.take argument with
    | .ok (.settled request) => .ok (.settled request)
    | .ok parsed => takeArguments parsed rest
    | .error fault => .error fault

/-- What a command line asks for. -/
def parseArguments (arguments : List String) : Except UsageError Request :=
  match takeArguments (.soFar {} none) arguments with
  | .ok parsed => parsed.request
  | .error fault => .error fault

end AnchorScan
