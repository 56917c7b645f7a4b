import AnchorScan.Json.Fields
import AnchorScan.Json.Reader
import AnchorScan.Scanner

/-!
# AnchorScan.Settings

The settings of a scan.  A configuration file is a JSON record that may mention
any of them; the others keep their defaults, one of which is the number of the
machine's processors.  Settings are checked when they are used: the buffer size
first, then the number of threads.
-/

namespace AnchorScan

open Json

/-- The settings of a scan. -/
structure Settings where
  signaturesFile : String
  bufferSize : Nat
  threads : Nat
  jsonOutput : Bool
  progressBars : Bool
  deriving DecidableEq, Repr

namespace Settings

/-- The settings that nobody asked for, on a machine with some processors. -/
def standard (processors : Nat) : Settings :=
  { signaturesFile := "sigscan.conf"
    bufferSize := BufferSize.standard.octets
    threads := processors
    jsonOutput := false
    progressBars := true }

/-- Checks the settings and answers with the buffer size. -/
def check (settings : Settings) : Except Failure BufferSize :=
  match BufferSize.ofNat settings.bufferSize with
  | .error failure => .error failure
  | .ok buffer =>
    if settings.threads = 0 then .error (.unusableSettings "threads must be greater than 0")
    else .ok buffer

/-- A scanner over a catalog with the settings' buffer size. -/
def scanner (settings : Settings) (catalog : Catalog) : Except Failure Scanner :=
  settings.check.map fun buffer => { catalog, buffer }

/-! ## files -/

/-- The names of the settings in JSON, in their order. -/
def fieldNames : List String :=
  ["signatures_file", "scan_buffer_size", "threads", "json_output", "enable_progress_bars"]

/-- The settings in JSON. -/
def toJson (settings : Settings) : Value :=
  .record [
    ("signatures_file", .text settings.signaturesFile),
    ("scan_buffer_size", .natural settings.bufferSize),
    ("threads", .natural settings.threads),
    ("json_output", .bool settings.jsonOutput),
    ("enable_progress_bars", .bool settings.progressBars)]

/-- Reads settings; those that are not mentioned are taken from `absent`. -/
def ofJson? (absent : Settings) (value : Value) : Option Settings := do
  let fields ← value.fields? fieldNames .partly
  let signaturesFile ← fields.fieldOr "signatures_file" Value.text? absent.signaturesFile
  let bufferSize ← fields.fieldOr "scan_buffer_size" Value.natural? absent.bufferSize
  let threads ← fields.fieldOr "threads" Value.natural? absent.threads
  let jsonOutput ← fields.fieldOr "json_output" Value.bool? absent.jsonOutput
  let progressBars ← fields.fieldOr "enable_progress_bars" Value.bool? absent.progressBars
  some { signaturesFile, bufferSize, threads, jsonOutput, progressBars }

/-- Reads the text of a configuration file and checks the settings. -/
def ofText (processors : Nat) (text : String) : Except Failure Settings :=
  match parse text with
  | none => .error (.unreadableSettings "the file is no JSON document")
  | some document =>
    match ofJson? (standard processors) document with
    | none => .error (.unreadableSettings "the document does not describe settings")
    | some settings => settings.check.map fun _ => settings

/-- Loads a configuration file, given what opening it brought. -/
def load (processors : Nat) (content : Except FileFault Bytes) : Except Failure Settings :=
  match content with
  | .error fault => .error (.file fault)
  | .ok octets =>
    match String.fromUTF8? octets.toByteArray with
    | none => .error (.file .notText)
    | some text => ofText processors text

end Settings

end AnchorScan
