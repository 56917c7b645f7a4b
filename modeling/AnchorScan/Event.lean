import AnchorScan.Failure

/-!
# AnchorScan.Event

The log.  Every call that has something to report returns the events of that
call in order; an `Event` says what happened, `Event.level` how much it
matters and `Event.message` how it is worded.  Who listens chooses a level and
gets the events that matter at least as much (`Event.heardAt`).
-/

namespace AnchorScan

/-- How much an event matters, from most to least. -/
inductive Level where
  | error
  | warn
  | info
  | debug
  | trace
  deriving DecidableEq, Repr

namespace Level

/-- Rank of a level: the more it matters, the smaller. -/
def rank : Level → Nat
  | error => 0
  | warn => 1
  | info => 2
  | debug => 3
  | trace => 4

/-- Name of a level in a log line. -/
def name : Level → String
  | error => "ERROR"
  | warn => "WARN"
  | info => "INFO"
  | debug => "DEBUG"
  | trace => "TRACE"

/-- Least level shown when the user asks `count` times for more. -/
def ofVerbosity (count : Nat) : Level :=
  match count with
  | 0 => warn
  | 1 => info
  | 2 => debug
  | _ => trace

end Level

/-- Something worth a line in the log. -/
inductive Event where
  /-- A definitions file was read whole. -/
  | definitionsRead (count : Nat) (path : String)
  /-- A pattern's last octet was written as a bare blank. -/
  | trailingBlank (identifier : String)
  /-- A signature, given by its text, entered a catalog. -/
  | registered (signature : String)
  /-- A signature cannot occur in a stream of this size. -/
  | outOfRange (identifier : String) (total : Option Nat)
  | prepared (live count arena : Nat)
  | started (count : Nat) (total : Option Nat)
  | matched (identifier : String) (offset : Nat)
  /-- A piece of the stream was taken in. -/
  | fed (start stop live found : Nat)
  /-- The stream turned out longer than declared. -/
  | overrun (cursor total : Nat)
  | discarded (count : Nat)
  | stopped (cursor findings : Nat)
  | aborted (cursor : Nat)
  /-- No signature is left to look for. -/
  | allResolved (cursor : Nat)
  | scanning (path : String) (size : Option Nat)
  | noSignatures (path : String)
  | loaded (count : Nat)
  | scanFailed (path : String) (failure : Failure)
  deriving DecidableEq, Repr

/-- A size that may be unknown, as log lines show it. -/
def totalText : Option Nat → String
  | none => "None"
  | some size => "Some(" ++ toString size ++ ")"

namespace Event

/-- How much an event matters. -/
def level : Event → Level
  | definitionsRead .. | registered .. | prepared .. | started .. | matched .. | discarded ..
  | stopped .. | scanning .. => .debug
  | trailingBlank .. | overrun .. | noSignatures .. => .warn
  | outOfRange .. | fed .. | allResolved .. => .trace
  | aborted .. | loaded .. => .info
  | scanFailed .. => .error

/-- The wording of an event. -/
def message : Event → String
  | definitionsRead count path =>
    "Read " ++ toString count ++ " signature definition(s) from " ++ path
  | trailingBlank identifier =>
    "Pattern of " ++ identifier ++ " ends in unescaped whitespace, which is matched literally"
  | registered signature => "Registered signature " ++ signature
  | outOfRange identifier total =>
    "Signature " ++ identifier ++ " out of range for size " ++ totalText total
  | prepared live count arena =>
    "Prepared scan: " ++ toString live ++ " of " ++ toString count ++ " signature(s) live, " ++
      toString arena ++ " arena byte(s)"
  | started count total =>
    "Scan started: " ++ toString count ++ " signature(s), total size " ++ totalText total
  | matched identifier offset => "Matched " ++ identifier ++ " at offset " ++ toString offset
  | fed start stop live found =>
    "Fed [" ++ toString start ++ ", " ++ toString stop ++ "): " ++ toString live ++ " live, " ++
      toString found ++ " new match(es)"
  | overrun cursor total =>
    "Scanned " ++ toString cursor ++ " byte(s), past the declared total size of " ++
      toString total
  | discarded count => "Discarding " ++ toString count ++ " incomplete signature window(s)"
  | stopped cursor findings =>
    "Scan stopped after " ++ toString cursor ++ " byte(s): " ++ toString findings ++ " result(s)"
  | aborted cursor => "Scan aborted after " ++ toString cursor ++ " byte(s)"
  | allResolved cursor => "All signatures resolved at " ++ toString cursor ++ " byte(s)"
  | scanning path none => "Scanning " ++ path ++ " (size unknown)"
  | scanning path (some size) => "Scanning " ++ path ++ " (" ++ toString size ++ " bytes)"
  | noSignatures path => "No signatures defined in " ++ path
  | loaded count => "Loaded " ++ toString count ++ " signature(s)"
  | scanFailed path failure => "Failed to scan " ++ path ++ ": " ++ failure.message

/-- Whether a listener at `level` hears the event. -/
def heardAt (level : Level) (event : Event) : Bool := event.level.rank ≤ level.rank

end Event

end AnchorScan
