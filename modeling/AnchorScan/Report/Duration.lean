import AnchorScan.Number.Binary64

/-!
# AnchorScan.Report.Duration

Spans of time for readers: microseconds and milliseconds as whole numbers,
seconds with two decimals, and from a minute on minutes and seconds with one.
The minutes are counted exactly; the seconds come from the whole span as a
floating-point number and are rounded when they are written.
-/

namespace AnchorScan

/-- A span of time. -/
structure Duration where
  seconds : Nat
  nanoseconds : Nat
  nanoseconds_lt : nanoseconds < 1000000000
  deriving DecidableEq

namespace Duration

/-- The span of so many seconds and nanoseconds, of which a billion make one
more second. -/
def ofParts (seconds nanoseconds : Nat) : Duration :=
  ⟨seconds + nanoseconds / 1000000000, nanoseconds % 1000000000, Nat.mod_lt _ (by decide)⟩

/-- Whole milliseconds. -/
def milliseconds (span : Duration) : Nat :=
  span.seconds * 1000 + span.nanoseconds / 1000000

/-- Whole microseconds. -/
def microseconds (span : Duration) : Nat :=
  span.seconds * 1000000 + span.nanoseconds / 1000

/-- The span in seconds as a floating-point number. -/
def inSeconds (span : Duration) : Binary64 :=
  (Binary64.ofNat span.seconds).add (Binary64.nearest span.nanoseconds 1000000000)

/-- The text of a span. -/
def text (span : Duration) : String :=
  if span.milliseconds = 0 then toString span.microseconds ++ "µs"
  else if span.milliseconds < 1000 then toString span.milliseconds ++ "ms"
  else if span.seconds < 60 then span.inSeconds.fixedText 2 1 ++ "s"
  else
    toString (span.seconds / 60) ++ "m " ++ (span.inSeconds.modNat 60).fixedText 1 1 ++ "s"

end Duration

end AnchorScan
