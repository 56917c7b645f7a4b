import AnchorScan.Failure
import AnchorScan.Signature

/-!
# AnchorScan.Location

The half-open interval of positions that a signature's pattern would take up.
`Signature.locate` finds it: a start anchor counts forward and needs no size, an end
anchor counts back from the declared size and cannot do without one.  A window
that no stream of that size can hold, or that ends past `maxPosition`, is out
of range.
-/

namespace AnchorScan

/-- The positions from `start` up to, and without, `stop`. -/
structure Window where
  start : Nat
  stop : Nat
  start_le_stop : start ≤ stop := by omega
  deriving DecidableEq

namespace Window

/-- Number of positions. -/
def length (window : Window) : Nat := window.stop - window.start

/-- Whether there is no position in the window. -/
def isEmpty (window : Window) : Bool := window.start = window.stop

/-- The positions that the window shares with those from `start` up to `stop`,
if there are any; the range may be reversed, and then there are none. -/
def intersect (window : Window) (start stop : Nat) : Option Window :=
  if h : max window.start start < min window.stop stop then
    some ⟨max window.start start, min window.stop stop, Nat.le_of_lt h⟩
  else none

end Window

/-- Where a signature can stand in a stream. -/
inductive Location where
  | window (window : Window)
  | outOfRange
  deriving DecidableEq

/-- The window of `length` octets from `start` on, unless it ends past
`maxPosition` or past the declared size. -/
def windowFrom (start length : Nat) (total : Option Nat) : Location :=
  if start + length ≤ maxPosition ∧ total.all (start + length ≤ ·) then
    .window ⟨start, start + length, Nat.le_add_right start length⟩
  else .outOfRange

/-- The window of a signature in a stream whose size may be declared. -/
def Signature.locate (signature : Signature) (total : Option Nat) : Except Failure Location :=
  match signature.anchor, total with
  | .fromStart offset, total => .ok (windowFrom offset signature.length total)
  | .fromEnd _, none => .error (.sizeUnknown 1)
  | .fromEnd offset, some size =>
    if offset ≤ size then .ok (windowFrom (size - offset) signature.length (some size))
    else .ok .outOfRange

end AnchorScan
