import AnchorScan.Failure
import AnchorScan.Bytes

/-!
# AnchorScan.Scanner.Reader

Where the octets of a scan come from.  A reader answers each call with some
octets, with none at the end of the stream, with the news that it was
interrupted, or with a fault; while a call waits, somebody may raise the abort
flag.  A reader is given by its answers in order, and once they are used up the
stream is at its end.  A `Source` is what opening a file brings: the size, where
it can be told beforehand, and the reader.
-/

namespace AnchorScan

/-- What a call to a reader brings. -/
inductive Delivery where
  /-- The next octets of the stream, or none at its end. -/
  | octets (octets : Bytes)
  /-- Nothing yet: the call has to be made again. -/
  | interrupted
  | failed (fault : FileFault)
  deriving DecidableEq, Repr

/-- One call to a reader. -/
structure Read where
  delivery : Delivery
  /-- Whether the abort flag goes up while the call waits. -/
  raisesAbort : Bool := false
  deriving DecidableEq, Repr

/-- How far an open file reaches, as far as that can be told. -/
inductive Extent where
  /-- A regular file of known length. -/
  | regular (length : Nat)
  /-- A device whose last position is found by seeking. -/
  | seekable (stop : Nat)
  /-- A pipe or a device that cannot be positioned. -/
  | unseekable
  deriving DecidableEq, Repr

/-- The size to declare for an extent.  Character devices claim to end where
they begin, which says nothing. -/
def Extent.size? : Extent → Option Nat
  | .regular length => some length
  | .seekable 0 => none
  | .seekable stop => some stop
  | .unseekable => none

/-- An open file: how far it reaches, and how it answers reads of a given
number of octets. -/
structure Source where
  extent : Extent
  reads : Nat → List Read

namespace Source

/-- The reads of a stream that fill the buffer as long as octets are left. -/
def fullReads (data : Bytes) (size : Nat) : List Read :=
  (slices size data).map fun slice => { delivery := .octets slice }

/-- A regular file. -/
def regular (data : Bytes) : Source := ⟨.regular data.length, fullReads data⟩

/-- A pipe that nobody writes to any more. -/
def pipe (data : Bytes) : Source := ⟨.unseekable, fullReads data⟩

/-- A device with nothing in it. -/
def null : Source := ⟨.seekable 0, fun _ => []⟩

/-- A device that never runs out of zeros, shown up to the read that goes past
the position `reach`. -/
def zeros (reach : Nat) : Source :=
  ⟨.seekable 0, fun size =>
    List.replicate (reach / size + 1) { delivery := .octets (List.replicate size 0) }⟩

/-- A directory: it can be opened and not read. -/
def directory : Source := ⟨.unseekable, fun _ => [{ delivery := .failed .isDirectory }]⟩

end Source

end AnchorScan
