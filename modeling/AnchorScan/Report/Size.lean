import AnchorScan.Number.Binary64

/-!
# AnchorScan.Report.Size

Sizes for readers: octets up to 1023, and from there on two decimals of the
largest unit that does not exceed the size, each unit 1024 times the one before
it.
-/

namespace AnchorScan

/-- A unit for sizes: its name and its number of octets. -/
structure SizeUnit where
  name : String
  octets : Nat
  deriving DecidableEq, Repr

namespace SizeUnit

def kilo : SizeUnit := ⟨"KB", 1024⟩
def mega : SizeUnit := ⟨"MB", 1024 * kilo.octets⟩
def giga : SizeUnit := ⟨"GB", 1024 * mega.octets⟩
def tera : SizeUnit := ⟨"TB", 1024 * giga.octets⟩

/-- The first of some units of which a number has less than 1024, or else the
last unit. -/
def choose (value : Binary64) (unit : SizeUnit) : List SizeUnit → SizeUnit
  | [] => unit
  | larger :: rest =>
    if value.grains < 1024 * unit.octets * Binary64.one then unit
    else choose value larger rest

end SizeUnit

/-- The text of a size. -/
def readableSize (size : Nat) : String :=
  if size < 1024 then toString size ++ " bytes"
  else
    let value := Binary64.ofNat size
    let unit := SizeUnit.choose value .kilo [.mega, .giga, .tera]
    value.fixedText 2 unit.octets ++ " " ++ unit.name

/-- A count and what is counted, with an `s` unless there is exactly one. -/
def counted (count : Nat) (noun : String) : String :=
  toString count ++ " " ++ noun ++ (if count = 1 then "" else "s")

end AnchorScan
