import AnchorScan.Number.Rounding

/-!
# AnchorScan.Number.Binary64

Non-negative binary floating-point numbers of 64 bits, below their range's
limit.  Each of them is a multiple of the smallest positive one, `2 ^ -1074`,
so a number is given by how many of those it has, its grains.  `nearest` rounds
a quotient to 53 significant bits, or to whole grains where that is coarser; of
two equally near numbers it takes the one with an even last bit.
-/

namespace AnchorScan

/-- A non-negative floating-point number, counted in multiples of
`2 ^ -1074`. -/
structure Binary64 where
  grains : Nat
  deriving DecidableEq, Repr

namespace Binary64

/-- The grains of the number one. -/
def one : Nat := Nat.pow 2 1074

/-- The floating-point number nearest to `num / den`. -/
def nearest (num den : Nat) : Binary64 :=
  let spacing := Nat.pow 2 (Nat.log2 (num * one / den) - 52)
  ⟨roundDiv (num * one) (den * spacing) * spacing⟩

/-- The number nearest to a natural number. -/
def ofNat (n : Nat) : Binary64 := nearest n 1

/-- The number nearest to a sum. -/
def add (x y : Binary64) : Binary64 := nearest (x.grains + y.grains) one

/-- What is left of a number after taking away a natural number as often as
possible.  No rounding is needed. -/
def modNat (x : Binary64) (n : Nat) : Binary64 := ⟨x.grains % (n * one)⟩

/-- The text of `x / n` with a fixed number of decimal places.  Where `n` is a
power of two, the quotient is a floating-point number itself. -/
def fixedText (places : Nat) (x : Binary64) (n : Nat) : String :=
  AnchorScan.fixedText places x.grains (n * one)

end Binary64

end AnchorScan
