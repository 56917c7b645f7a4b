import AnchorScan.Bytes

/-!
# AnchorScan.Signature

A signature names a file format by octets at a fixed place: its anchor counts
an offset from the first octet of a stream or back from the stream's size.  A
`Definition` is what somebody writes down; a `Signature` has its place in a
catalog as well, and its pattern is never empty.
-/

namespace AnchorScan

/-- Where a pattern must stand. -/
inductive Anchor where
  /-- So many octets after the start of the stream. -/
  | fromStart (offset : Nat)
  /-- So many octets before the end of the stream. -/
  | fromEnd (offset : Nat)
  deriving DecidableEq, Repr

/-- The end of the stream that an anchor counts from. -/
inductive AnchorClass where
  | fromStart
  | fromEnd
  deriving DecidableEq, Repr

namespace Anchor

/-- The end of the stream that the anchor counts from. -/
def anchorClass : Anchor → AnchorClass
  | fromStart _ => .fromStart
  | fromEnd _ => .fromEnd

/-- The distance that the anchor counts. -/
def offset : Anchor → Nat
  | fromStart offset => offset
  | fromEnd offset => offset

/-- An anchor's text: a sign for its end of the stream, and the offset. -/
def text : Anchor → String
  | fromStart offset => "+" ++ toString offset
  | fromEnd offset => "-" ++ toString offset

end Anchor

/-! ## hexadecimal text -/

/-- The upper-case hexadecimal digit of a value below 16. -/
def upperHexDigit (value : Nat) : Char :=
  Char.ofNat (if value < 10 then 48 + value else 55 + value)

/-- An octet as two upper-case hexadecimal digits. -/
def upperHex (octet : UInt8) : List Char :=
  [upperHexDigit (octet.toNat / 16), upperHexDigit (octet.toNat % 16)]

/-- A pattern as pairs of hexadecimal digits, set apart by single spaces. -/
def spacedHex : Bytes → List Char
  | [] => []
  | [octet] => upperHex octet
  | octet :: rest => upperHex octet ++ ' ' :: spacedHex rest

/-! ## definitions and signatures -/

/-- A named, anchored pattern that is in no catalog yet. -/
structure Definition where
  identifier : String
  anchor : Anchor
  pattern : Bytes
  deriving DecidableEq, Repr

/-- A definition in a catalog: its position there, the place of its buffer in
the arena of a session, and the promise that there is something to look for. -/
structure Signature extends Definition where
  index : Nat
  arenaStart : Nat
  pattern_ne_nil : pattern ≠ []
  deriving DecidableEq

namespace Signature

/-- Number of octets that the pattern has. -/
def length (signature : Signature) : Nat := signature.pattern.length

theorem length_pos (signature : Signature) : 0 < signature.length :=
  List.length_pos_iff.mpr signature.pattern_ne_nil

/-- End of the signature's buffer in the arena. -/
def arenaStop (signature : Signature) : Nat := signature.arenaStart + signature.length

/-- The pattern in hexadecimal. -/
def hexText (signature : Signature) : String := String.ofList (spacedHex signature.pattern)

/-- A signature's text: identifier, anchor and pattern. -/
def text (signature : Signature) : String :=
  signature.identifier ++ " @ " ++ signature.anchor.text ++ ": " ++ signature.hexText

end Signature

end AnchorScan
