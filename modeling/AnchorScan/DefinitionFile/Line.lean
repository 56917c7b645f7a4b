import AnchorScan.DefinitionFile.Escape
import AnchorScan.Signature

/-!
# AnchorScan.DefinitionFile.Line

One line of a definitions file: an identifier, an offset and a pattern, set
apart by blanks.  `readFields` takes the line apart from the left and stops at
the first field that is wrong; `Fields.definition` then reads the pattern.  An
offset with a minus sign counts from the end of the stream, unless it is zero.
-/

namespace AnchorScan

/-! ## classes of octets -/

/-- Spaces and tabs set fields apart. -/
def isBlank (octet : UInt8) : Bool := octet = 32 ∨ octet = 9

/-- Decimal digits. -/
def isDigit (octet : UInt8) : Bool := 48 ≤ octet ∧ octet ≤ 57

/-- ASCII letters and digits and the underscore make up identifiers. -/
def isIdentifierOctet (octet : UInt8) : Bool :=
  isDigit octet ∨ (65 ≤ octet ∧ octet ≤ 90) ∨ (97 ≤ octet ∧ octet ≤ 122) ∨ octet = 95

/-! ## faults -/

/-- The fields that a blank must follow. -/
inductive Field where
  | identifier
  | offset
  deriving DecidableEq, Repr

/-- The name of a field. -/
def Field.name : Field → String
  | .identifier => "identifier"
  | .offset => "offset"

/-- Why a line is no definition. -/
inductive LineFault where
  | invalidIdentifier
  /-- Something other than a blank follows the field. -/
  | noBlankAfter (field : Field)
  | invalidOffset
  | offsetTooLarge
  | escape (fault : EscapeFault)
  | emptyPattern
  deriving DecidableEq, Repr

/-- The text of a line fault. -/
def LineFault.message : LineFault → String
  | .invalidIdentifier => "invalid identifier"
  | .noBlankAfter field => "expected whitespace after " ++ field.name
  | .invalidOffset => "invalid offset"
  | .offsetTooLarge => "offset too large"
  | .escape fault => fault.message
  | .emptyPattern => "empty pattern"

/-! ## fields -/

/-- The fields of a line, the pattern still as it is written. -/
structure Fields where
  identifier : String
  /-- Whether the offset has a minus sign. -/
  negative : Bool
  offset : Nat
  pattern : Bytes
  deriving DecidableEq, Repr

/-- Text of octets, each of them the character with its number. -/
def octetText (octets : Bytes) : String :=
  String.ofList (octets.map fun octet => Char.ofNat octet.toNat)

/-- The number that a run of decimal digits writes. -/
def decimalValue (digits : Bytes) : Nat :=
  digits.foldl (fun value digit => 10 * value + (digit.toNat - 48)) 0

/-- An offset has at most so many digits, leading zeros included. -/
def maxOffsetDigits : Nat := 20

/-- Drops the blanks that must follow a field. -/
def skipBlanks (field : Field) (rest : Bytes) : Except LineFault Bytes :=
  if rest.head?.any isBlank then .ok (rest.dropWhile isBlank) else .error (.noBlankAfter field)

/-- Whether a minus sign comes first, and what follows an optional sign. -/
def readSign : Bytes → Bool × Bytes
  | [] => (false, [])
  | sign :: rest =>
    if sign = 45 then (true, rest) else if sign = 43 then (false, rest) else (false, sign :: rest)

/-- The number at the front, and what follows its digits. -/
def readOffset (rest : Bytes) : Except LineFault (Nat × Bytes) :=
  let digits := rest.takeWhile isDigit
  if digits = [] then .error .invalidOffset
  else if digits.length ≤ maxOffsetDigits ∧ decimalValue digits ≤ maxPosition then
    .ok (decimalValue digits, rest.dropWhile isDigit)
  else .error .offsetTooLarge

/-- Takes a line apart. -/
def readFields (line : Bytes) : Except LineFault Fields :=
  let name := line.takeWhile isIdentifierOctet
  if name = [] then .error .invalidIdentifier
  else
    match skipBlanks .identifier (line.dropWhile isIdentifierOctet) with
    | .error fault => .error fault
    | .ok rest =>
      let (negative, rest) := readSign rest
      match readOffset rest with
      | .error fault => .error fault
      | .ok (offset, rest) =>
        match skipBlanks .offset rest with
        | .error fault => .error fault
        | .ok pattern => .ok ⟨octetText name, negative, offset, pattern⟩

namespace Fields

/-- The anchor: only a minus sign before a positive offset counts from the
end. -/
def anchor (fields : Fields) : Anchor :=
  if fields.negative ∧ 0 < fields.offset then .fromEnd fields.offset
  else .fromStart fields.offset

/-- Whether the pattern as written ends in a blank, which is easily overlooked. -/
def endsInBlank (fields : Fields) : Bool := fields.pattern.getLast?.any isBlank

/-- The definition that the fields write down. -/
def definition (fields : Fields) : Except LineFault Definition :=
  match unescape fields.pattern with
  | .error fault => .error (.escape fault)
  | .ok [] => .error .emptyPattern
  | .ok pattern => .ok ⟨fields.identifier, fields.anchor, pattern⟩

end Fields

end AnchorScan
