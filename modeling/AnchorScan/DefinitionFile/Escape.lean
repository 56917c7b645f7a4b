import AnchorScan.Bytes

/-!
# AnchorScan.DefinitionFile.Escape

Patterns as they are written in a definitions file.  Every octet stands for
itself, except the backslash: it starts an escape, which is a letter for a
control character, a second backslash, or `x` and two hexadecimal digits of
either case.  `unescape` reads a pattern from the left and tells the first
escape that is none.
-/

namespace AnchorScan

/-- The octet that starts an escape. -/
def backslash : UInt8 := 92

/-- The letter that starts a hexadecimal escape. -/
def hexMark : UInt8 := 120

/-- Why a pattern cannot be read. -/
inductive EscapeFault where
  /-- The pattern ends where an escape begins. -/
  | trailingBackslash
  /-- A hexadecimal escape lacks its two digits. -/
  | invalidHex
  /-- No escape is written with this octet. -/
  | unsupported (octet : UInt8)
  deriving DecidableEq, Repr

/-- The text of an escape fault; an octet is shown as the character with its
number. -/
def EscapeFault.message : EscapeFault → String
  | .trailingBackslash => "trailing backslash"
  | .invalidHex => "invalid \\x escape"
  | .unsupported octet =>
    "unsupported escape \\" ++ String.singleton (Char.ofNat octet.toNat)

/-- The octet that a single letter after a backslash stands for. -/
def letterEscape? (letter : UInt8) : Option UInt8 :=
  if letter = 92 then some 92        -- backslash
  else if letter = 97 then some 7    -- a: alert
  else if letter = 98 then some 8    -- b: backspace
  else if letter = 102 then some 12  -- f: form feed
  else if letter = 110 then some 10  -- n: line feed
  else if letter = 114 then some 13  -- r: carriage return
  else if letter = 116 then some 9   -- t: horizontal tab
  else if letter = 118 then some 11  -- v: vertical tab
  else none

/-- The value of a hexadecimal digit of either case. -/
def hexDigitValue? (digit : UInt8) : Option Nat :=
  if 48 ≤ digit ∧ digit ≤ 57 then some (digit.toNat - 48)
  else if 97 ≤ digit ∧ digit ≤ 102 then some (digit.toNat - 87)
  else if 65 ≤ digit ∧ digit ≤ 70 then some (digit.toNat - 55)
  else none

/-- The octet written as two hexadecimal digits. -/
def hexPair? (high low : UInt8) : Option UInt8 :=
  match hexDigitValue? high, hexDigitValue? low with
  | some h, some l => some (UInt8.ofNat (16 * h + l))
  | _, _ => none

/-- The octets that a written pattern stands for. -/
def unescape : Bytes → Except EscapeFault Bytes
  | [] => .ok []
  | octet :: rest =>
    if octet ≠ backslash then (unescape rest).map (octet :: ·)
    else match rest with
      | [] => .error .trailingBackslash
      | letter :: rest =>
        if letter = hexMark then
          match rest with
          | high :: low :: rest =>
            match hexPair? high low with
            | some value => (unescape rest).map (value :: ·)
            | none => .error .invalidHex
          | _ => .error .invalidHex
        else
          match letterEscape? letter with
          | some value => (unescape rest).map (value :: ·)
          | none => .error (.unsupported letter)

end AnchorScan
