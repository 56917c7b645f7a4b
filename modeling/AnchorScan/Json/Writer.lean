import AnchorScan.Json.Value

/-!
# AnchorScan.Json.Writer

JSON documents as text, either without any blank or with every item and member
on a line of its own, two more spaces to the right for every level.  In strings
the quotation mark, the backslash and the control characters below the space
are escaped, and nothing else is.
-/

namespace AnchorScan.Json

/-! ## strings -/

/-- The lower-case hexadecimal digit of a value below 16. -/
def hexDigit (value : Nat) : Char := Char.ofNat (if value < 10 then 48 + value else 87 + value)

/-- A character inside a string. -/
def writeChar (c : Char) : List Char :=
  if c = '"' then ['\\', '"']
  else if c = '\\' then ['\\', '\\']
  else if 32 ≤ c.toNat then [c]
  else if c.toNat = 8 then ['\\', 'b']
  else if c.toNat = 9 then ['\\', 't']
  else if c.toNat = 10 then ['\\', 'n']
  else if c.toNat = 12 then ['\\', 'f']
  else if c.toNat = 13 then ['\\', 'r']
  else ['\\', 'u', '0', '0', hexDigit (c.toNat / 16), hexDigit (c.toNat % 16)]

/-- A string.  One without text is shown as the half of a surrogate pair. -/
def writeText : Text → List Char
  | none => ['"', '\\', 'u', 'd', '8', '0', '0', '"']
  | some content => '"' :: (content.toList.flatMap writeChar ++ ['"'])

/-! ## documents -/

/-- How a document is laid out. -/
inductive Layout where
  /-- Without blanks. -/
  | compact
  /-- Lines, at so many levels of indentation. -/
  | lines (depth : Nat)
  deriving DecidableEq, Repr

namespace Layout

/-- The layout inside an array or object. -/
def deeper : Layout → Layout
  | compact => compact
  | lines depth => lines (depth + 1)

/-- What stands before an item, a member or a closing bracket. -/
def lineBreak : Layout → List Char
  | compact => []
  | lines depth => '\n' :: List.replicate (2 * depth) ' '

/-- What stands between a key and its value. -/
def colon : Layout → List Char
  | compact => [':']
  | lines _ => [':', ' ']

end Layout

mutual
/-- The text of a document. -/
def write (layout : Layout) : Value → List Char
  | .null => "null".toList
  | .bool true => "true".toList
  | .bool false => "false".toList
  | .natural value => (toString value).toList
  | .number written => written.toList
  | .string text => writeText text
  | .array [] => ['[', ']']
  | .array (item :: items) =>
    '[' :: (layout.deeper.lineBreak ++ write layout.deeper item ++
      writeItems layout.deeper items ++ layout.lineBreak ++ [']'])
  | .object [] => ['{', '}']
  | .object ((key, value) :: members) =>
    '{' :: (layout.deeper.lineBreak ++ writeText key ++ layout.colon ++
      write layout.deeper value ++ writeMembers layout.deeper members ++
      layout.lineBreak ++ ['}'])

/-- The items after the first of an array. -/
def writeItems (layout : Layout) : List Value → List Char
  | [] => []
  | item :: items =>
    ',' :: (layout.lineBreak ++ write layout item ++ writeItems layout items)

/-- The members after the first of an object. -/
def writeMembers (layout : Layout) : List (Text × Value) → List Char
  | [] => []
  | (key, value) :: members =>
    ',' :: (layout.lineBreak ++ writeText key ++ layout.colon ++ write layout value ++
      writeMembers layout members)
end

namespace Value

/-- The text of a document without blanks. -/
def compact (value : Value) : String := String.ofList (write .compact value)

/-- The text of a document over lines. -/
def pretty (value : Value) : String := String.ofList (write (.lines 0) value)

end Value

end AnchorScan.Json
