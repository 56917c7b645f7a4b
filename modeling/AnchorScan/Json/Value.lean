/-!
# AnchorScan.Json.Value

JSON documents.  An object keeps its members as they stand, in order and with
repetitions.  A number that is written as a few plain digits is a `natural`;
every other number is kept as it is written, however long it is.  A string that
names half of a surrogate pair has no text: a document may hold one, but nothing
can be read from it.
-/

namespace AnchorScan.Json

/-- The text of a JSON string, if it has one. -/
abbrev Text := Option String

/-- So many digits are enough for every 64-bit number. -/
def maxNaturalDigits : Nat := 20

/-- A JSON document. -/
inductive Value where
  | null
  | bool (value : Bool)
  /-- A number of at most `maxNaturalDigits` plain digits. -/
  | natural (value : Nat)
  /-- A number with a sign, a fraction or an exponent, or with more digits. -/
  | number (written : String)
  | string (text : Text)
  | array (items : List Value)
  | object (members : List (Text × Value))
  deriving Repr

namespace Value

/-- The string with the given text. -/
def text (content : String) : Value := string (some content)

/-- A value that may be missing, shown as `null`. -/
def orNull {α : Type} (encode : α → Value) : Option α → Value
  | none => null
  | some content => encode content

/-- The object with the given members. -/
def record (members : List (String × Value)) : Value :=
  object (members.map fun (key, value) => (some key, value))

end Value

end AnchorScan.Json
