import AnchorScan.Bytes
import AnchorScan.Json.Value

/-!
# AnchorScan.Json.Fields

Records as JSON holds them.  A record is an object whose members carry the
names of its fields, in any order and possibly among others, or an array of the
fields in their order.  `fields?` brings both to a list of named values;
`field?` looks one up.  The readers of single values accept a value of exactly
their type, and natural numbers of at most 64 bits.
-/

namespace AnchorScan.Json

/-! ## single values -/

/-- Reads a 64-bit natural number, written as plain digits. -/
def Value.natural? : Value → Option Nat
  | .natural value => if value ≤ maxPosition then some value else none
  | _ => none

/-- Reads a truth value. -/
def Value.bool? : Value → Option Bool
  | .bool value => some value
  | _ => none

/-- Reads a string that has a text. -/
def Value.text? : Value → Option String
  | .string text => text
  | _ => none

/-- Reads a list. -/
def Value.list? {α : Type} (decode : Value → Option α) : Value → Option (List α)
  | .array items => items.mapM decode
  | _ => none

/-- Reads a value that may be `null`. -/
def Value.nullable? {α : Type} (decode : Value → Option α) : Value → Option (Option α)
  | .null => some none
  | value => (decode value).map some

/-! ## records -/

/-- The values of a record with the names of their fields. -/
abbrev Fields := List (String × Value)

/-- The members with one of the given names.  A name must not occur twice, and
every key must have a text. -/
def knownMembers (names : List String) : List (Text × Value) → Option Fields
  | [] => some []
  | (none, _) :: _ => none
  | (some key, value) :: rest =>
    match knownMembers names rest with
    | none => none
    | some fields =>
      if names.contains key then
        if (fields.lookup key).isSome then none else some ((key, value) :: fields)
      else some fields

/-- Whether an array may end before the last field. -/
inductive Completeness where
  | whole
  | partly
  deriving DecidableEq, Repr

/-- Whether an array of `given` items can stand for a record of `expected`
fields. -/
def Completeness.allows (completeness : Completeness) (given expected : Nat) : Bool :=
  match completeness with
  | whole => given = expected
  | partly => given ≤ expected

/-- The fields of a record with the given names. -/
def Value.fields? (names : List String) (arrays : Completeness) : Value → Option Fields
  | .object members => knownMembers names members
  | .array items =>
    if arrays.allows items.length names.length then some (names.zip items) else none
  | _ => none

/-- Reads a field that must be there. -/
def Fields.field? {α : Type} (fields : Fields) (name : String) (decode : Value → Option α) :
    Option α :=
  (fields.lookup name).bind decode

/-- Reads a field with a value for records that lack it. -/
def Fields.fieldOr {α : Type} (fields : Fields) (name : String) (decode : Value → Option α)
    (absent : α) : Option α :=
  match fields.lookup name with
  | none => some absent
  | some value => decode value

end AnchorScan.Json
