import AnchorScan.Json.Fields
import AnchorScan.Signature

/-!
# AnchorScan.Json.Anchor

Anchors and their classes in JSON.  A class is its name; it is read from an
object that has only that name, with nothing behind it, as well.  An anchor is
such an object with the offset behind the name of its class.
-/

namespace AnchorScan

open Json

/-- The name of an anchor class in JSON. -/
def AnchorClass.name : AnchorClass → String
  | .fromStart => "FromStart"
  | .fromEnd => "FromEnd"

/-- The class of a name. -/
def AnchorClass.ofName? (name : String) : Option AnchorClass :=
  if name = "FromStart" then some .fromStart
  else if name = "FromEnd" then some .fromEnd
  else none

/-- The anchor of a class with an offset. -/
def Anchor.ofClass (anchorClass : AnchorClass) (offset : Nat) : Anchor :=
  match anchorClass with
  | .fromStart => .fromStart offset
  | .fromEnd => .fromEnd offset

/-- An anchor class in JSON. -/
def AnchorClass.toJson (anchorClass : AnchorClass) : Value := .text anchorClass.name

/-- Reads an anchor class. -/
def AnchorClass.ofJson? : Value → Option AnchorClass
  | .string (some name) => ofName? name
  | .object [(some name, .null)] => ofName? name
  | _ => none

/-- An anchor in JSON. -/
def Anchor.toJson (anchor : Anchor) : Value :=
  .record [(anchor.anchorClass.name, .natural anchor.offset)]

/-- Reads an anchor. -/
def Anchor.ofJson? : Value → Option Anchor
  | .object [(some name, value)] =>
    match AnchorClass.ofName? name, value.natural? with
    | some anchorClass, some offset => some (.ofClass anchorClass offset)
    | _, _ => none
  | _ => none

end AnchorScan
