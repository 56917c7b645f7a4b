import AnchorScan.Signature
import AnchorScan.Step

/-!
# AnchorScan.Catalog

The signatures to look for, in the order of their registration.  Beside the
signatures a catalog keeps what every session asks for: the positions of the
signatures of each anchor class, and the length of an arena with one buffer per
signature, the buffers laid out in order without gaps.

`Catalog.register` refuses an empty pattern and then changes nothing.
`Catalog.load` registers definitions one after the other and stops at the first
that is refused; those before it stay.
-/

namespace AnchorScan

/-- The signatures to look for. -/
structure Catalog where
  signatures : Array Signature := #[]
  /-- Positions of the signatures anchored to the start. -/
  startAnchored : Array Nat := #[]
  /-- Positions of the signatures anchored to the end. -/
  endAnchored : Array Nat := #[]
  /-- Length of an arena that has a buffer for every signature. -/
  arenaLength : Nat := 0

namespace Catalog

/-- The catalog that looks for nothing. -/
def empty : Catalog := {}

/-- Number of signatures. -/
def size (catalog : Catalog) : Nat := catalog.signatures.size

/-- The signature at a position. -/
def get? (catalog : Catalog) (index : Nat) : Option Signature := catalog.signatures[index]?

/-- Positions of the signatures of one anchor class. -/
def positions (catalog : Catalog) : AnchorClass → List Nat
  | .fromStart => catalog.startAnchored.toList
  | .fromEnd => catalog.endAnchored.toList

/-- The signatures of one anchor class, in order of registration. -/
def ofClass (catalog : Catalog) (anchorClass : AnchorClass) : List Signature :=
  (catalog.positions anchorClass).filterMap catalog.get?

/-- Whether a session over the catalog has to know the size of its stream. -/
def needsTotal (catalog : Catalog) : Bool := 0 < catalog.endAnchored.size

/-- The identifiers of the signatures, in order. -/
def identifiers (catalog : Catalog) : List String :=
  catalog.signatures.toList.map fun signature => signature.identifier

/-- Puts a signature at the end. -/
def push : Catalog → Signature → Catalog
  | ⟨signatures, startAnchored, endAnchored, arenaLength⟩, signature =>
    let arenaLength := arenaLength + signature.length
    match signature.anchor.anchorClass with
    | .fromStart =>
      ⟨signatures.push signature, startAnchored.push signature.index, endAnchored, arenaLength⟩
    | .fromEnd =>
      ⟨signatures.push signature, startAnchored, endAnchored.push signature.index, arenaLength⟩

/-- Registers a definition and answers with its position. -/
def register (catalog : Catalog) (definition : Definition) : Step Catalog Nat :=
  if h : definition.pattern = [] then
    let reason := "Signature '" ++ definition.identifier ++ "' has an empty pattern"
    Step.refused (.unusablePattern reason) catalog
  else
    let signature : Signature :=
      { definition with
        index := catalog.size, arenaStart := catalog.arenaLength, pattern_ne_nil := h }
    Step.ok signature.index (catalog.push signature) [.registered signature.text]

/-- Registers a pattern that stands so many octets after the start. -/
def registerFromStart (catalog : Catalog) (identifier : String) (offset : Nat) (pattern : Bytes) :
    Step Catalog Nat :=
  catalog.register ⟨identifier, .fromStart offset, pattern⟩

/-- Registers a pattern that stands so many octets before the end. -/
def registerFromEnd (catalog : Catalog) (identifier : String) (offset : Nat) (pattern : Bytes) :
    Step Catalog Nat :=
  catalog.register ⟨identifier, .fromEnd offset, pattern⟩

/-- Registers definitions in order, up to the first that is refused. -/
def registerAll (catalog : Catalog) : List Definition → Step Catalog Unit
  | [] => Step.ok () catalog []
  | definition :: rest =>
    (catalog.register definition).andThen fun _ catalog => catalog.registerAll rest

/-- Registers definitions in order and answers with their number. -/
def load (catalog : Catalog) (definitions : List Definition) : Step Catalog Nat :=
  (catalog.registerAll definitions).andThen fun _ catalog => Step.ok definitions.length catalog []

end Catalog

end AnchorScan
