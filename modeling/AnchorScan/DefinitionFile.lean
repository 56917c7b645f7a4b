import AnchorScan.DefinitionFile.Line
import AnchorScan.Catalog

/-!
# AnchorScan.DefinitionFile

Definitions files: one signature a line, apart from comments, which start with
a number sign, and lines of blanks.  Lines end in a line feed and may have a
carriage return before it.  `Reading.ofText` answers with all definitions in
order, or with the number of the first line that is wrong and what is wrong
there; on the way it warns of patterns that end in a bare blank.
-/

namespace AnchorScan

/-- What a definitions file gave: its definitions or a failure, and the events
of reading it. -/
structure Reading where
  reply : Except Failure (List Definition)
  log : List Event

/-! ## lines -/

/-- The lines of a file: what stands between its line feeds.  There is always
one more line than line feeds. -/
def lines : Bytes → List Bytes
  | [] => [[]]
  | octet :: rest =>
    if octet = 10 then [] :: lines rest
    else
      match lines rest with
      | [] => [[octet]]
      | line :: others => (octet :: line) :: others

/-- A line without the one carriage return that may end it. -/
def dropReturn (line : Bytes) : Bytes :=
  if line.getLast? = some 13 then line.dropLast else line

/-- Whether a line is a comment or has nothing but blanks. -/
def isSkipped (line : Bytes) : Bool := line.head? = some 35 ∨ line.all isBlank

/-! ## reading -/

/-- The warning that the fields of a line call for. -/
def Fields.warnings (fields : Fields) : List Event :=
  if fields.endsInBlank then [.trailingBlank fields.identifier] else []

/-- Reads lines, of which the first has the given number. -/
def Reading.ofLines (number : Nat) : List Bytes → Reading
  | [] => ⟨.ok [], []⟩
  | line :: rest =>
    if isSkipped (dropReturn line) then Reading.ofLines (number + 1) rest
    else
      match readFields (dropReturn line) with
      | .error fault => ⟨.error (.unreadableLine number fault.message), []⟩
      | .ok fields =>
        match fields.definition with
        | .error fault => ⟨.error (.unreadableLine number fault.message), fields.warnings⟩
        | .ok definition =>
          let others := Reading.ofLines (number + 1) rest
          ⟨others.reply.map (definition :: ·), fields.warnings ++ others.log⟩

/-- Reads the text of a definitions file. -/
def Reading.ofText (text : Bytes) : Reading := Reading.ofLines 1 (lines text)

/-- Reads a definitions file, given what opening it brought. -/
def Reading.ofFile (path : String) (content : Except FileFault Bytes) : Reading :=
  match content with
  | .error fault => ⟨.error (.file fault), []⟩
  | .ok text =>
    let reading := Reading.ofText text
    match reading.reply with
    | .error failure => ⟨.error failure, reading.log⟩
    | .ok definitions =>
      ⟨.ok definitions, reading.log ++ [.definitionsRead definitions.length path]⟩

/-- Registers what a definitions file holds. -/
def Catalog.loadFile (catalog : Catalog) (path : String) (content : Except FileFault Bytes) :
    Step Catalog Nat :=
  let reading := Reading.ofFile path content
  (Step.mk reading.reply catalog reading.log).andThen fun definitions catalog =>
    catalog.load definitions

end AnchorScan
