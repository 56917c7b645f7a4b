import AnchorScan.Report
import AnchorScan.Report.Size

/-!
# AnchorScan.Report.Text

Reports for readers.  Each report is a block of lines: what was scanned, then
either the error or the size and the findings; a line of totals ends the text.
On a terminal the headings, the identifiers and the word for an error are
coloured: the text is put between a sequence that opens the colour and one that
resets it, and where the text resets colours itself, the colour is opened again.
-/

namespace AnchorScan

/-! ## colours -/

/-- Begins every colour sequence. -/
def escapeChar : Char := '\x1b'

/-- The sequence that resets colours. -/
def resetSequence : List Char := [escapeChar, '[', '0', 'm']

/-- A colour, given by the parameters of its sequence. -/
inductive Color where
  | heading
  | identifier
  | error
  deriving DecidableEq, Repr

namespace Color

/-- Bold cyan for headings, green for identifiers and bold red for errors. -/
def parameters : Color → List Char
  | heading => ['1', ';', '3', '6']
  | identifier => ['3', '2']
  | error => ['1', ';', '3', '1']

/-- The sequence that opens the colour. -/
def opening (color : Color) : List Char := escapeChar :: '[' :: (color.parameters ++ ['m'])

end Color

/-- Opens a colour again after every reset inside a text. -/
def reopen (opening : List Char) : List Char → List Char
  | '\x1b' :: '[' :: '0' :: 'm' :: rest => resetSequence ++ opening ++ reopen opening rest
  | c :: rest => c :: reopen opening rest
  | [] => []

/-- A text in a colour. -/
def paint (color : Color) (text : List Char) : List Char :=
  color.opening ++ reopen color.opening text ++ resetSequence

/-! ## reports -/

/-- What readers want to see. -/
structure Style where
  color : Bool := true
  size : Bool := true
  deriving DecidableEq, Repr

namespace Style

/-- A text, coloured if colours are wanted. -/
def apply (style : Style) (color : Color) (text : String) : String :=
  if style.color then String.ofList (paint color text.toList) else text

end Style

/-- The hexadecimal text of a number, with zeros in front up to eight digits. -/
def offsetHex (number : Nat) : String :=
  let digits := Nat.toDigits 16 number
  "0x" ++ String.ofList (List.replicate (8 - digits.length) '0' ++ digits)

/-- A finding's text. -/
def Finding.text (finding : Finding) : String :=
  finding.identifier ++ " at " ++ offsetHex finding.offset

/-- The lines of a finding with its number. -/
def findingText (style : Style) (number : Nat) (finding : Finding) : String :=
  "\nScan result: " ++ toString number ++ "\n" ++
    "\tIdentifier\t\t: " ++ style.apply .identifier finding.identifier ++ "\n" ++
    "\tOffset\t\t\t: " ++ offsetHex finding.offset ++ " (" ++ toString finding.offset ++ ")\n"

/-- The lines of findings, of which the first has the given number. -/
def findingsText (style : Style) (number : Nat) : List Finding → String
  | [] => ""
  | finding :: rest => findingText style number finding ++ findingsText style (number + 1) rest

namespace Report

/-- The line of a size, if it is known and wanted. -/
def sizeLine (style : Style) (report : Report) : String :=
  match style.size, report.size with
  | true, some size => "\tSize\t\t\t: " ++ readableSize size ++ "\n"
  | _, _ => ""

/-- The lines of a report. -/
def text (style : Style) (report : Report) : String :=
  style.apply .heading report.source ++ "\n" ++
    match report.error with
    | some error => "\t" ++ style.apply .error "Error" ++ "\t\t\t: " ++ error ++ "\n"
    | none =>
      report.sizeLine style ++
        "\tNumber of scan results\t: " ++ toString report.findings.length ++ "\n" ++
        findingsText style 1 report.findings

/-- How many of some reports failed. -/
def failureCount (reports : List Report) : Nat :=
  (reports.filter fun report => !report.succeeded).length

/-- How many of some reports found anything. -/
def matchCount (reports : List Report) : Nat :=
  (reports.filter fun report => report.foundAny).length

/-- The line of totals. -/
def summary (reports : List Report) : String :=
  counted reports.length "input" ++ " scanned, " ++ toString (matchCount reports) ++
    " with matches, " ++ toString (failureCount reports) ++ " failed\n"

/-- The blocks of reports, a blank line after each. -/
def blocks (style : Style) : List Report → String
  | [] => ""
  | report :: rest => report.text style ++ "\n" ++ blocks style rest

/-- The text of all reports. -/
def allText (style : Style) (reports : List Report) : String :=
  blocks style reports ++ summary reports

end Report

end AnchorScan
