import AnchorScan.Proofs.Delivery
import AnchorScan.Proofs.Writing

/-!
# AnchorScan.Proofs.LoadedFile

From a definitions file to the findings of a scan.

* `Catalog.loadFile_of_ok` and `Catalog.reply_loadFile_eq_error_iff`: loading a
  file fails just when reading it does, and else the catalog has what was read;
* `Definition.occurrence`: where a definition occurs in data, told from the
  octets alone;
* `Scanner.findings_scanOctets`: a scan in memory finds the occurrences of what
  is in its catalog, in order;
* `Scanner.scanOctets_loadFile`: what loading a file and scanning data give.
-/

namespace AnchorScan

/-! ## loading -/

namespace Catalog

/-- The definitions in a catalog, in order. -/
def definitions (catalog : Catalog) : List Definition :=
  catalog.signatures.toList.map Signature.toDefinition

theorem register_of_ne_nil (catalog : Catalog) {definition : Definition}
    (h : definition.pattern ≠ []) :
    (catalog.register definition).reply = .ok catalog.size ∧
      (catalog.register definition).state.definitions = catalog.definitions ++ [definition] := by
  unfold register
  rw [dif_neg h]
  exact ⟨rfl, by simp [definitions]⟩

/-- Definitions that have patterns are all registered, in order. -/
theorem registerAll_of_ne_nil (catalog : Catalog) {definitions : List Definition}
    (h : ∀ definition ∈ definitions, definition.pattern ≠ []) :
    (catalog.registerAll definitions).reply = .ok () ∧
      (catalog.registerAll definitions).state.definitions = catalog.definitions ++ definitions := by
  induction definitions generalizing catalog with
  | nil => exact ⟨rfl, (List.append_nil _).symm⟩
  | cons definition rest ih =>
      obtain ⟨hdefinition, hrest⟩ := List.forall_mem_cons.mp h
      obtain ⟨hreply, hstate⟩ := catalog.register_of_ne_nil hdefinition
      obtain ⟨hreplies, hstates⟩ := ih (catalog.register definition).state hrest
      rw [registerAll, Step.reply_andThen hreply, Step.state_andThen hreply]
      exact ⟨hreplies, by rw [hstates, hstate, List.append_assoc, List.singleton_append]⟩

theorem load_of_ne_nil (catalog : Catalog) {definitions : List Definition}
    (h : ∀ definition ∈ definitions, definition.pattern ≠ []) :
    (catalog.load definitions).reply = .ok definitions.length ∧
      (catalog.load definitions).state.definitions = catalog.definitions ++ definitions := by
  obtain ⟨hreply, hstate⟩ := catalog.registerAll_of_ne_nil h
  rw [load, Step.reply_andThen hreply, Step.state_andThen hreply]
  exact ⟨rfl, hstate⟩

theorem reply_ofFile (path : String) (content : Bytes) :
    (Reading.ofFile path (.ok content)).reply = (Reading.ofText content).reply := by
  unfold Reading.ofFile
  cases h : (Reading.ofText content).reply <;> simp [h]

/-- What was read is loaded. -/
theorem loadFile_of_ok (catalog : Catalog) (path : String) {content : Bytes}
    {definitions : List Definition} (h : (Reading.ofText content).reply = .ok definitions) :
    (catalog.loadFile path (.ok content)).reply = .ok definitions.length ∧
      (catalog.loadFile path (.ok content)).state.definitions =
        catalog.definitions ++ definitions := by
  have hread := (reply_ofFile path content).trans h
  have hload := catalog.load_of_ne_nil fun definition hmem =>
    (expressible_of_reply h definition hmem).pattern_ne_nil
  unfold loadFile
  rw [Step.reply_andThen hread, Step.state_andThen hread]
  exact hload

/-- What cannot be read is not loaded. -/
theorem loadFile_of_error (catalog : Catalog) (path : String) {content : Bytes} {failure : Failure}
    (h : (Reading.ofText content).reply = .error failure) :
    (catalog.loadFile path (.ok content)).reply = .error failure := by
  simp only [loadFile, (reply_ofFile path content).trans h, Step.andThen]

/-- Loading a file fails just when reading it does, and for the same reason. -/
theorem reply_loadFile_eq_error_iff (catalog : Catalog) (path : String) (content : Bytes)
    (failure : Failure) :
    (catalog.loadFile path (.ok content)).reply = .error failure ↔
      (Reading.ofText content).reply = .error failure := by
  cases hread : (Reading.ofText content).reply with
  | error fault => rw [catalog.loadFile_of_error path hread, Except.error.injEq, Except.error.injEq]
  | ok definitions =>
      rw [(catalog.loadFile_of_ok path hread).1]
      exact ⟨nofun, nofun⟩

theorem built_loadFile {catalog : Catalog} (built : catalog.Built) (path : String)
    (content : Except FileFault Bytes) : (catalog.loadFile path content).state.Built :=
  Step.andThen_keeps built fun definitions => .load built definitions

end Catalog

/-! ## occurrences -/

namespace Definition

/-- The octets at a place of the data are the pattern. -/
def StandsAt (definition : Definition) (data : Bytes) (place : Nat) : Prop :=
  (data.drop place).take definition.pattern.length = definition.pattern

instance (definition : Definition) (data : Bytes) (place : Nat) :
    Decidable (definition.StandsAt data place) := inferInstanceAs (Decidable (_ = _))

/-- The finding of a definition that occurs in the data. -/
def occurrence (definition : Definition) (data : Bytes) : Option Finding :=
  match definition.anchor with
  | .fromStart offset =>
    if offset + definition.pattern.length ≤ data.length ∧ definition.StandsAt data offset then
      some ⟨definition.identifier, offset⟩
    else none
  | .fromEnd offset =>
    if definition.pattern.length ≤ offset ∧ offset ≤ data.length ∧
        definition.StandsAt data (data.length - offset) then
      some ⟨definition.identifier, data.length - offset⟩
    else none

end Definition

namespace Signature

variable {signature : Signature} {data : Bytes}

/-- A window in data of which the size is declared is found if it ends within
them and has the pattern. -/
theorem completion_of_locate {start : Nat} (fits : data.length ≤ maxPosition)
    (h : signature.locate (some data.length) =
      .ok (windowFrom start signature.length (some data.length))) :
    signature.completion (some data.length) data 0 data.length =
      if start + signature.length ≤ data.length ∧ signature.StandsAt data start then
        some ⟨signature.identifier, start⟩
      else none := by
  by_cases hin : start + signature.length ≤ data.length
  · have hwindow : windowFrom start signature.length (some data.length) =
        .window ⟨start, start + signature.length, Nat.le_add_right _ _⟩ :=
      windowFrom_eq_window_iff.mpr ⟨rfl, rfl, Nat.le_trans hin fits, by simpa using hin⟩
    have hstop : 0 < start + signature.length := Nat.add_pos_right start signature.length_pos
    rw [hwindow] at h
    rw [completion_of_window (window?_eq_some_iff.mpr h)]
    simp only [hin, hstop, true_and, Window.octets, Window.length, Nat.add_sub_cancel_left]
    rfl
  · have hnone : windowFrom start signature.length (some data.length) = .outOfRange :=
      if_neg fun hfits => hin (by simpa using hfits.2)
    rw [hnone] at h
    rw [if_neg fun hoccurs => hin hoccurs.1]
    simp only [completion, h]

/-- In data of which the size is declared a signature is found where it occurs. -/
theorem completion_eq_occurrence (fits : data.length ≤ maxPosition) :
    signature.completion (some data.length) data 0 data.length = signature.occurrence data := by
  unfold Definition.occurrence
  cases hanchor : signature.anchor with
  | fromStart offset => exact completion_of_locate fits (by simp only [locate, hanchor])
  | fromEnd offset =>
      by_cases hle : offset ≤ data.length
      · have hlocate : signature.locate (some data.length) =
            .ok (windowFrom (data.length - offset) signature.length (some data.length)) := by
          simp only [locate, hanchor, if_pos hle]
        have hbound : data.length - offset + signature.length ≤ data.length ↔
            signature.pattern.length ≤ offset := by
          unfold Signature.length
          omega
        rw [completion_of_locate fits hlocate]
        simp only [hbound, hle, true_and]
      · have hlocate : signature.locate (some data.length) = .ok .outOfRange := by
          simp only [locate, hanchor, if_neg hle]
        simp only [completion, hlocate, hle, false_and, and_false, if_false]

end Signature

/-! ## scanning -/

namespace Scanner

variable {scanner : Scanner} {data : Bytes}

/-- A scan in memory finds the occurrences of the definitions in its catalog, in
order. -/
theorem findings_scanOctets (laidOut : scanner.catalog.LaidOut) (fits : data.length ≤ maxPosition) :
    (scanner.scanOctets data).state.findings =
      scanner.catalog.definitions.filterMap (·.occurrence data) := by
  have hposition : position data = data.length := Nat.min_eq_left fits
  have hone := scanner.catalog.completionsBy_concat (some data.length) [] data
  rw [(scanOctets_eq laidOut data).2, Session.findings_halted, Catalog.definitions,
    List.filterMap_map]
  refine hone.trans ?_
  refine List.filterMap_congr fun signature _ => ?_
  simp only [List.flatten_nil, List.nil_append, position_nil, hposition]
  exact Signature.completion_eq_occurrence fits

/-- A scan in memory takes in all of the data and leaves nobody waiting. -/
theorem scanOctets_complete (laidOut : scanner.catalog.LaidOut) (fits : data.length ≤ maxPosition) :
    (scanner.scanOctets data).reply = .ok () ∧
      (scanner.scanOctets data).state.findings =
        scanner.catalog.definitions.filterMap (·.occurrence data) ∧
      (scanner.scanOctets data).state.cursor = data.length ∧
      (scanner.scanOctets data).state.pending = 0 := by
  obtain ⟨hreply, hstate⟩ := scanOctets_eq laidOut data
  refine ⟨hreply, findings_scanOctets laidOut fits, ?_, ?_⟩
  · rw [hstate, Session.cursor_halted, List.flatten_singleton]
    exact Nat.min_eq_left fits
  · rw [hstate, Session.pending_halted]

/-- **From a definitions file to findings.**  A file is loaded just when it can be
read, and what goes wrong otherwise is a line of it.  The catalog then has what
was read, in order, and a scan of data in memory, which are never longer than
positions reach, finds what occurs there of it, in order. -/
theorem scanOctets_loadFile (path : String) (content : Bytes) :
    let loaded := Catalog.empty.loadFile path (.ok content)
    (∀ failure, loaded.reply = .error failure ↔
        (Reading.ofText content).reply = .error failure) ∧
      (∀ failure, loaded.reply = .error failure →
        ∃ line reason, failure = .unreadableLine line reason) ∧
      ∀ definitions, (Reading.ofText content).reply = .ok definitions →
        loaded.reply = .ok definitions.length ∧
          loaded.state.signatures.toList.map Signature.toDefinition = definitions ∧
          ∀ scanner : Scanner, scanner.catalog = loaded.state →
            ∀ data : Bytes, data.length ≤ maxPosition →
              (scanner.scanOctets data).reply = .ok () ∧
                (scanner.scanOctets data).state.findings =
                  definitions.filterMap (·.occurrence data) ∧
                (scanner.scanOctets data).state.cursor = data.length ∧
                (scanner.scanOctets data).state.pending = 0 := by
  intro loaded
  have hfails := Catalog.empty.reply_loadFile_eq_error_iff path content
  refine ⟨hfails, fun failure h => ?_, fun definitions h => ?_⟩
  · have hread := (hfails failure).mp h
    rw [Reading.reply_ofText, readEntries_eq_error_iff] at hread
    obtain ⟨-, entry, -, fault, -, -, -, rfl⟩ := hread
    exact ⟨entry.number, fault.message, rfl⟩
  · obtain ⟨hreply, hdefinitions⟩ := Catalog.loadFile_of_ok Catalog.empty path h
    refine ⟨hreply, hdefinitions, fun scanner hcatalog data fits => ?_⟩
    have laidOut : scanner.catalog.LaidOut := by
      rw [hcatalog]
      exact (Catalog.built_loadFile .empty path (.ok content)).laidOut
    have hheld : scanner.catalog.definitions = definitions := by
      rw [hcatalog, hdefinitions]
      rfl
    rw [← hheld]
    exact scanOctets_complete laidOut fits

/-- A file with a duplicate and with anchors of both ends, two of which lie past
the data. -/
theorem scanOctets_loadFile_sample :
    let content := octets "# formats\nmz 0 MZ\r\ntail -2 \\x00Z\nmz 0 MZ\nfar +9 Z\nback -9 M"
    let loaded := Catalog.empty.loadFile "formats" (.ok content)
    let scanner : Scanner := { catalog := loaded.state }
    let whole := scanner.scanOctets [77, 90, 45, 0, 90]
    loaded.reply = .ok 5 ∧ whole.reply = .ok () ∧ whole.state.cursor = 5 ∧
      whole.state.findings = [⟨"mz", 0⟩, ⟨"tail", 3⟩, ⟨"mz", 0⟩] := by
  intro content loaded scanner whole
  have hread : (Reading.ofText content).reply = .ok [⟨"mz", .fromStart 0, [77, 90]⟩,
      ⟨"tail", .fromEnd 2, [0, 90]⟩, ⟨"mz", .fromStart 0, [77, 90]⟩, ⟨"far", .fromStart 9, [90]⟩,
      ⟨"back", .fromEnd 9, [77]⟩] := by decide +kernel
  obtain ⟨-, -, hloaded⟩ := scanOctets_loadFile "formats" content
  obtain ⟨hreply, -, hscans⟩ := hloaded _ hread
  obtain ⟨hscan, hfindings, hcursor, -⟩ :=
    hscans scanner rfl [77, 90, 45, 0, 90] (by decide)
  exact ⟨hreply, hscan, hcursor, hfindings.trans (by decide +kernel)⟩

end Scanner

end AnchorScan
