import AnchorScan.Proofs.DecimalText
import AnchorScan.Session

/-!
# AnchorScan.Proofs.LogLines

What the lines of a log say.  Who listens sees of an event how much it matters and how it
is worded, and reads from the words what happened.

* `Event.begins_iff`: the first words of a line say what kind of event it is about;
* `Account`: what the events of a log report, matter by matter;
* `Tells`: lines tell an account, in the words and at the levels of the log;
* `tells_ofLog` and `Tells.eq`: the lines of a log tell what its events report, and
  nothing else can be read from them (`tellsJust_heard`).
-/

namespace AnchorScan

/-! ## lines -/

/-- What is heard of an event: how much it matters, and how it is worded. -/
structure LogLine where
  level : Level
  text : String
  deriving DecidableEq

/-- The line of an event. -/
def Event.logLine (event : Event) : LogLine := ⟨event.level, event.message⟩

/-- The lines of a log that a listener hears, in order. -/
def heard (level : Level) (log : List Event) : List LogLine :=
  (log.filter (·.heardAt level)).map Event.logLine

/-- Who listens at trace level hears everything. -/
theorem heard_trace (log : List Event) : heard .trace log = log.map Event.logLine := by
  have hall (event : Event) : event.heardAt .trace = true := by cases event <;> rfl
  rw [heard, List.filter_eq_self.mpr fun event _ => hall event]

/-- Whether a line begins with the words. -/
def LogLine.begins (words : String) (line : LogLine) : Bool :=
  words.toList.isPrefixOf line.text.toList

/-! ## the first words of a line -/

namespace Event

/-- The first words of an event's message. -/
def opening : Event → String
  | definitionsRead .. => "Read "
  | trailingBlank .. => "Pattern of "
  | registered .. => "Registered signature "
  | outOfRange .. => "Signature "
  | prepared .. => "Prepared scan: "
  | started .. => "Scan started: "
  | matched .. => "Matched "
  | fed .. => "Fed ["
  | overrun .. => "Scanned "
  | discarded .. => "Discarding "
  | stopped .. => "Scan stopped after "
  | aborted .. => "Scan aborted after "
  | allResolved .. => "All signatures resolved at "
  | scanning .. => "Scanning "
  | noSignatures .. => "No signatures defined in "
  | loaded .. => "Loaded "
  | scanFailed .. => "Failed to scan "

/-- The first words of all messages. -/
def openings : List String :=
  ["Read ", "Pattern of ", "Registered signature ", "Signature ", "Prepared scan: ",
    "Scan started: ", "Matched ", "Fed [", "Scanned ", "Discarding ", "Scan stopped after ",
    "Scan aborted after ", "All signatures resolved at ", "Scanning ", "No signatures defined in ",
    "Loaded ", "Failed to scan "]

theorem opening_mem (event : Event) : event.opening ∈ openings := by
  cases event <;> simp [opening, openings]

theorem opening_prefix (event : Event) : event.opening.toList <+: event.message.toList := by
  -- the equations of `message` are slow to make, since they compare its texts
  delta opening message
  cases event with
  | scanning path size =>
      cases size <;> simp only [String.toList_append, List.append_assoc, List.prefix_append]
  | _ => simp only [String.toList_append, List.append_assoc, List.prefix_append]

/-- No kind of message begins with the first words of another. -/
theorem openings_apart : ∀ first ∈ openings, ∀ second ∈ openings,
    first.toList <+: second.toList → first = second := by
  decide +kernel

/-- A line begins with such words if they are the first of its event. -/
theorem begins_iff {words : String} (hwords : words ∈ openings) (event : Event) :
    event.logLine.begins words = true ↔ event.opening = words := by
  rw [LogLine.begins, List.isPrefixOf_iff_prefix]
  constructor
  · intro h
    rcases List.prefix_or_prefix_of_prefix event.opening_prefix h with hle | hge
    · exact openings_apart _ event.opening_mem _ hwords hle
    · exact (openings_apart _ hwords _ event.opening_mem hge).symm
  · rintro rfl
    exact event.opening_prefix

/-- The lines with the first words of a matter tell it, if events of that kind report it. -/
theorem filter_begins {α : Type} {words : String} (hwords : words ∈ openings)
    {matter? : Event → Option α} {line : α → LogLine}
    (hmatter : ∀ event : Event,
      (matter? event).map line = if event.opening = words then some event.logLine else none)
    (log : List Event) :
    (log.map logLine).filter (·.begins words) = (log.filterMap matter?).map line := by
  rw [List.map_filterMap, List.filter_map, ← List.filterMap_eq_map', ← List.filterMap_eq_filter,
    List.filterMap_filterMap]
  refine List.filterMap_congr fun event _ => ?_
  rw [hmatter]
  by_cases h : event.opening = words
  · simp [Option.guard, (begins_iff hwords event).mpr h, h]
  · simp [Option.guard, (begins_iff hwords event).not.mpr h, h]

end Event

/-! ## accounts -/

/-- What the log says of the signatures that a scan begins with: how many are in range, how
many there are, and the octets of all their patterns. -/
structure Preparation where
  live : Nat
  count : Nat
  arena : Nat
  deriving DecidableEq

/-- What the log says of a piece of the stream that was taken in. -/
structure Intake where
  start : Nat
  stop : Nat
  live : Nat
  found : Nat
  deriving DecidableEq

namespace Event

/-- The finding that an event reports. -/
def finding? : Event → Option Finding
  | matched identifier offset => some ⟨identifier, offset⟩
  | _ => none

/-- The piece of the stream that an event reports. -/
def intake? : Event → Option Intake
  | fed start stop live found => some ⟨start, stop, live, found⟩
  | _ => none

/-- The position that an event reports to lie past the declared size, and the size. -/
def overrun? : Event → Option (Nat × Nat)
  | overrun cursor total => some (cursor, total)
  | _ => none

/-- The signatures that an event reports a scan to begin with. -/
def prepared? : Event → Option Preparation
  | prepared live count arena => some ⟨live, count, arena⟩
  | _ => none

/-- The number of windows that were given up. -/
def discarded? : Event → Option Nat
  | discarded count => some count
  | _ => none

end Event

/-- What a log says, matter by matter, each in the order of the log. -/
structure Account where
  findings : List Finding
  intakes : List Intake
  overruns : List (Nat × Nat)
  prepared : List Preparation
  discarded : List Nat
  deriving DecidableEq

namespace Account

/-- Reads a log. -/
def ofLog (log : List Event) : Account where
  findings := log.filterMap Event.finding?
  intakes := log.filterMap Event.intake?
  overruns := log.filterMap Event.overrun?
  prepared := log.filterMap Event.prepared?
  discarded := log.filterMap Event.discarded?

/-- One account behind the other. -/
def append (first second : Account) : Account where
  findings := first.findings ++ second.findings
  intakes := first.intakes ++ second.intakes
  overruns := first.overruns ++ second.overruns
  prepared := first.prepared ++ second.prepared
  discarded := first.discarded ++ second.discarded

theorem ofLog_append (first second : List Event) :
    ofLog (first ++ second) = (ofLog first).append (ofLog second) := by
  simp [ofLog, append]

theorem append_ofLog_nil (told : Account) : told.append (ofLog []) = told := by
  simp [ofLog, append]

end Account

/-! ## the wording of accounts -/

/-- The line that tells a finding. -/
def Finding.line (finding : Finding) : LogLine :=
  ⟨.debug, "Matched " ++ finding.identifier ++ " at offset " ++ toString finding.offset⟩

/-- The line that tells of a piece of the stream. -/
def Intake.line (intake : Intake) : LogLine :=
  ⟨.trace, "Fed [" ++ toString intake.start ++ ", " ++ toString intake.stop ++ "): " ++
    toString intake.live ++ " live, " ++ toString intake.found ++ " new match(es)"⟩

/-- The line that tells how the signatures stand at first. -/
def Preparation.line (ready : Preparation) : LogLine :=
  ⟨.debug, "Prepared scan: " ++ toString ready.live ++ " of " ++ toString ready.count ++
    " signature(s) live, " ++ toString ready.arena ++ " arena byte(s)"⟩

/-- The line that tells of a position past the declared size. -/
def overrunLine : Nat × Nat → LogLine
  | (cursor, size) =>
    ⟨.warn, "Scanned " ++ toString cursor ++ " byte(s), past the declared total size of " ++
      toString size⟩

/-- The line that tells how many windows were given up. -/
def discardedLine (count : Nat) : LogLine :=
  ⟨.debug, "Discarding " ++ toString count ++ " incomplete signature window(s)"⟩

/-- Lines tell an account: those that begin with the words of a matter are the ones that it
takes to tell of it, in order. -/
structure Tells (lines : List LogLine) (told : Account) : Prop where
  findings : lines.filter (·.begins "Matched ") = told.findings.map Finding.line
  intakes : lines.filter (·.begins "Fed [") = told.intakes.map Intake.line
  overruns : lines.filter (·.begins "Scanned ") = told.overruns.map overrunLine
  prepared : lines.filter (·.begins "Prepared scan: ") = told.prepared.map Preparation.line
  discarded : lines.filter (·.begins "Discarding ") = told.discarded.map discardedLine

/-- **The lines of a log tell what its events report.** -/
theorem tells_ofLog (log : List Event) : Tells (log.map Event.logLine) (.ofLog log) where
  findings := Event.filter_begins (by decide) (fun event => by cases event <;> rfl) log
  intakes := Event.filter_begins (by decide) (fun event => by cases event <;> rfl) log
  overruns := Event.filter_begins (by decide) (fun event => by cases event <;> rfl) log
  prepared := Event.filter_begins (by decide) (fun event => by cases event <;> rfl) log
  discarded := Event.filter_begins (by decide) (fun event => by cases event <;> rfl) log

/-! ## reading lines back -/

theorem Finding.line_injective : Function.Injective line := by
  rintro ⟨identifier, offset⟩ ⟨other, offset'⟩ h
  have htext := congrArg LogLine.text h
  simp only [line, String.append_assoc, String.append_right_inj] at htext
  have hwords (text : String) :
      (" at offset " ++ text).toList = " at offset".toList ++ ' ' :: text.toList := by
    rw [String.toList_append]
    rfl
  have hlist := congrArg String.toList htext
  simp only [String.toList_append (s := identifier), String.toList_append (s := other), hwords,
    ← List.append_assoc] at hlist
  -- whatever the identifier is, the last blank stands before the offset
  obtain ⟨hidentifier, hoffset⟩ :=
    append_cons_inj_last (not_mem_toString (by decide)) (not_mem_toString (by decide)) hlist
  rw [String.toList_inj.mp (List.append_cancel_right hidentifier),
    toString_inj (String.toList_inj.mp hoffset)]

theorem Intake.line_injective : Function.Injective line := by
  rintro ⟨start, stop, live, found⟩ ⟨start', stop', live', found'⟩ h
  have htext := congrArg LogLine.text h
  simp only [line, String.append_assoc, String.append_right_inj] at htext
  obtain ⟨rfl, hstop⟩ := toString_append_inj rfl htext
  obtain ⟨rfl, hlive⟩ := toString_append_inj rfl hstop
  obtain ⟨rfl, hfound⟩ := toString_append_inj rfl hlive
  obtain rfl := toString_inj ((String.append_left_inj _).mp hfound)
  rfl

theorem Preparation.line_injective : Function.Injective line := by
  rintro ⟨live, count, arena⟩ ⟨live', count', arena'⟩ h
  have htext := congrArg LogLine.text h
  simp only [line, String.append_assoc, String.append_right_inj] at htext
  obtain ⟨rfl, hcount⟩ := toString_append_inj rfl htext
  obtain ⟨rfl, harena⟩ := toString_append_inj rfl hcount
  obtain rfl := toString_inj ((String.append_left_inj _).mp harena)
  rfl

theorem overrunLine_injective : Function.Injective overrunLine := by
  rintro ⟨cursor, size⟩ ⟨cursor', size'⟩ h
  have htext := congrArg LogLine.text h
  simp only [overrunLine, String.append_assoc, String.append_right_inj] at htext
  obtain ⟨rfl, hsize⟩ := toString_append_inj rfl htext
  obtain rfl := toString_inj hsize
  rfl

theorem discardedLine_injective : Function.Injective discardedLine := by
  intro count other h
  have htext := congrArg LogLine.text h
  simp only [discardedLine, String.append_assoc, String.append_right_inj] at htext
  exact toString_inj ((String.append_left_inj _).mp htext)

/-- **Lines tell one account only.** -/
theorem Tells.eq {lines : List LogLine} {told other : Account} (tells : Tells lines told)
    (tells' : Tells lines other) : told = other := by
  have hfindings := Finding.line_injective.list_map (tells.findings.symm.trans tells'.findings)
  have hintakes := Intake.line_injective.list_map (tells.intakes.symm.trans tells'.intakes)
  have hoverruns := overrunLine_injective.list_map (tells.overruns.symm.trans tells'.overruns)
  have hprepared := Preparation.line_injective.list_map (tells.prepared.symm.trans tells'.prepared)
  have hdiscarded := discardedLine_injective.list_map (tells.discarded.symm.trans tells'.discarded)
  cases told
  cases other
  rw [Account.mk.injEq]
  exact ⟨hfindings, hintakes, hoverruns, hprepared, hdiscarded⟩

/-- Lines tell this account, and no other. -/
def TellsJust (lines : List LogLine) (told : Account) : Prop :=
  Tells lines told ∧ ∀ other, Tells lines other → other = told

theorem tellsJust_heard (log : List Event) : TellsJust (heard .trace log) (.ofLog log) := by
  have tells := tells_ofLog log
  rw [heard_trace]
  exact ⟨tells, fun other tells' => tells'.eq tells⟩

end AnchorScan
