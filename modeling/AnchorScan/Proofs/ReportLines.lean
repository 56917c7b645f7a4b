import AnchorScan.Proofs.DecimalText
import AnchorScan.Proofs.Writing
import AnchorScan.Report.Text
import Mathlib.Data.List.Forall2

/-!
# AnchorScan.Proofs.ReportLines

The text of reports, without colours, loses no report and no finding.  It is read
from left to right: a line ends with the first line break, the start of a line
says what it is, and the number of findings says how many blocks of them follow.

* `line_append_inj`: a line is where a text begins;
* `Report.text_append_inj`: so is a report, but for what it does not show;
* `Report.forall₂_of_blocks`: all reports are, one after the other;
* `Report.allText_exact`: reports with the same text show the same, and the last
  line counts them.
-/

namespace AnchorScan

/-! ## lines -/

/-- A text without line breaks. -/
def IsLine (text : String) : Prop := '\n' ∉ text.toList

instance : DecidablePred IsLine := fun text => inferInstanceAs (Decidable ('\n' ∉ text.toList))

/-- A line is determined by the text that it begins. -/
theorem line_append_inj {first second rest rest' : String} (h : IsLine first) (h' : IsLine second)
    (heq : first ++ ("\n" ++ rest) = second ++ ("\n" ++ rest')) :
    first = second ∧ rest = rest' := by
  have hlist := congrArg String.toList heq
  simp only [String.toList_append] at hlist
  obtain ⟨hfirst, hrest⟩ := append_cons_inj h h' hlist
  exact ⟨String.toList_inj.mp hfirst, String.toList_inj.mp hrest⟩

/-! ## numbers -/

/-- A text of printable characters. -/
def IsPrinted (text : String) : Prop := ∀ c ∈ text.toList, IsPrintable c

instance : DecidablePred IsPrinted := fun text =>
  decidable_of_iff (text.toList.all (IsPrintable ·) = true) (by simp [IsPrinted])

@[simp] theorem isPrinted_append {first second : String} :
    IsPrinted (first ++ second) ↔ IsPrinted first ∧ IsPrinted second := by
  simp only [IsPrinted, String.toList_append, List.forall_mem_append]

theorem IsPrinted.isLine {text : String} (h : IsPrinted text) : IsLine text := fun hmem =>
  absurd (h _ hmem) (by decide)

@[simp] theorem isPrinted_repr (n : Nat) : IsPrinted n.repr := by
  intro c hc
  rw [Nat.toList_repr] at hc
  exact (isDigit_of_mem_toDigits hc).1

theorem mem_toDigits_sixteen {n : Nat} {c : Char} (h : c ∈ Nat.toDigits 16 n) :
    c ∈ "0123456789abcdef".toList := by
  have hdigit : ∀ d < 16, Nat.digitChar d ∈ "0123456789abcdef".toList := by decide
  induction n using Nat.strongRecOn with
  | ind n ih =>
      rcases Nat.lt_or_ge n 16 with hlt | hge
      · rw [Nat.toDigits_of_lt_base hlt, List.mem_singleton] at h
        exact h ▸ hdigit n hlt
      · rw [Nat.toDigits_of_base_le (by decide) hge, List.mem_append, List.mem_singleton] at h
        rcases h with h | h
        · exact ih (n / 16) (by omega) h
        · exact h ▸ hdigit (n % 16) (by omega)

/-- A hexadecimal number is written with hexadecimal digits. -/
theorem mem_offsetHex {n : Nat} {c : Char} (h : c ∈ (offsetHex n).toList) :
    c = 'x' ∨ c ∈ "0123456789abcdef".toList := by
  simp only [offsetHex, String.toList_append, String.toList_ofList, List.mem_append] at h
  rcases h with h | h | h
  · rcases List.mem_cons.mp h with rfl | h
    · exact .inr (by decide)
    · exact .inl (List.mem_singleton.mp h)
  · exact .inr (List.eq_of_mem_replicate h ▸ by decide)
  · exact .inr (mem_toDigits_sixteen h)

@[simp] theorem isPrinted_offsetHex (n : Nat) : IsPrinted (offsetHex n) := by
  have hdigits : IsPrinted "0123456789abcdef" := by decide
  intro c hc
  rcases mem_offsetHex hc with rfl | h
  · decide
  · exact hdigits c h

/-- An offset is determined by its line, which ends with its decimal number. -/
theorem offset_inj {m n : Nat}
    (h : offsetHex m ++ (" (" ++ (toString m ++ ")")) =
      offsetHex n ++ (" (" ++ (toString n ++ ")"))) : m = n := by
  have hspace (n : Nat) : ' ' ∉ (offsetHex n).toList := fun h =>
    absurd (mem_offsetHex h) (by decide)
  have hlist := congrArg String.toList h
  simp only [String.toList_append] at hlist
  obtain ⟨-, hnumber⟩ := append_cons_inj (hspace m) (hspace n) hlist
  exact toString_inj (String.toList_inj.mp (List.append_cancel_right (List.cons.inj hnumber).2))

/-! ## findings -/

section

variable {style : Style} (plain : style.color = false)

include plain

theorem apply_plain (color : Color) (text : String) : style.apply color text = text := by
  rw [Style.apply, plain]
  rfl

/-- A finding is determined by the text that its lines begin. -/
theorem findingText_append_inj {number : Nat} {finding other : Finding} {rest rest' : String}
    (line : IsLine finding.identifier) (line' : IsLine other.identifier)
    (heq : findingText style number finding ++ rest = findingText style number other ++ rest') :
    finding = other ∧ rest = rest' := by
  unfold findingText at heq
  simp only [apply_plain plain, String.append_assoc, String.append_right_inj] at heq
  obtain ⟨hidentifier, heq⟩ := line_append_inj line line' heq
  rw [String.append_right_inj] at heq
  have hline (n : Nat) : IsLine (offsetHex n ++ (" (" ++ (toString n ++ ")"))) :=
    IsPrinted.isLine (by simp +decide)
  have hbreak (n : Nat) (rest : String) : offsetHex n ++ (" (" ++ (toString n ++ (")\n" ++ rest))) =
      offsetHex n ++ (" (" ++ (toString n ++ ")")) ++ ("\n" ++ rest) := by
    simp only [String.append_assoc]
    rfl
  rw [hbreak, hbreak] at heq
  obtain ⟨hoffset, hrest⟩ := line_append_inj (hline _) (hline _) heq
  cases finding
  cases other
  exact ⟨congrArg₂ Finding.mk hidentifier (offset_inj hoffset), hrest⟩

/-- So are findings, if it is known how many they are. -/
theorem findingsText_append_inj {findings others : List Finding}
    (hlength : findings.length = others.length) {number : Nat} {rest rest' : String}
    (lines : ∀ finding ∈ findings, IsLine finding.identifier)
    (lines' : ∀ finding ∈ others, IsLine finding.identifier)
    (heq : findingsText style number findings ++ rest = findingsText style number others ++ rest') :
    findings = others ∧ rest = rest' := by
  induction findings generalizing others number with
  | nil =>
      obtain rfl := List.length_eq_zero_iff.mp hlength.symm
      simpa [findingsText] using heq
  | cons finding findings ih =>
      cases others with
      | nil => contradiction
      | cons other others =>
          obtain ⟨hline, hlines⟩ := List.forall_mem_cons.mp lines
          obtain ⟨hline', hlines'⟩ := List.forall_mem_cons.mp lines'
          simp only [findingsText, String.append_assoc] at heq
          obtain ⟨rfl, htail⟩ := findingText_append_inj plain hline hline' heq
          obtain ⟨rfl, hrest⟩ := ih (Nat.succ.inj hlength) hlines hlines' htail
          exact ⟨rfl, hrest⟩

end

/-! ## reports -/

theorem SizeUnit.choose_mem (value : Binary64) (unit : SizeUnit) (units : List SizeUnit) :
    choose value unit units ∈ unit :: units := by
  induction units generalizing unit with
  | nil => exact List.mem_singleton_self unit
  | cons larger rest ih =>
      rw [choose]
      split
      · exact List.mem_cons_self
      · exact List.mem_cons_of_mem unit (ih larger)

theorem isPrinted_fixedText (places num den : Nat) : IsPrinted (fixedText places num den) := by
  have hpadded (number : Nat) : IsPrinted (.ofList (padded places number)) := by
    intro c hc
    rw [String.toList_ofList] at hc
    rcases List.mem_append.mp hc with h | h
    · exact List.eq_of_mem_replicate h ▸ by decide
    · exact isPrinted_repr number c h
  unfold fixedText
  simp +decide [hpadded]

theorem isPrinted_readableSize (size : Nat) : IsPrinted (readableSize size) := by
  unfold readableSize
  split
  · simp +decide
  · have hmem := SizeUnit.choose_mem (Binary64.ofNat size) .kilo [.mega, .giga, .tera]
    have hname : ∀ unit ∈ [SizeUnit.kilo, .mega, .giga, .tera], IsPrinted unit.name := by decide
    simp only [isPrinted_append]
    exact ⟨⟨isPrinted_fixedText 2 _ _, by decide⟩, hname _ hmem⟩

namespace Report

/-- The strings of a report are of some kind. -/
structure Within (kind : String → Prop) (report : Report) : Prop where
  source : kind report.source
  identifiers : ∀ finding ∈ report.findings, kind finding.identifier
  error : ∀ error ∈ report.error, kind error

/-- The size as it is shown, if it is. -/
def shownSize (style : Style) (report : Report) : Option String :=
  if style.size then report.size.map readableSize else none

/-- Reports that look the same: a failed one shows no size and no findings. -/
structure LooksLike (style : Style) (report other : Report) : Prop where
  source : report.source = other.source
  error : report.error = other.error
  findings : report.error = none → report.findings = other.findings
  size : report.error = none → report.shownSize style = other.shownSize style

section

variable {style : Style}

theorem isPrinted_of_shownSize {report : Report} {text : String}
    (h : report.shownSize style = some text) : IsPrinted text := by
  unfold shownSize at h
  split at h
  · obtain ⟨size, -, rfl⟩ := Option.map_eq_some_iff.mp h
    exact isPrinted_readableSize size
  · contradiction

theorem sizeLine_eq (report : Report) :
    report.sizeLine style =
      ((report.shownSize style).map fun text => "\tSize\t\t\t: " ++ (text ++ "\n")).getD "" := by
  unfold sizeLine shownSize
  cases style.size <;> cases report.size <;> simp [String.append_assoc]

theorem sizeLine_of_none {report : Report} (h : report.shownSize style = none) :
    report.sizeLine style = "" := by
  rw [sizeLine_eq, h]
  rfl

theorem sizeLine_of_some {report : Report} {text : String}
    (h : report.shownSize style = some text) :
    report.sizeLine style = "\tSize\t\t\t: " ++ (text ++ "\n") := by
  rw [sizeLine_eq, h]
  rfl

/-- The line of a size is told from the line of the number of findings. -/
theorem sizeLine_append_inj {report other : Report} {rest rest' : String}
    (heq : report.sizeLine style ++ ("\tNumber of scan results\t: " ++ rest) =
      other.sizeLine style ++ ("\tNumber of scan results\t: " ++ rest')) :
    report.shownSize style = other.shownSize style ∧ rest = rest' := by
  have hne (text text' : String) :
      "\tSize\t\t\t: " ++ text ≠ "\tNumber of scan results\t: " ++ text' := by
    intro h
    have hlist := congrArg String.toList h
    simp at hlist
  cases hsize : report.shownSize style with
  | none =>
      rw [sizeLine_of_none hsize, String.empty_append] at heq
      cases hother : other.shownSize style with
      | none =>
          rw [sizeLine_of_none hother, String.empty_append, String.append_right_inj] at heq
          exact ⟨rfl, heq⟩
      | some text' =>
          rw [sizeLine_of_some hother, String.append_assoc] at heq
          exact absurd heq.symm (hne _ _)
  | some text =>
      rw [sizeLine_of_some hsize, String.append_assoc, String.append_assoc] at heq
      cases hother : other.shownSize style with
      | none =>
          rw [sizeLine_of_none hother, String.empty_append] at heq
          exact absurd heq (hne _ _)
      | some text' =>
          rw [sizeLine_of_some hother, String.append_assoc, String.append_assoc,
            String.append_right_inj] at heq
          obtain ⟨rfl, hrest⟩ := line_append_inj (isPrinted_of_shownSize hsize).isLine
            (isPrinted_of_shownSize hother).isLine heq
          exact ⟨rfl, (String.append_right_inj _).mp hrest⟩

/-- The line of an error is told from the lines of a scan that came to its end. -/
theorem error_ne_sizeLine (report : Report) (text text' : String) :
    "\t" ++ ("Error" ++ text) ≠
      report.sizeLine style ++ ("\tNumber of scan results\t: " ++ text') := by
  intro h
  have hlist := congrArg String.toList h
  -- The second character of a line tells what it is about.
  cases hsize : report.shownSize style with
  | none => simp [sizeLine_of_none hsize] at hlist
  | some text => simp [sizeLine_of_some hsize] at hlist

variable (plain : style.color = false)

include plain

theorem text_of_error {report : Report} {error : String} (h : report.error = some error)
    (rest : String) :
    report.text style ++ rest =
      report.source ++ ("\n" ++ ("\t" ++ ("Error" ++ ("\t\t\t: " ++
        (error ++ ("\n" ++ rest)))))) := by
  unfold text
  simp only [h, apply_plain plain, String.append_assoc]

theorem text_of_succeeded {report : Report} (h : report.error = none) (rest : String) :
    report.text style ++ rest =
      report.source ++ ("\n" ++ (report.sizeLine style ++ ("\tNumber of scan results\t: " ++
        (toString report.findings.length ++ ("\n" ++
          (findingsText style 1 report.findings ++ rest)))))) := by
  unfold text
  simp only [h, apply_plain plain, String.append_assoc]

/-- A report is determined, but for what it does not show, by the text that it begins. -/
theorem text_append_inj {report other : Report} {rest rest' : String} (lines : report.Within IsLine)
    (lines' : other.Within IsLine) (heq : report.text style ++ rest = other.text style ++ rest') :
    LooksLike style report other ∧ rest = rest' := by
  -- Below the source, both have an error or both have none.
  cases herror : report.error with
  | some error =>
      rw [text_of_error plain herror] at heq
      cases hother : other.error with
      | some error' =>
          rw [text_of_error plain hother] at heq
          obtain ⟨hsource, hbody⟩ := line_append_inj lines.source lines'.source heq
          simp only [String.append_right_inj] at hbody
          obtain ⟨rfl, hrest⟩ := line_append_inj (lines.error error herror)
            (lines'.error error' hother) hbody
          exact ⟨⟨hsource, by rw [herror, hother], by simp [herror], by simp [herror]⟩, hrest⟩
      | none =>
          rw [text_of_succeeded plain hother] at heq
          obtain ⟨-, hbody⟩ := line_append_inj lines.source lines'.source heq
          exact absurd hbody (error_ne_sizeLine other _ _)
  | none =>
      rw [text_of_succeeded plain herror] at heq
      cases hother : other.error with
      | some error' =>
          rw [text_of_error plain hother] at heq
          obtain ⟨-, hbody⟩ := line_append_inj lines.source lines'.source heq
          exact absurd hbody.symm (error_ne_sizeLine report _ _)
      | none =>
          rw [text_of_succeeded plain hother] at heq
          obtain ⟨hsource, hbody⟩ := line_append_inj lines.source lines'.source heq
          obtain ⟨hsize, hcount⟩ := sizeLine_append_inj hbody
          obtain ⟨hlength, hblocks⟩ := line_append_inj (isPrinted_repr _).isLine
            (isPrinted_repr _).isLine hcount
          obtain ⟨hfindings, hrest⟩ := findingsText_append_inj plain (toString_inj hlength)
            lines.identifiers lines'.identifiers hblocks
          exact ⟨⟨hsource, by rw [herror, hother], fun _ => hfindings, fun _ => hsize⟩, hrest⟩

/-- A single line is no block of a report, which has another line at least. -/
theorem line_ne_block {last : String} (line : IsLine last) {report : Report}
    (lines : report.Within IsLine) (rest : String) :
    last ++ "\n" ≠ report.text style ++ ("\n" ++ rest) := by
  obtain ⟨body, hbody⟩ : ∃ body, ∀ rest,
      report.text style ++ rest = report.source ++ ("\n" ++ (body ++ rest)) := by
    unfold text
    simp only [apply_plain plain, String.append_assoc, String.append_right_inj]
    exact ⟨_, fun rest => rfl⟩
  intro h
  rw [hbody, ← String.append_empty (s := "\n")] at h
  obtain ⟨-, hrest⟩ := line_append_inj line lines.source h
  have hlist := congrArg String.toList hrest
  simp at hlist

/-- Reports are determined by their blocks, with one more line behind them. -/
theorem forall₂_of_blocks {reports others : List Report}
    (lines : ∀ report ∈ reports, report.Within IsLine)
    (lines' : ∀ report ∈ others, report.Within IsLine)
    {last last' : String} (line : IsLine last) (line' : IsLine last')
    (heq : blocks style reports ++ (last ++ "\n") = blocks style others ++ (last' ++ "\n")) :
    List.Forall₂ (LooksLike style) reports others := by
  induction reports generalizing others with
  | nil =>
      cases others with
      | nil => exact .nil
      | cons other others =>
          have hother := lines' other List.mem_cons_self
          rw [blocks, blocks, String.empty_append, String.append_assoc, String.append_assoc] at heq
          exact absurd heq (line_ne_block plain line hother _)
  | cons report reports ih =>
      obtain ⟨hreport, hreports⟩ := List.forall_mem_cons.mp lines
      cases others with
      | nil =>
          rw [blocks, blocks, String.empty_append, String.append_assoc, String.append_assoc] at heq
          exact absurd heq.symm (line_ne_block plain line' hreport _)
      | cons other others =>
          obtain ⟨hother, hothers⟩ := List.forall_mem_cons.mp lines'
          simp only [blocks, String.append_assoc] at heq
          obtain ⟨hlooks, htail⟩ := text_append_inj plain hreport hother heq
          exact .cons hlooks (ih hreports hothers ((String.append_right_inj _).mp htail))

end

/-! ## the line of totals -/

/-- The line of totals, without its line break: how many reports there are, how many of them
have findings and how many have an error. -/
def totals (reports : List Report) : String :=
  toString reports.length ++ (if reports.length = 1 then " input" else " inputs") ++ " scanned, " ++
    toString (reports.countP fun report => report.findings ≠ []) ++ " with matches, " ++
    toString (reports.countP fun report => report.error ≠ none) ++ " failed"

theorem counted_input (count : Nat) :
    counted count "input" = toString count ++ (if count = 1 then " input" else " inputs") := by
  have hone : " " ++ ("input" ++ "") = " input" := by decide
  have hmany : " " ++ ("input" ++ "s") = " inputs" := by decide
  unfold counted
  split <;> simp only [String.append_assoc, hone, hmany]

theorem summary_eq (reports : List Report) : summary reports = totals reports ++ "\n" := by
  have hmatches : matchCount reports = reports.countP fun report => report.findings ≠ [] := by
    rw [matchCount, ← List.countP_eq_length_filter]
    exact List.countP_congr fun report _ => by simp [foundAny]
  have hfailures : failureCount reports = reports.countP fun report => report.error ≠ none := by
    rw [failureCount, ← List.countP_eq_length_filter]
    exact List.countP_congr fun report _ => by simp [succeeded, Option.isSome_iff_ne_none]
  have hlast : " failed\n" = " failed" ++ "\n" := rfl
  unfold summary totals
  rw [counted_input, hmatches, hfailures, hlast, ← String.append_assoc]

example : summary [⟨"a", none, 4, [⟨"id", 1⟩, ⟨"id", 2⟩], none⟩] =
    "1 input scanned, 1 with matches, 0 failed\n" := by decide +kernel

theorem isPrinted_totals (reports : List Report) : IsPrinted (totals reports) := by
  have hnoun (count : Nat) : IsPrinted (if count = 1 then " input" else " inputs") := by
    split <;> decide
  unfold totals
  simp +decide [hnoun]

/-- Blocks end with a line break, if there are any. -/
theorem blocks_eq (style : Style) (reports : List Report) :
    blocks style reports = "" ∨ ∃ text, blocks style reports = text ++ "\n" := by
  induction reports with
  | nil => exact .inl rfl
  | cons report reports ih =>
      refine .inr ?_
      rcases ih with h | ⟨text, h⟩
      · exact ⟨report.text style, by rw [blocks, h, String.append_empty]⟩
      · exact ⟨report.text style ++ "\n" ++ text, by rw [blocks, h, ← String.append_assoc]⟩

/-- **The text of reports loses nothing.**  Without colours, and if no string among them has a
line break, reports with the same text are the same in number and look alike, one by one.  The
last line counts all of them, those with findings, and those with an error. -/
theorem allText_exact {style : Style} (plain : style.color = false) {reports : List Report}
    (lines : ∀ report ∈ reports, report.Within IsLine) :
    (∀ others : List Report, (∀ report ∈ others, report.Within IsLine) →
      allText style reports = allText style others →
      List.Forall₂ (LooksLike style) reports others) ∧
    ∃ before, allText style reports = before ++ (totals reports ++ "\n") ∧
      (before = "" ∨ ∃ text, before = text ++ "\n") := by
  constructor
  · intro others lines' heq
    rw [allText, allText, summary_eq, summary_eq] at heq
    exact forall₂_of_blocks plain lines lines' (isPrinted_totals reports).isLine
      (isPrinted_totals others).isLine heq
  · exact ⟨blocks style reports, by rw [allText, summary_eq], blocks_eq style reports⟩

/-- A failed report and one with a size, which may be some octets more; and their last line. -/
theorem allText_exact_of_sizes :
    let reports : List Report :=
      [⟨"\tError", none, 0, [], some "a"⟩, ⟨"", some 1048576, 9, [⟨"id (1)", 3⟩], none⟩]
    let others : List Report :=
      [⟨"\tError", some 7, 0, [], some "a"⟩, ⟨"", some 1048577, 9, [⟨"id (1)", 3⟩], none⟩]
    (∀ report ∈ reports, report.Within IsLine) ∧ (∀ report ∈ others, report.Within IsLine) ∧
      allText ⟨false, true⟩ reports = allText ⟨false, true⟩ others ∧
      List.Forall₂ (LooksLike ⟨false, true⟩) reports others ∧
      totals reports = "2 inputs scanned, 1 with matches, 1 failed" ∧
      ∃ before, allText ⟨false, true⟩ reports =
          before ++ ("2 inputs scanned, 1 with matches, 1 failed" ++ "\n") ∧
        (before = "" ∨ ∃ text, before = text ++ "\n") := by
  intro reports others
  have lines : ∀ report ∈ reports, report.Within IsLine := by
    simp only [reports, List.forall_mem_cons]
    exact ⟨⟨by decide, by simp, by simp +decide⟩, ⟨by decide, by simp +decide, by simp⟩, by simp⟩
  have lines' : ∀ report ∈ others, report.Within IsLine := by
    simp only [others, List.forall_mem_cons]
    exact ⟨⟨by decide, by simp, by simp +decide⟩, ⟨by decide, by simp +decide, by simp⟩, by simp⟩
  have hsize : readableSize 1048576 = readableSize 1048577 := by decide +kernel
  have hline (style : Style) : sizeLine style ⟨"", some 1048576, 9, [⟨"id (1)", 3⟩], none⟩ =
      sizeLine style ⟨"", some 1048577, 9, [⟨"id (1)", 3⟩], none⟩ := by
    simp only [sizeLine_eq, shownSize, Option.map_some, hsize]
  have heq : allText ⟨false, true⟩ reports = allText ⟨false, true⟩ others := by
    simp only [allText, reports, others, blocks]
    unfold text
    simp only [hline]
    rfl
  have htotals : totals reports = "2 inputs scanned, 1 with matches, 1 failed" := by decide +kernel
  have plain : (⟨false, true⟩ : Style).color = false := rfl
  obtain ⟨hreports, hlast⟩ := allText_exact plain lines
  exact ⟨lines, lines', heq, hreports others lines' heq, htotals, htotals ▸ hlast⟩

end Report

end AnchorScan
