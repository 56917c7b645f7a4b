import AnchorScan.Proofs.ReportLines

/-!
# AnchorScan.Proofs.Colors

Colours change nothing but the sequences that make them.

* `withoutColors`: a text without its colour sequences;
* `ClosesColors`: every colour is reset before the line ends;
* `Tinted`: a text with some of its parts in colours, and the text without them;
* `Tinted.withoutColors_eq` and `Tinted.closesColors`: what follows for such texts;
* `Report.colors_exact`: the text of reports is one of them.
-/

namespace AnchorScan

/-! ## colour sequences -/

/-- What a sequence may have between its bracket and its end. -/
def isParameter (c : Char) : Bool := c.isDigit || c = ';'

/-- Whether a text goes on with a colour sequence, behind the first character of it. -/
def startsSequence : List Char → Bool
  | '[' :: text => (text.dropWhile isParameter).head? = some 'm'
  | _ => false

/-- What stands behind that sequence. -/
def afterSequence (text : List Char) : List Char := ((text.drop 1).dropWhile isParameter).drop 1

theorem length_afterSequence_le (text : List Char) : (afterSequence text).length ≤ text.length :=
  ((List.drop_sublist 1 _).trans
    ((List.dropWhile_sublist isParameter).trans (List.drop_sublist 1 text))).length_le

/-- A text without its colour sequences. -/
def withoutColors : List Char → List Char
  | [] => []
  | c :: text =>
    if c = escapeChar ∧ startsSequence text then withoutColors (afterSequence text)
    else c :: withoutColors text
termination_by text => text.length
decreasing_by
  · exact Nat.lt_succ_of_le (length_afterSequence_le text)
  · exact Nat.lt_succ_self text.length

/-- Every sequence but the one that resets colours is followed by that one, on the same line and
with no other in between. -/
def ClosesColors (text : List Char) : Prop :=
  ∀ before parameters after,
    text = before ++ escapeChar :: '[' :: (parameters ++ 'm' :: after) →
    (∀ c ∈ parameters, isParameter c = true) → parameters ≠ ['0'] →
    ∃ inside rest, after = inside ++ (resetSequence ++ rest) ∧
      escapeChar ∉ inside ∧ '\n' ∉ inside

/-! ### deleting sequences -/

theorem withoutColors_of_clean {text : List Char} (clean : escapeChar ∉ text) (rest : List Char) :
    withoutColors (text ++ rest) = text ++ withoutColors rest := by
  induction text with
  | nil => rfl
  | cons c text ih =>
      have hc : ¬ (c = escapeChar ∧ startsSequence (text ++ rest) = true) := fun h =>
        List.ne_of_not_mem_cons clean h.1.symm
      rw [List.cons_append, withoutColors, if_neg hc, ih (List.not_mem_of_not_mem_cons clean)]
      rfl

theorem withoutColors_sequence {parameters : List Char}
    (h : ∀ c ∈ parameters, isParameter c = true) (rest : List Char) :
    withoutColors (escapeChar :: '[' :: (parameters ++ 'm' :: rest)) = withoutColors rest := by
  have hdrop : (parameters ++ 'm' :: rest).dropWhile isParameter = 'm' :: rest := by
    rw [List.dropWhile_append_of_pos h, List.dropWhile_cons_of_neg (by decide)]
  have hstarts : startsSequence ('[' :: (parameters ++ 'm' :: rest)) = true := by
    simp [startsSequence, hdrop]
  have hafter : afterSequence ('[' :: (parameters ++ 'm' :: rest)) = rest := by
    simp [afterSequence, hdrop]
  rw [withoutColors, if_pos ⟨rfl, hstarts⟩, hafter]

/-! ### closing sequences -/

/-- What stands before a text without escapes in it does not reach into it. -/
theorem exists_of_clean {front text before after : List Char} (clean : escapeChar ∉ front)
    (h : front ++ text = before ++ escapeChar :: after) :
    ∃ before', text = before' ++ escapeChar :: after := by
  rcases List.append_eq_append_iff.mp h with ⟨before', -, htext⟩ | ⟨middle, hfront, hafter⟩
  · exact ⟨before', htext⟩
  · cases middle with
    | nil => exact ⟨[], hafter.symm⟩
    | cons c middle =>
        obtain ⟨rfl, -⟩ := List.cons.inj hafter
        exact absurd (hfront ▸ by simp) clean

theorem ClosesColors.append_of_clean {text : List Char} (closes : ClosesColors text)
    {front : List Char} (clean : escapeChar ∉ front) : ClosesColors (front ++ text) := by
  intro before parameters after heq
  obtain ⟨before', htext⟩ := exists_of_clean clean heq
  exact closes before' parameters after htext

/-- A sequence ends with the first `m` in it. -/
theorem parameters_append_inj {parameters parameters' after after' : List Char}
    (h : ∀ c ∈ parameters, isParameter c = true) (h' : ∀ c ∈ parameters', isParameter c = true)
    (heq : parameters ++ 'm' :: after = parameters' ++ 'm' :: after') :
    parameters = parameters' ∧ after = after' := by
  have hend {parameters : List Char} (h : ∀ c ∈ parameters, isParameter c = true) :
      'm' ∉ parameters := fun hmem => absurd (h _ hmem) (by decide)
  exact append_cons_inj (hend h) (hend h') heq

/-- A sequence that resets colours, or one that is closed, stands before a text. -/
theorem ClosesColors.sequence_append {parameters text : List Char} (closes : ClosesColors text)
    (h : ∀ c ∈ parameters, isParameter c = true)
    (closed : parameters ≠ ['0'] → ∃ inside rest, text = inside ++ (resetSequence ++ rest) ∧
      escapeChar ∉ inside ∧ '\n' ∉ inside) :
    ClosesColors (escapeChar :: '[' :: (parameters ++ 'm' :: text)) := by
  intro before parameters' after heq h' hreset
  cases before with
  | nil =>
      obtain ⟨rfl, rfl⟩ := parameters_append_inj h h' (List.cons.inj (List.cons.inj heq).2).2
      exact closed hreset
  | cons c before =>
      -- Another sequence begins behind this one, which has no escape in it but its first.
      have hparameters : escapeChar ∉ parameters := fun hmem => absurd (h _ hmem) (by decide)
      have hclean : escapeChar ∉ '[' :: (parameters ++ ['m']) := by simp +decide [hparameters]
      have htail := (List.cons.inj heq).2
      exact closes.append_of_clean hclean before parameters' after (.trans (by simp) htail) h'
        hreset

/-! ## painting -/

theorem isParameter_of_mem (color : Color) : ∀ c ∈ color.parameters, isParameter c = true := by
  cases color <;> exact List.all_eq_true.mp rfl

theorem reopen_of_clean {text : List Char} (clean : escapeChar ∉ text) (opening : List Char) :
    reopen opening text = text := by
  induction text with
  | nil => rw [reopen]
  | cons c text ih =>
      have hc : c ≠ escapeChar := (List.ne_of_not_mem_cons clean).symm
      rw [reopen.eq_def]
      split
      · next heq => exact absurd (List.cons.inj heq).1 hc
      · next heq =>
          obtain ⟨rfl, rfl⟩ := List.cons.inj heq
          rw [ih (List.not_mem_of_not_mem_cons clean)]
      · contradiction

theorem paint_append (color : Color) {text : List Char} (clean : escapeChar ∉ text)
    (rest : List Char) :
    paint color text ++ rest = escapeChar :: '[' :: (color.parameters ++ 'm' ::
      (text ++ escapeChar :: '[' :: (['0'] ++ 'm' :: rest))) := by
  simp [paint, Color.opening, reopen_of_clean clean, resetSequence]

theorem withoutColors_paint (color : Color) {text : List Char} (clean : escapeChar ∉ text)
    (rest : List Char) : withoutColors (paint color text ++ rest) = text ++ withoutColors rest := by
  rw [paint_append color clean, withoutColors_sequence (isParameter_of_mem color),
    withoutColors_of_clean clean, withoutColors_sequence (List.all_eq_true.mp rfl)]

/-- A painted part of a line closes its colour. -/
theorem ClosesColors.paint_append {rest : List Char} (closes : ClosesColors rest) (color : Color)
    {text : List Char} (clean : escapeChar ∉ text) (line : '\n' ∉ text) :
    ClosesColors (paint color text ++ rest) := by
  have hreset : ClosesColors (escapeChar :: '[' :: (['0'] ++ 'm' :: rest)) :=
    closes.sequence_append (List.all_eq_true.mp rfl) fun hne => absurd rfl hne
  rw [AnchorScan.paint_append color clean]
  exact (hreset.append_of_clean clean).sequence_append (isParameter_of_mem color) fun _ =>
    ⟨text, rest, rfl, clean, line⟩

/-! ## reports -/

/-- A text without escapes. -/
def IsClean (text : String) : Prop := escapeChar ∉ text.toList

instance : DecidablePred IsClean := fun text =>
  inferInstanceAs (Decidable (escapeChar ∉ text.toList))

@[simp] theorem isClean_append {first second : String} :
    IsClean (first ++ second) ↔ IsClean first ∧ IsClean second := by
  simp only [IsClean, String.toList_append, List.mem_append, not_or]

theorem IsPrinted.isClean {text : String} (h : IsPrinted text) : IsClean text := fun hmem =>
  absurd (h _ hmem) (by decide)

/-- A text with some of its parts, which are of some kind, in colours. -/
inductive Tinted (kind : String → Prop) : String → String → Prop
  | plain {text : String} (clean : IsClean text) : Tinted kind text text
  | painted (color : Color) {text : String} (h : kind text) :
      Tinted kind (.ofList (paint color text.toList)) text
  | append {first second bare bare' : String} (h : Tinted kind first bare)
      (h' : Tinted kind second bare') : Tinted kind (first ++ second) (bare ++ bare')

namespace Tinted

variable {kind : String → Prop} {text bare : String}

theorem withoutColors_append (tinted : Tinted kind text bare) (h : ∀ text, kind text → IsClean text)
    (rest : List Char) :
    withoutColors (text.toList ++ rest) = bare.toList ++ withoutColors rest := by
  induction tinted generalizing rest with
  | plain clean => exact withoutColors_of_clean clean rest
  | painted color hkind =>
      rw [String.toList_ofList]
      exact withoutColors_paint color (h _ hkind) rest
  | append _ _ ih ih' =>
      rw [String.toList_append, List.append_assoc, ih, ih', String.toList_append, List.append_assoc]

/-- **Without its colours, a tinted text is the bare one.** -/
theorem withoutColors_eq (tinted : Tinted kind text bare) (h : ∀ text, kind text → IsClean text) :
    withoutColors text.toList = bare.toList := by
  have heq := tinted.withoutColors_append h []
  rwa [withoutColors, List.append_nil, List.append_nil] at heq

theorem closesColors_append (tinted : Tinted kind text bare)
    (h : ∀ text, kind text → IsClean text ∧ IsLine text) {rest : List Char}
    (closes : ClosesColors rest) : ClosesColors (text.toList ++ rest) := by
  induction tinted generalizing rest with
  | plain clean => exact closes.append_of_clean clean
  | painted color hkind =>
      rw [String.toList_ofList]
      exact closes.paint_append color (h _ hkind).1 (h _ hkind).2
  | append _ _ ih ih' =>
      rw [String.toList_append, List.append_assoc]
      exact ih (ih' closes)

/-- **A tinted text closes its colours** if what is painted has no line breaks. -/
theorem closesColors (tinted : Tinted kind text bare)
    (h : ∀ text, kind text → IsClean text ∧ IsLine text) : ClosesColors text.toList := by
  have hnil : ClosesColors [] := fun before _ _ heq => by simp at heq
  simpa using tinted.closesColors_append h hnil

end Tinted

section

variable {kind : String → Prop} (size : Bool)

theorem tinted_apply (color : Color) {text : String} (h : kind text) :
    Tinted kind (Style.apply ⟨true, size⟩ color text) (Style.apply ⟨false, size⟩ color text) :=
  .painted color h

/-- The lines of a finding, but for its identifier, have no escapes. -/
theorem tinted_findingText (number : Nat) {finding : Finding} (h : kind finding.identifier) :
    Tinted kind (findingText ⟨true, size⟩ number finding)
      (findingText ⟨false, size⟩ number finding) := by
  have hrepr (n : Nat) : IsClean n.repr := (isPrinted_repr n).isClean
  have hhex := (isPrinted_offsetHex finding.offset).isClean
  have hfront : IsClean ("\nScan result: " ++ toString number ++ "\n" ++ "\tIdentifier\t\t: ") := by
    simp +decide [hrepr]
  have hback : IsClean ("\n" ++ "\tOffset\t\t\t: " ++ offsetHex finding.offset ++ " (" ++
      toString finding.offset ++ ")\n") := by
    simp +decide [hrepr, hhex]
  have hidentifier := tinted_apply size .identifier h
  have htinted := (Tinted.plain hfront).append (hidentifier.append (.plain hback))
  unfold findingText
  simpa only [String.append_assoc] using htinted

theorem tinted_findingsText (number : Nat) {findings : List Finding}
    (h : ∀ finding ∈ findings, kind finding.identifier) :
    Tinted kind (findingsText ⟨true, size⟩ number findings)
      (findingsText ⟨false, size⟩ number findings) := by
  induction findings generalizing number with
  | nil => exact .plain (show IsClean "" by decide)
  | cons finding findings ih =>
      obtain ⟨hfinding, hfindings⟩ := List.forall_mem_cons.mp h
      exact (tinted_findingText size number hfinding).append (ih (number + 1) hfindings)

namespace Report

theorem isClean_sizeLine (style : Style) (report : Report) : IsClean (report.sizeLine style) := by
  cases hsize : report.shownSize style with
  | none =>
      rw [sizeLine_of_none hsize]
      decide
  | some text =>
      rw [sizeLine_of_some hsize]
      simp +decide [(isPrinted_of_shownSize hsize).isClean]

variable (clean : ∀ text, kind text → IsClean text) (label : kind "Error")

include clean label

theorem tinted_text {report : Report} (h : report.Within kind) :
    Tinted kind (report.text ⟨true, size⟩) (report.text ⟨false, size⟩) := by
  have hsource :=
    (tinted_apply size .heading h.source).append (.plain (show IsClean "\n" by decide))
  unfold text
  refine hsource.append ?_
  cases herror : report.error with
  | some error =>
      have hback : IsClean ("\t\t\t: " ++ (error ++ "\n")) := by
        simp +decide [clean error (h.error error herror)]
      have hlabel := (tinted_apply size .error label).append (.plain hback)
      have hbody := (Tinted.plain (show IsClean "\t" by decide)).append hlabel
      simpa only [String.append_assoc] using hbody
  | none =>
      have hcount : IsClean report.findings.length.repr := (isPrinted_repr _).isClean
      have hfront : IsClean (report.sizeLine ⟨true, size⟩ ++ "\tNumber of scan results\t: " ++
          toString report.findings.length ++ "\n") := by
        simp +decide [isClean_sizeLine, hcount]
      exact (Tinted.plain hfront).append (tinted_findingsText size 1 h.identifiers)

theorem tinted_blocks {reports : List Report} (h : ∀ report ∈ reports, report.Within kind) :
    Tinted kind (blocks ⟨true, size⟩ reports) (blocks ⟨false, size⟩ reports) := by
  induction reports with
  | nil => exact .plain (show IsClean "" by decide)
  | cons report reports ih =>
      obtain ⟨hreport, hreports⟩ := List.forall_mem_cons.mp h
      have htext := tinted_text size clean label hreport
      exact (htext.append (.plain (show IsClean "\n" by decide))).append (ih hreports)

/-- The text of reports is tinted. -/
theorem tinted_allText {reports : List Report} (h : ∀ report ∈ reports, report.Within kind) :
    Tinted kind (allText ⟨true, size⟩ reports) (allText ⟨false, size⟩ reports) := by
  have hsummary : IsClean (summary reports) := by
    rw [summary_eq]
    simp +decide [(isPrinted_totals reports).isClean]
  exact (tinted_blocks size clean label h).append (.plain hsummary)

end Report

end

namespace Report

/-- **Colours change nothing but the sequences that make them.**  If no string among reports
has an escape, their text is the one without colours once the sequences are deleted, and so is
the text of each.  If no string has a line break either, every colour is reset on its line. -/
theorem colors_exact (size : Bool) {reports : List Report}
    (clean : ∀ report ∈ reports, report.Within IsClean) :
    (withoutColors (allText ⟨true, size⟩ reports).toList = (allText ⟨false, size⟩ reports).toList ∧
      ∀ report ∈ reports,
        withoutColors (report.text ⟨true, size⟩).toList = (report.text ⟨false, size⟩).toList) ∧
    ((∀ report ∈ reports, report.Within IsLine) →
      ClosesColors (allText ⟨true, size⟩ reports).toList ∧
      ∀ report ∈ reports, ClosesColors (report.text ⟨true, size⟩).toList) := by
  constructor
  · have htext {report : Report} (h : report.Within IsClean) :=
      tinted_text size (fun _ => id) (by decide) h
    have hall := tinted_allText size (fun _ => id) (by decide) clean
    exact ⟨hall.withoutColors_eq fun _ => id,
      fun report hreport => (htext (clean report hreport)).withoutColors_eq fun _ => id⟩
  · intro lines
    have hboth : ∀ report ∈ reports, report.Within fun text => IsClean text ∧ IsLine text :=
      fun report hreport =>
        have hclean := clean report hreport
        have hline := lines report hreport
        ⟨⟨hclean.source, hline.source⟩,
          fun finding h => ⟨hclean.identifiers finding h, hline.identifiers finding h⟩,
          fun error h => ⟨hclean.error error h, hline.error error h⟩⟩
    have htext {report : Report} (h : report.Within fun text => IsClean text ∧ IsLine text) :=
      tinted_text size (fun _ => And.left) (by decide) h
    have hall := tinted_allText size (fun _ => And.left) (by decide) hboth
    exact ⟨hall.closesColors fun _ => id,
      fun report hreport => (htext (hboth report hreport)).closesColors fun _ => id⟩

/-- Names that look like parts of sequences, next to the sequences. -/
theorem colors_exact_of_brackets :
    let reports : List Report :=
      [⟨"[0m", some 5, 5, [⟨"", 3⟩, ⟨";31m[", 4⟩], none⟩, ⟨"m", none, 0, [], some "[1m"⟩]
    (∀ report ∈ reports, report.Within IsClean) ∧ (∀ report ∈ reports, report.Within IsLine) ∧
      withoutColors (allText ⟨true, true⟩ reports).toList = (allText ⟨false, true⟩ reports).toList ∧
      ClosesColors (allText ⟨true, true⟩ reports).toList := by
  intro reports
  have clean : ∀ report ∈ reports, report.Within IsClean := by
    simp only [reports, List.forall_mem_cons]
    exact ⟨⟨by decide, by simp +decide, by simp⟩, ⟨by decide, by simp, by simp +decide⟩, by simp⟩
  have lines : ∀ report ∈ reports, report.Within IsLine := by
    simp only [reports, List.forall_mem_cons]
    exact ⟨⟨by decide, by simp +decide, by simp⟩, ⟨by decide, by simp, by simp +decide⟩, by simp⟩
  obtain ⟨⟨hdeleted, -⟩, hcloses⟩ := colors_exact true clean
  exact ⟨clean, lines, hdeleted, (hcloses lines).1⟩

end Report

end AnchorScan
