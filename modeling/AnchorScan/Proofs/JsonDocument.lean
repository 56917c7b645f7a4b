import AnchorScan.Proofs.JsonText

/-!
# AnchorScan.Proofs.JsonDocument

The grammar of JSON documents.  Whatever it derives is read, and what is written is
among it, however it is laid out.

* `Holds`: a text is a document, white space and escapes as they please;
* `read_of_holdsPadded`: the document is what is read from the text;
* `Value.Plain`: the documents that can be written, that is to say those whose
  strings have a text and whose numbers are natural and not too long;
* `holds_write`: their texts are among those of the grammar;
* `parse_compact` and `parse_pretty`: so none of them is lost in its two texts.
-/

namespace AnchorScan.Json

/-! ## the grammar -/

/-- Nothing but white space. -/
def Blank (text : List Char) : Prop := ∀ c ∈ text, isSpace c = true

mutual
/-- A text is a document, without white space around it. -/
inductive Holds : List Char → Value → Prop
  | null : Holds ['n', 'u', 'l', 'l'] .null
  | true : Holds ['t', 'r', 'u', 'e'] (.bool true)
  | false : Holds ['f', 'a', 'l', 's', 'e'] (.bool false)
  | number (numeral : Numeral) : Holds numeral.text numeral.value
  | string {text content : List Char} (quoted : Quoted text content) :
      Holds ('"' :: (text ++ ['"'])) (.text (String.ofList content))
  | noItems {space : List Char} (blank : Blank space) : Holds ('[' :: (space ++ [']'])) (.array [])
  | array {text : List Char} {items : List Value} (holds : HoldsItems text items) :
      Holds ('[' :: (text ++ [']'])) (.array items)
  | noMembers {space : List Char} (blank : Blank space) :
      Holds ('{' :: (space ++ ['}'])) (.object [])
  | object {text : List Char} {members : List (Text × Value)} (holds : HoldsMembers text members) :
      Holds ('{' :: (text ++ ['}'])) (.object members)

/-- A text is a document with white space around it. -/
inductive HoldsPadded : List Char → Value → Prop
  | intro {before text after : List Char} {value : Value} (blank : Blank before)
      (holds : Holds text value) (blank' : Blank after) :
      HoldsPadded (before ++ (text ++ after)) value

/-- A text is items with commas between them. -/
inductive HoldsItems : List Char → List Value → Prop
  | last {text : List Char} {item : Value} (holds : HoldsPadded text item) :
      HoldsItems text [item]
  | more {text others : List Char} {item : Value} {items : List Value}
      (holds : HoldsPadded text item) (rest : HoldsItems others items) :
      HoldsItems (text ++ ',' :: others) (item :: items)

/-- A text is a key, a colon and a document. -/
inductive HoldsMember : List Char → Text × Value → Prop
  | intro {before key content after text : List Char} {value : Value} (blank : Blank before)
      (quoted : Quoted key content) (blank' : Blank after) (holds : HoldsPadded text value) :
      HoldsMember (before ++ '"' :: (key ++ '"' :: (after ++ ':' :: text)))
        (some (String.ofList content), value)

/-- A text is members with commas between them. -/
inductive HoldsMembers : List Char → List (Text × Value) → Prop
  | last {text : List Char} {member : Text × Value} (holds : HoldsMember text member) :
      HoldsMembers text [member]
  | more {text others : List Char} {member : Text × Value} {members : List (Text × Value)}
      (holds : HoldsMember text member) (rest : HoldsMembers others members) :
      HoldsMembers (text ++ ',' :: others) (member :: members)
end

/-! ## white space -/

theorem blank_nil : Blank [] := by simp [Blank]

theorem skipSpace_cons {c : Char} (h : isSpace c = false) (text : List Char) :
    skipSpace (c :: text) = c :: text := List.dropWhile_cons_of_neg (by simp [h])

/-- White space before a text is dropped. -/
theorem skipSpace_append {space : List Char} (blank : Blank space) (text : List Char) :
    skipSpace (space ++ text) = skipSpace text := List.dropWhile_append_of_pos blank

/-- White space is dropped up to a character that is none. -/
theorem skipSpace_append_cons {space : List Char} (blank : Blank space) {c : Char}
    (h : isSpace c = false) (text : List Char) : skipSpace (space ++ c :: text) = c :: text := by
  rw [skipSpace_append blank, skipSpace_cons h]

/-- Behind white space, a text goes on with a character of some kind. -/
def Opens (kind : Char → Prop) (text : List Char) : Prop :=
  ∃ before c rest, text = before ++ c :: rest ∧ Blank before ∧ isSpace c = false ∧ kind c

theorem Opens.append {kind : Char → Prop} {text : List Char} (opens : Opens kind text)
    (behind : List Char) : Opens kind (text ++ behind) := by
  obtain ⟨before, c, rest, rfl, blank, hspace, hkind⟩ := opens
  exact ⟨before, c, rest ++ behind, by simp, blank, hspace, hkind⟩

theorem Opens.skipSpace {kind : Char → Prop} {text : List Char} (opens : Opens kind text) :
    ∃ c rest, skipSpace text = c :: rest ∧ isSpace c = false ∧ kind c := by
  obtain ⟨before, c, rest, rfl, blank, hspace, hkind⟩ := opens
  exact ⟨c, rest, skipSpace_append_cons blank hspace rest, hspace, hkind⟩

/-! ### readers do not see it -/

section

variable {text other : List Char} (h : skipSpace text = skipSpace other) (fuel : Nat)

include h

theorem readValue_congr : readValue fuel text = readValue fuel other := by
  cases fuel with
  | zero => rw [readValue, readValue]
  | succ fuel => rw [readValue, readValue, h]

theorem readItems_congr : readItems fuel text = readItems fuel other := by
  cases fuel with
  | zero => rw [readItems, readItems]
  | succ fuel => rw [readItems, readItems, readValue_congr h]

theorem readMembers_congr : readMembers fuel text = readMembers fuel other := by
  cases fuel with
  | zero => rw [readMembers, readMembers]
  | succ fuel => rw [readMembers, readMembers, h]

end

/-! ## what stands behind a document -/

/-- The end of the text, or what stands between documents or behind the last one. -/
def Separates (rest : List Char) : Prop := ∀ c ∈ rest.head?, c = ',' ∨ c = ']' ∨ c = '}'

theorem separates_cons {c : Char} (h : c = ',' ∨ c = ']' ∨ c = '}') (rest : List Char) :
    Separates (c :: rest) := fun _ hc => Option.some.inj hc ▸ h

/-- White space does not go on with a number, and neither does what separates documents. -/
theorem Separates.ends {rest : List Char} (separates : Separates rest) {space : List Char}
    (blank : Blank space) : Ends (space ++ rest) := by
  intro c hc
  cases space with
  | nil => rcases separates c hc with rfl | rfl | rfl <;> decide
  | cons first others =>
      obtain rfl : first = c := Option.some.inj hc
      have hspace := blank first List.mem_cons_self
      simp only [isSpace, decide_eq_true_eq] at hspace
      rcases hspace with rfl | rfl | rfl | rfl <;> decide

theorem Separates.skipSpace {rest : List Char} (separates : Separates rest) {space : List Char}
    (blank : Blank space) : skipSpace (space ++ rest) = rest := by
  rw [skipSpace_append blank]
  cases rest with
  | nil => rfl
  | cons c rest =>
      exact skipSpace_cons (by rcases separates c rfl with rfl | rfl | rfl <;> rfl) rest

/-! ## single documents -/

/-- A document is read from its text, with as many levels as the text has characters
and with anything behind it that does not go on with a number. -/
structure Reads (text : List Char) (value : Value) : Prop where
  /-- The text begins with no white space, and does not close a list. -/
  begins : ∃ c rest, text = c :: rest ∧ isSpace c = false ∧ c ≠ ']'
  readValue_eq : ∀ fuel rest, text.length ≤ fuel → Ends rest →
    readValue fuel (text ++ rest) = some (value, rest)

/-- No document has an empty text, so that there is a level for it. -/
theorem Reads.of_succ {text : List Char} {value : Value}
    (begins : ∃ c rest, text = c :: rest ∧ isSpace c = false ∧ c ≠ ']')
    (h : ∀ fuel rest, text.length ≤ fuel + 1 → Ends rest →
      readValue (fuel + 1) (text ++ rest) = some (value, rest)) : Reads text value where
  begins := begins
  readValue_eq fuel rest hfuel ends := by
    cases fuel with
    | succ fuel => exact h fuel rest hfuel ends
    | zero =>
        obtain ⟨c, others, rfl, -⟩ := begins
        contradiction

theorem reads_null : Reads ['n', 'u', 'l', 'l'] .null :=
  .of_succ ⟨'n', _, rfl, rfl, by decide⟩ fun _ _ _ _ => rfl

theorem reads_true : Reads ['t', 'r', 'u', 'e'] (.bool true) :=
  .of_succ ⟨'t', _, rfl, rfl, by decide⟩ fun _ _ _ _ => rfl

theorem reads_false : Reads ['f', 'a', 'l', 's', 'e'] (.bool false) :=
  .of_succ ⟨'f', _, rfl, rfl, by decide⟩ fun _ _ _ _ => rfl

theorem reads_string {text content : List Char} (quoted : Quoted text content) :
    Reads ('"' :: (text ++ ['"'])) (.text (String.ofList content)) := by
  refine .of_succ ⟨'"', _, rfl, rfl, by decide⟩ fun fuel rest _ _ => ?_
  have hread := quoted.readText rest
  rw [List.cons_append, List.append_assoc, List.singleton_append, readValue,
    skipSpace_cons (by decide)]
  simp only [hread, Option.map_some, Value.text]

/-! ### numbers -/

/-- A number begins with a minus sign or a digit. -/
theorem Numeral.begins (numeral : Numeral) :
    ∃ c rest, numeral.text = c :: rest ∧ (c = '-' ∨ c.isDigit = true) := by
  obtain ⟨c, others, hwhole, hdigit⟩ := numeral.exists_whole
  rcases numeral.sign_eq with h | h
  · exact ⟨c, _, by rw [text, h, hwhole]; rfl, .inr hdigit⟩
  · exact ⟨'-', _, by rw [text, h]; rfl, .inl rfl⟩

/-- That is none of the characters that other documents begin with. -/
theorem apart_of_begins {c : Char} (h : c = '-' ∨ c.isDigit = true) :
    isSpace c = false ∧ c ∉ [']', 'n', 't', 'f', '"', '[', '{'] := by
  have hothers : ['-', ' ', '\t', '\n', '\r', ']', 'n', 't', 'f', '"', '[', '{'].all
      (!Char.isDigit ·) = true := by decide
  rcases h with rfl | hdigit
  · exact ⟨rfl, by decide⟩
  · have hne : ∀ other ∈ ['-', ' ', '\t', '\n', '\r', ']', 'n', 't', 'f', '"', '[', '{'],
        c ≠ other := by
      rintro other hmem rfl
      simpa [hdigit] using List.all_eq_true.mp hothers c hmem
    simp only [List.forall_mem_cons] at hne
    simp [isSpace, hne]

theorem reads_number (numeral : Numeral) : Reads numeral.text numeral.value := by
  obtain ⟨c, others, htext, hfirst⟩ := numeral.begins
  obtain ⟨hspace, hapart⟩ := apart_of_begins hfirst
  refine .of_succ ⟨c, others, htext, hspace, by rintro rfl; simp at hapart⟩
    fun fuel rest _ ends => ?_
  have hread := numeral.readNumber ends
  rw [htext, List.cons_append] at hread ⊢
  rw [readValue.eq_def]
  simp only [skipSpace_cons hspace]
  split <;> simp_all

/-! ## documents with white space around them -/

/-- A document is read from its text, and what is left goes on, behind white space,
with what stood behind it. -/
structure ReadsPadded (text : List Char) (value : Value) : Prop where
  opens : Opens (· ≠ ']') text
  readValue_eq : ∀ fuel rest, text.length ≤ fuel → Separates rest →
    ∃ after, readValue fuel (text ++ rest) = some (value, after) ∧ skipSpace after = rest

theorem readsPadded {before text after : List Char} {value : Value} (blank : Blank before)
    (reads : Reads text value) (blank' : Blank after) :
    ReadsPadded (before ++ (text ++ after)) value where
  opens := by
    obtain ⟨c, others, rfl, hspace, hkind⟩ := reads.begins
    exact ⟨before, c, others ++ after, rfl, blank, hspace, hkind⟩
  readValue_eq fuel rest hfuel separates := by
    simp only [List.length_append] at hfuel
    refine ⟨after ++ rest, ?_, separates.skipSpace blank'⟩
    rw [List.append_assoc, List.append_assoc,
      readValue_congr (skipSpace_append blank (text ++ (after ++ rest)))]
    exact reads.readValue_eq fuel (after ++ rest) (by omega) (separates.ends blank')

/-! ## arrays -/

/-- Items are read up to the bracket behind them. -/
structure ReadsItems (text : List Char) (items : List Value) : Prop where
  opens : Opens (· ≠ ']') text
  readItems_eq : ∀ fuel rest, text.length < fuel →
    readItems fuel (text ++ ']' :: rest) = some (items, rest)

theorem readsItems_last {text : List Char} {item : Value} (reads : ReadsPadded text item) :
    ReadsItems text [item] where
  opens := reads.opens
  readItems_eq fuel rest hfuel := by
    obtain ⟨fuel, rfl⟩ := Nat.exists_eq_succ_of_ne_zero (Nat.ne_zero_of_lt hfuel)
    obtain ⟨after, hitem, hafter⟩ := reads.readValue_eq fuel (']' :: rest) (by omega)
      (separates_cons (by simp) rest)
    rw [readItems, hitem]
    simp only [hafter]

theorem readsItems_more {text others : List Char} {item : Value} {items : List Value}
    (reads : ReadsPadded text item) (rest : ReadsItems others items) :
    ReadsItems (text ++ ',' :: others) (item :: items) where
  opens := reads.opens.append _
  readItems_eq fuel behind hfuel := by
    obtain ⟨fuel, rfl⟩ := Nat.exists_eq_succ_of_ne_zero (Nat.ne_zero_of_lt hfuel)
    simp only [List.length_append, List.length_cons] at hfuel
    obtain ⟨after, hitem, hafter⟩ := reads.readValue_eq fuel (',' :: (others ++ ']' :: behind))
      (by omega) (separates_cons (by simp) _)
    have hitems := rest.readItems_eq fuel behind (by omega)
    rw [List.append_assoc, List.cons_append, readItems, hitem]
    simp only [hafter, hitems, Option.map_some]

theorem reads_noItems {space : List Char} (blank : Blank space) :
    Reads ('[' :: (space ++ [']'])) (.array []) := by
  refine .of_succ ⟨'[', _, rfl, rfl, by decide⟩ fun fuel rest _ _ => ?_
  rw [List.cons_append, List.append_assoc, List.singleton_append, readValue,
    skipSpace_cons (by decide)]
  simp only [skipSpace_append_cons blank (show isSpace ']' = false by decide)]

/-- What does not close a list is read as its items. -/
theorem readValue_array {fuel : Nat} {text : List Char} (opens : Opens (· ≠ ']') text) :
    readValue (fuel + 1) ('[' :: text) =
      (readItems fuel text).map fun (items, rest) => (.array items, rest) := by
  obtain ⟨c, after, hskip, hspace, hc⟩ := opens.skipSpace
  rw [readValue, skipSpace_cons (by decide)]
  simp only [hskip]
  split
  · next heq => exact absurd (List.cons.inj heq).1 hc
  · rw [readItems_congr ((skipSpace_cons hspace after).trans hskip.symm)]

theorem reads_array {text : List Char} {items : List Value} (reads : ReadsItems text items) :
    Reads ('[' :: (text ++ [']'])) (.array items) := by
  refine .of_succ ⟨'[', _, rfl, rfl, by decide⟩ fun fuel rest hfuel _ => ?_
  simp only [List.length_cons, List.length_append, List.length_nil] at hfuel
  have hitems := reads.readItems_eq fuel rest (by omega)
  rw [List.cons_append, List.append_assoc, List.singleton_append,
    readValue_array (reads.opens.append _), hitems]
  rfl

/-! ## objects -/

/-- A member is read up to the brace or the comma behind it. -/
structure ReadsMember (text : List Char) (member : Text × Value) : Prop where
  opens : Opens (· = '"') text
  readMembers_last : ∀ fuel rest, text.length ≤ fuel →
    readMembers (fuel + 1) (text ++ '}' :: rest) = some ([member], rest)
  readMembers_more : ∀ fuel rest, text.length ≤ fuel →
    readMembers (fuel + 1) (text ++ ',' :: rest) =
      (readMembers fuel rest).map fun (members, rest) => (member :: members, rest)

theorem readsMember {before key content after text : List Char} {value : Value}
    (blank : Blank before) (quoted : Quoted key content) (blank' : Blank after)
    (reads : ReadsPadded text value) :
    ReadsMember (before ++ '"' :: (key ++ '"' :: (after ++ ':' :: text)))
      (some (String.ofList content), value) := by
  have hkey (behind : List Char) := quoted.readText (after ++ ':' :: (text ++ behind))
  have hcolon (behind : List Char) := skipSpace_append_cons blank'
    (show isSpace ':' = false by decide) (text ++ behind)
  refine ⟨⟨before, '"', _, rfl, blank, rfl, rfl⟩,
    fun fuel rest hfuel => ?_, fun fuel rest hfuel => ?_⟩
  · simp only [List.length_append, List.length_cons] at hfuel
    obtain ⟨behind, hvalue, hbehind⟩ := reads.readValue_eq fuel ('}' :: rest) (by omega)
      (separates_cons (by simp) rest)
    simp only [List.append_assoc, List.cons_append]
    rw [readMembers, skipSpace_append_cons blank (by decide)]
    simp only [hkey, hcolon, hvalue, hbehind]
  · simp only [List.length_append, List.length_cons] at hfuel
    obtain ⟨behind, hvalue, hbehind⟩ := reads.readValue_eq fuel (',' :: rest) (by omega)
      (separates_cons (by simp) rest)
    simp only [List.append_assoc, List.cons_append]
    rw [readMembers, skipSpace_append_cons blank (by decide)]
    simp only [hkey, hcolon, hvalue, hbehind]

/-- Members are read up to the brace behind them. -/
structure ReadsMembers (text : List Char) (members : List (Text × Value)) : Prop where
  opens : Opens (· = '"') text
  readMembers_eq : ∀ fuel rest, text.length < fuel →
    readMembers fuel (text ++ '}' :: rest) = some (members, rest)

theorem readsMembers_last {text : List Char} {member : Text × Value}
    (reads : ReadsMember text member) : ReadsMembers text [member] where
  opens := reads.opens
  readMembers_eq fuel rest hfuel := by
    obtain ⟨fuel, rfl⟩ := Nat.exists_eq_succ_of_ne_zero (Nat.ne_zero_of_lt hfuel)
    exact reads.readMembers_last fuel rest (by omega)

theorem readsMembers_more {text others : List Char} {member : Text × Value}
    {members : List (Text × Value)} (reads : ReadsMember text member)
    (rest : ReadsMembers others members) :
    ReadsMembers (text ++ ',' :: others) (member :: members) where
  opens := reads.opens.append _
  readMembers_eq fuel behind hfuel := by
    obtain ⟨fuel, rfl⟩ := Nat.exists_eq_succ_of_ne_zero (Nat.ne_zero_of_lt hfuel)
    simp only [List.length_append, List.length_cons] at hfuel
    have hmembers := rest.readMembers_eq fuel behind (by omega)
    rw [List.append_assoc, List.cons_append, reads.readMembers_more fuel _ (by omega), hmembers]
    rfl

theorem reads_noMembers {space : List Char} (blank : Blank space) :
    Reads ('{' :: (space ++ ['}'])) (.object []) := by
  refine .of_succ ⟨'{', _, rfl, rfl, by decide⟩ fun fuel rest _ _ => ?_
  rw [List.cons_append, List.append_assoc, List.singleton_append, readValue,
    skipSpace_cons (by decide)]
  simp only [skipSpace_append_cons blank (show isSpace '}' = false by decide)]

/-- What opens with a quotation mark is read as members. -/
theorem readValue_object {fuel : Nat} {text : List Char} (opens : Opens (· = '"') text) :
    readValue (fuel + 1) ('{' :: text) =
      (readMembers fuel text).map fun (members, rest) => (.object members, rest) := by
  obtain ⟨c, after, hskip, hspace, rfl⟩ := opens.skipSpace
  rw [readValue, skipSpace_cons (by decide)]
  simp only [hskip]
  split
  · next heq => exact absurd (List.cons.inj heq).1 (by decide)
  · rw [readMembers_congr ((skipSpace_cons hspace after).trans hskip.symm)]

theorem reads_object {text : List Char} {members : List (Text × Value)}
    (reads : ReadsMembers text members) : Reads ('{' :: (text ++ ['}'])) (.object members) := by
  refine .of_succ ⟨'{', _, rfl, rfl, by decide⟩ fun fuel rest hfuel _ => ?_
  simp only [List.length_cons, List.length_append, List.length_nil] at hfuel
  have hmembers := reads.readMembers_eq fuel rest (by omega)
  rw [List.cons_append, List.append_assoc, List.singleton_append,
    readValue_object (reads.opens.append _), hmembers]
  rfl

/-! ## all documents -/

-- By recursion on the derivation, with a lemma above for each of its rules.
mutual
/-- **A document of the grammar is read from its text.** -/
theorem Holds.reads {text : List Char} {value : Value} : Holds text value → Reads text value
  | .null => reads_null
  | .true => reads_true
  | .false => reads_false
  | .number numeral => reads_number numeral
  | .string quoted => reads_string quoted
  | .noItems blank => reads_noItems blank
  | .array holds => reads_array holds.reads
  | .noMembers blank => reads_noMembers blank
  | .object holds => reads_object holds.reads

theorem HoldsPadded.reads {text : List Char} {value : Value} :
    HoldsPadded text value → ReadsPadded text value
  | .intro blank holds blank' => readsPadded blank holds.reads blank'

theorem HoldsItems.reads {text : List Char} {items : List Value} :
    HoldsItems text items → ReadsItems text items
  | .last holds => readsItems_last holds.reads
  | .more holds rest => readsItems_more holds.reads rest.reads

theorem HoldsMember.reads {text : List Char} {member : Text × Value} :
    HoldsMember text member → ReadsMember text member
  | .intro blank quoted blank' holds => readsMember blank quoted blank' holds.reads

theorem HoldsMembers.reads {text : List Char} {members : List (Text × Value)} :
    HoldsMembers text members → ReadsMembers text members
  | .last holds => readsMembers_last holds.reads
  | .more holds rest => readsMembers_more holds.reads rest.reads
end

/-- **The document that a text holds is read from it.** -/
theorem read_of_holdsPadded {text : List Char} {value : Value} (holds : HoldsPadded text value) :
    read text = some value := by
  obtain ⟨after, hread, hafter⟩ :=
    holds.reads.readValue_eq (2 * text.length + 2) [] (by omega) nofun
  rw [List.append_nil] at hread
  rw [read, hread]
  simp only [hafter, ↓reduceIte]

/-! ## written documents -/

mutual
/-- Documents whose strings have a text and whose numbers are natural. -/
def Value.Plain : Value → Prop
  | .null => True
  | .bool _ => True
  | .natural value => (Nat.toDigits 10 value).length ≤ maxNaturalDigits
  | .number _ => False
  | .string text => text.isSome = true
  | .array items => PlainItems items
  | .object members => PlainMembers members

/-- Plain items. -/
def PlainItems : List Value → Prop
  | [] => True
  | item :: items => item.Plain ∧ PlainItems items

/-- Plain members. -/
def PlainMembers : List (Text × Value) → Prop
  | [] => True
  | (key, value) :: members => key.isSome = true ∧ value.Plain ∧ PlainMembers members
end

theorem plainItems_of_forall {items : List Value} (h : ∀ item ∈ items, item.Plain) :
    PlainItems items := by
  induction items with
  | nil => trivial
  | cons item items ih => exact ⟨h item List.mem_cons_self, ih (List.forall_mem_cons.mp h).2⟩

section

variable {layout : Layout}

theorem blank_lineBreak (layout : Layout) : Blank layout.lineBreak := by
  cases layout with
  | compact => exact blank_nil
  | lines depth =>
      intro c h
      rcases List.mem_cons.mp h with rfl | h
      · rfl
      · rw [List.eq_of_mem_replicate h]
        rfl

theorem holds_natural {value : Nat} (h : (Nat.toDigits 10 value).length ≤ maxNaturalDigits) :
    Holds (write layout (.natural value)) (.natural value) := by
  have hholds := Holds.number (.ofNat value)
  rwa [Numeral.text_ofNat, Numeral.value_ofNat h,
    ← String.toList_ofList (l := Nat.toDigits 10 value),
    ← Nat.toString_eq_ofList_toDigits] at hholds

theorem holds_string (content : String) :
    Holds (write layout (.string (some content))) (.string (some content)) := by
  obtain ⟨text, htext, hquoted⟩ := quoted_writeText content
  have hholds := Holds.string hquoted
  rwa [← htext, String.ofList_toList] at hholds

/-- Written items, with white space before the bracket behind them. -/
theorem holdsItems_write {item : Value} {items : List Value}
    (holds : ∀ value ∈ item :: items, Holds (write layout value) value) {closing : List Char}
    (blank : Blank closing) :
    HoldsItems (layout.lineBreak ++ (write layout item ++ (writeItems layout items ++ closing)))
      (item :: items) := by
  induction items generalizing item with
  | nil => exact .last (.intro (blank_lineBreak layout) (holds item List.mem_cons_self) blank)
  | cons next others ih =>
      obtain ⟨hitem, hothers⟩ := List.forall_mem_cons.mp holds
      have hpadded := HoldsPadded.intro (blank_lineBreak layout) hitem blank_nil
      have hmore := HoldsItems.more hpadded (ih hothers)
      simpa [writeItems] using hmore

theorem holds_array {items : List Value}
    (holds : ∀ item ∈ items, Holds (write layout.deeper item) item) :
    Holds (write layout (.array items)) (.array items) := by
  cases items with
  | nil => exact .noItems blank_nil
  | cons item items =>
      have hholds := Holds.array (holdsItems_write holds (blank_lineBreak layout))
      simpa [write] using hholds

theorem colon_deeper (layout : Layout) : layout.deeper.colon = layout.colon := by
  cases layout <;> rfl

/-- A written member, with white space before what stands behind it. -/
theorem holdsMember_write (key : String) {value : Value} (holds : Holds (write layout value) value)
    {closing : List Char} (blank : Blank closing) :
    HoldsMember (layout.lineBreak ++ (writeText (some key) ++ (layout.colon ++
      (write layout value ++ closing)))) (some key, value) := by
  obtain ⟨text, htext, hquoted⟩ := quoted_writeText key
  obtain ⟨space, hcolon, hspace⟩ : ∃ space, layout.colon = ':' :: space ∧ Blank space := by
    cases layout with
    | compact => exact ⟨[], rfl, blank_nil⟩
    | lines depth => exact ⟨[' '], rfl, by simp [Blank, isSpace]⟩
  have hmember := HoldsMember.intro (blank_lineBreak layout) hquoted blank_nil
    (HoldsPadded.intro hspace holds blank)
  simpa [htext, hcolon] using hmember

/-- Written members, with white space before the brace behind them. -/
theorem holdsMembers_write (key : String) {value : Value} {members : List (Text × Value)}
    (hvalue : Holds (write layout value) value)
    (holds : ∀ member ∈ members, member.1.isSome = true ∧ Holds (write layout member.2) member.2)
    {closing : List Char} (blank : Blank closing) :
    HoldsMembers (layout.lineBreak ++ (writeText (some key) ++ (layout.colon ++
      (write layout value ++ (writeMembers layout members ++ closing)))))
      ((some key, value) :: members) := by
  induction members generalizing key value with
  | nil => exact .last (holdsMember_write key hvalue blank)
  | cons member others ih =>
      obtain ⟨name, next⟩ := member
      obtain ⟨⟨hsome, hnext⟩, hothers⟩ := List.forall_mem_cons.mp holds
      obtain ⟨name, rfl⟩ := Option.isSome_iff_exists.mp hsome
      have hmore := HoldsMembers.more (holdsMember_write key hvalue blank_nil)
        (ih name hnext hothers)
      simpa [writeMembers] using hmore

theorem holds_object {members : List (Text × Value)}
    (holds : ∀ member ∈ members,
      member.1.isSome = true ∧ Holds (write layout.deeper member.2) member.2) :
    Holds (write layout (.object members)) (.object members) := by
  cases members with
  | nil => exact .noMembers blank_nil
  | cons member members =>
      obtain ⟨key, value⟩ := member
      obtain ⟨⟨hsome, hvalue⟩, hothers⟩ := List.forall_mem_cons.mp holds
      obtain ⟨key, rfl⟩ := Option.isSome_iff_exists.mp hsome
      have hholds := Holds.object (holdsMembers_write key hvalue hothers (blank_lineBreak layout))
      simpa [write, colon_deeper] using hholds

end

-- By recursion on the document; the layout goes down with it, so it comes last.
mutual
/-- **A plain document is written as the grammar has it.** -/
theorem holds_write : ∀ (value : Value), value.Plain → ∀ layout, Holds (write layout value) value
  | .null, _, _ => .null
  | .bool true, _, _ => .true
  | .bool false, _, _ => .false
  | .natural _, plain, _ => holds_natural plain
  | .number _, plain, _ => plain.elim
  | .string (some content), _, _ => holds_string content
  | .array items, plain, layout => holds_array (holds_items items plain layout.deeper)
  | .object members, plain, layout => holds_object (holds_members members plain layout.deeper)

theorem holds_items : ∀ (items : List Value), PlainItems items → ∀ layout,
    ∀ item ∈ items, Holds (write layout item) item
  | [], _, _ => List.forall_mem_nil _
  | item :: items, plain, layout => List.forall_mem_cons.mpr
      ⟨holds_write item plain.1 layout, holds_items items plain.2 layout⟩

theorem holds_members : ∀ (members : List (Text × Value)), PlainMembers members → ∀ layout,
    ∀ member ∈ members, member.1.isSome = true ∧ Holds (write layout member.2) member.2
  | [], _, _ => List.forall_mem_nil _
  | (_, value) :: members, plain, layout => List.forall_mem_cons.mpr
      ⟨⟨plain.1, holds_write value plain.2.1 layout⟩, holds_members members plain.2.2 layout⟩
end

theorem read_write {value : Value} (plain : value.Plain) (layout : Layout) :
    read (write layout value) = some value := by
  have hpadded := HoldsPadded.intro blank_nil (holds_write value plain layout) blank_nil
  rw [List.nil_append, List.append_nil] at hpadded
  exact read_of_holdsPadded hpadded

/-- **A plain document is what its text without blanks holds.** -/
theorem parse_compact {value : Value} (plain : value.Plain) : parse value.compact = some value := by
  rw [parse, Value.compact, String.toList_ofList]
  exact read_write plain .compact

/-- **A plain document is what its text over lines holds.** -/
theorem parse_pretty {value : Value} (plain : value.Plain) : parse value.pretty = some value := by
  rw [parse, Value.pretty, String.toList_ofList]
  exact read_write plain (.lines 0)

end AnchorScan.Json
