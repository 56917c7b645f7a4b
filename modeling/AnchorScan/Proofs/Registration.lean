import AnchorScan.Proofs.LoadedFile

/-!
# AnchorScan.Proofs.Registration

The history of a catalog.  Whatever is registered, and refused in between, a
catalog holds what was accepted, in order, and everything else that it keeps is
derived from that.

* `Registration.accepted`: what a call adds, `Registration.reply` what it answers;
* `Catalog.Adds`: one catalog came from another, which is still there, by adding
  definitions; `Catalog.adds_perform` says so of every call;
* `Catalog.Keeps`: what a catalog keeps of the definitions that it holds;
* `Catalog.performAll_keeps`: so it is after any calls.
-/

namespace AnchorScan

/-! ## calls -/

/-- Why a definition without a pattern is refused. -/
def Definition.refusal (definition : Definition) : Failure :=
  .unusablePattern ("Signature '" ++ definition.identifier ++ "' has an empty pattern")

/-- The calls that change a catalog. -/
inductive Registration where
  | register (definition : Definition)
  | registerFromStart (identifier : String) (offset : Nat) (pattern : Bytes)
  | registerFromEnd (identifier : String) (offset : Nat) (pattern : Bytes)
  | load (definitions : List Definition)

namespace Registration

/-- The definition that a call registers on its own. -/
def definition? : Registration → Option Definition
  | register definition => some definition
  | registerFromStart identifier offset pattern => some ⟨identifier, .fromStart offset, pattern⟩
  | registerFromEnd identifier offset pattern => some ⟨identifier, .fromEnd offset, pattern⟩
  | load _ => none

/-- The definitions that a call asks to register. -/
def offered : Registration → List Definition
  | register definition => [definition]
  | registerFromStart identifier offset pattern => [⟨identifier, .fromStart offset, pattern⟩]
  | registerFromEnd identifier offset pattern => [⟨identifier, .fromEnd offset, pattern⟩]
  | load definitions => definitions

/-- The definitions that are registered: those before the first empty pattern. -/
def accepted (call : Registration) : List Definition :=
  call.offered.takeWhile (·.pattern ≠ [])

/-- What a call answers that registers all that it offers: a number of
definitions, or the position of the one. -/
def answer (call : Registration) (size : Nat) : Nat :=
  match call with
  | load definitions => definitions.length
  | _ => size

/-- What a call replies that comes to a catalog of a size. -/
def reply (call : Registration) (size : Nat) : Except Failure Nat :=
  match call.offered.find? (·.pattern = []) with
  | none => .ok (call.answer size)
  | some definition => .error definition.refusal

end Registration

namespace Catalog

/-- A call on a catalog. -/
def perform (catalog : Catalog) : Registration → Step Catalog Nat
  | .register definition => catalog.register definition
  | .registerFromStart identifier offset pattern =>
    catalog.registerFromStart identifier offset pattern
  | .registerFromEnd identifier offset pattern => catalog.registerFromEnd identifier offset pattern
  | .load definitions => catalog.load definitions

/-- The catalog after calls. -/
def performAll (catalog : Catalog) (calls : List Registration) : Catalog :=
  calls.foldl (fun catalog call => (catalog.perform call).state) catalog

/-- A call registers a single definition, or loads any number. -/
theorem perform_cases (call : Registration) :
    (∃ definition, call.definition? = some definition ∧ call.offered = [definition] ∧
        (∀ size, call.answer size = size) ∧
        ∀ catalog : Catalog, catalog.perform call = catalog.register definition) ∨
      ∃ definitions, call = .load definitions := by
  cases call with
  | register definition => exact .inl ⟨_, rfl, rfl, fun _ => rfl, fun _ => rfl⟩
  | registerFromStart identifier offset pattern =>
      exact .inl ⟨_, rfl, rfl, fun _ => rfl, fun _ => rfl⟩
  | registerFromEnd identifier offset pattern =>
      exact .inl ⟨_, rfl, rfl, fun _ => rfl, fun _ => rfl⟩
  | load definitions => exact .inr ⟨definitions, rfl⟩

/-! ## what a call adds -/

/-- A catalog has the signatures of another in their places, and behind them
those of the definitions that were added. -/
def Adds (catalog : Catalog) (definitions : List Definition) (later : Catalog) : Prop :=
  ∃ added, later.signatures.toList = catalog.signatures.toList ++ added ∧
    added.map Signature.toDefinition = definitions

namespace Adds

variable {catalog later last : Catalog} {definitions more : List Definition}

theorem refl (catalog : Catalog) : catalog.Adds [] catalog := ⟨[], by simp⟩

theorem trans (adds : catalog.Adds definitions later) (addsMore : later.Adds more last) :
    catalog.Adds (definitions ++ more) last := by
  obtain ⟨added, hlater, rfl⟩ := adds
  obtain ⟨addedMore, hlast, rfl⟩ := addsMore
  exact ⟨added ++ addedMore, by simp [hlast, hlater], by simp⟩

/-- Nothing is changed or removed. -/
theorem isPrefix (adds : catalog.Adds definitions later) :
    catalog.signatures.toList <+: later.signatures.toList := by
  obtain ⟨added, hlater, -⟩ := adds
  exact ⟨added, hlater.symm⟩

theorem definitions_eq (adds : catalog.Adds definitions later) :
    later.definitions = catalog.definitions ++ definitions := by
  obtain ⟨added, hlater, rfl⟩ := adds
  simp [Catalog.definitions, hlater]

/-- What stands at a position stays there. -/
theorem get?_eq (adds : catalog.Adds definitions later) {index : Nat} {signature : Signature}
    (h : catalog.get? index = some signature) : later.get? index = some signature := by
  obtain ⟨added, hlater, -⟩ := adds
  rw [get?, ← Array.getElem?_toList] at h ⊢
  obtain ⟨hlt, -⟩ := List.getElem?_eq_some_iff.mp h
  rw [hlater, List.getElem?_append_left hlt, h]

end Adds

theorem register_of_nil (catalog : Catalog) {definition : Definition} (h : definition.pattern = []) :
    catalog.register definition = Step.refused definition.refusal catalog :=
  dif_pos h

theorem adds_register (catalog : Catalog) {definition : Definition} (h : definition.pattern ≠ []) :
    catalog.Adds [definition] (catalog.register definition).state := by
  unfold register
  rw [dif_neg h]
  exact ⟨[_], by rw [Step.state_ok, signatures_push, Array.toList_push], rfl⟩

/-- A catalog gets the definitions before the first that is refused. -/
theorem adds_registerAll (catalog : Catalog) (definitions : List Definition) :
    catalog.Adds (definitions.takeWhile (·.pattern ≠ [])) (catalog.registerAll definitions).state := by
  induction definitions generalizing catalog with
  | nil => exact .refl catalog
  | cons definition rest ih =>
      by_cases hpattern : definition.pattern = []
      · rw [registerAll, register_of_nil catalog hpattern, List.takeWhile_cons_of_neg (by simpa)]
        exact .refl catalog
      · obtain ⟨hreply, -⟩ := catalog.register_of_ne_nil hpattern
        rw [registerAll, Step.state_andThen hreply, List.takeWhile_cons_of_pos (by simpa)]
        exact (catalog.adds_register hpattern).trans (ih _)

theorem reply_registerAll (catalog : Catalog) (definitions : List Definition) :
    (catalog.registerAll definitions).reply =
      match definitions.find? (·.pattern = []) with
      | none => .ok ()
      | some definition => .error definition.refusal := by
  induction definitions generalizing catalog with
  | nil => rfl
  | cons definition rest ih =>
      by_cases hpattern : definition.pattern = []
      · rw [registerAll, register_of_nil catalog hpattern, List.find?_cons_of_pos (by simpa)]
        rfl
      · obtain ⟨hreply, -⟩ := catalog.register_of_ne_nil hpattern
        rw [registerAll, Step.reply_andThen hreply, List.find?_cons_of_neg (by simpa), ih]

/-- Loading leaves what registering leaves. -/
theorem state_load (catalog : Catalog) (definitions : List Definition) :
    (catalog.load definitions).state = (catalog.registerAll definitions).state := by
  unfold load
  obtain ⟨reply, state, log⟩ := catalog.registerAll definitions
  cases reply <;> rfl

/-- **Every call adds what it has accepted.** -/
theorem adds_perform (catalog : Catalog) (call : Registration) :
    catalog.Adds call.accepted (catalog.perform call).state := by
  rcases perform_cases call with ⟨definition, -, hoffered, -, hperform⟩ | ⟨definitions, rfl⟩
  · rw [Registration.accepted, hoffered, hperform]
    by_cases hpattern : definition.pattern = []
    · rw [register_of_nil catalog hpattern, List.takeWhile_cons_of_neg (by simpa)]
      exact .refl catalog
    · rw [List.takeWhile_cons_of_pos (by simpa)]
      exact catalog.adds_register hpattern
  · rw [perform, state_load]
    exact catalog.adds_registerAll definitions

/-- **Every call replies as its definitions have it.** -/
theorem reply_perform (catalog : Catalog) (call : Registration) :
    (catalog.perform call).reply = call.reply catalog.size := by
  unfold Registration.reply
  rcases perform_cases call with ⟨definition, -, hoffered, hanswer, hperform⟩ | ⟨definitions, rfl⟩
  · rw [hoffered, hperform, hanswer]
    by_cases hpattern : definition.pattern = []
    · rw [register_of_nil catalog hpattern, List.find?_cons_of_pos (by simpa)]
      rfl
    · rw [(catalog.register_of_ne_nil hpattern).1, List.find?_cons_of_neg (by simpa)]
      rfl
  · have hreply := catalog.reply_registerAll definitions
    rw [Registration.offered]
    cases hfind : definitions.find? (·.pattern = []) with
    | none =>
        rw [hfind] at hreply
        rw [perform, load, Step.reply_andThen hreply]
        rfl
    | some definition =>
        rw [hfind] at hreply
        exact Step.reply_andThen_of_error hreply _

/-- A call that accepts nothing changes nothing. -/
theorem state_perform_of_accepted_nil (catalog : Catalog) {call : Registration}
    (h : call.accepted = []) : (catalog.perform call).state = catalog := by
  have hfirst {definition : Definition} {rest : List Definition}
      (h : (definition :: rest).takeWhile (·.pattern ≠ []) = []) : definition.pattern = [] := by
    by_contra hpattern
    rw [List.takeWhile_cons_of_pos (by simpa)] at h
    contradiction
  unfold Registration.accepted at h
  rcases perform_cases call with ⟨definition, -, hoffered, -, hperform⟩ | ⟨definitions, rfl⟩
  · rw [hoffered] at h
    rw [hperform, register_of_nil catalog (hfirst h), Step.state_refused]
  · rw [perform, state_load]
    cases definitions with
    | nil => rfl
    | cons definition rest => rw [registerAll, register_of_nil catalog (hfirst h)]; rfl

/-- A definition that is registered on its own stands where its registration
answered. -/
theorem get?_perform (catalog : Catalog) {call : Registration} {definition : Definition}
    (h : call.definition? = some definition) {index : Nat}
    (hreply : (catalog.perform call).reply = .ok index) :
    ∃ signature, (catalog.perform call).state.get? index = some signature ∧
      signature.toDefinition = definition := by
  rcases perform_cases call with ⟨found, hfound, -, -, hperform⟩ | ⟨definitions, rfl⟩
  · obtain rfl : found = definition := Option.some.inj (hfound.symm.trans h)
    rw [hperform] at hreply ⊢
    by_cases hpattern : found.pattern = []
    · rw [register_of_nil catalog hpattern] at hreply
      contradiction
    · obtain ⟨hsize, -⟩ := catalog.register_of_ne_nil hpattern
      obtain rfl : catalog.size = index := Except.ok.inj (hsize.symm.trans hreply)
      unfold register get?
      rw [dif_neg hpattern, Step.state_ok, signatures_push, size, Array.getElem?_push_size]
      exact ⟨_, rfl, rfl⟩
  · contradiction

theorem LaidOut.perform {catalog : Catalog} (laidOut : catalog.LaidOut) (call : Registration) :
    (catalog.perform call).state.LaidOut := by
  rcases perform_cases call with ⟨definition, -, -, -, hperform⟩ | ⟨definitions, rfl⟩
  · rw [hperform]
    exact laidOut.register definition
  · exact laidOut.load definitions

/-! ## runs of calls -/

/-- Calls add what they have accepted, one after the other. -/
theorem adds_performAll (catalog : Catalog) (calls : List Registration) :
    catalog.Adds (calls.flatMap Registration.accepted) (catalog.performAll calls) := by
  induction calls generalizing catalog with
  | nil => exact .refl catalog
  | cons call rest ih => exact (catalog.adds_perform call).trans (ih _)

theorem LaidOut.performAll {catalog : Catalog} (laidOut : catalog.LaidOut)
    (calls : List Registration) : (catalog.performAll calls).LaidOut := by
  induction calls generalizing catalog with
  | nil => exact laidOut
  | cons call rest ih => exact ih (laidOut.perform call)

/-! ## what a catalog keeps -/

/-- **What a catalog keeps of the definitions that it holds.** -/
structure Keeps (catalog : Catalog) (definitions : List Definition) : Prop where
  /-- The definitions are there, in order. -/
  definitions_eq : catalog.definitions = definitions
  /-- A signature knows the position that it stands at. -/
  index_eq : ∀ index signature, catalog.get? index = some signature → signature.index = index
  /-- The first buffer begins where the arena does, -/
  arenaStart_first : ∀ signature, catalog.get? 0 = some signature → signature.arenaStart = 0
  /-- every other where the one before ends, -/
  arenaStart_next : ∀ index first second, catalog.get? index = some first →
    catalog.get? (index + 1) = some second → second.arenaStart = first.arenaStop
  /-- so that no two of them share a place, -/
  buffers_disjoint : ∀ first ∈ catalog.signatures, ∀ second ∈ catalog.signatures, first ≠ second →
    first.arenaStop ≤ second.arenaStart ∨ second.arenaStop ≤ first.arenaStart
  /-- and there is no other place in the arena, -/
  covered : ∀ place, place < catalog.arenaLength ↔
    ∃ signature ∈ catalog.signatures, signature.arenaStart ≤ place ∧ place < signature.arenaStop
  /-- which has room for all patterns. -/
  arenaLength_eq : catalog.arenaLength = definitions.foldr (·.pattern.length + ·) 0
  /-- The positions of a class grow, -/
  positions_increasing : ∀ anchorClass, (catalog.positions anchorClass).Pairwise (· < ·)
  /-- are those of its signatures, -/
  mem_positions_iff : ∀ anchorClass index, index ∈ catalog.positions anchorClass ↔
    ∃ signature, catalog.get? index = some signature ∧ signature.anchor.anchorClass = anchorClass
  /-- and make up all positions with those of the other class. -/
  positions_perm :
    (catalog.positions .fromStart ++ catalog.positions .fromEnd).Perm (List.range catalog.size)
  /-- The signatures of a class are in order of registration. -/
  ofClass_eq : ∀ anchorClass, catalog.ofClass anchorClass =
    catalog.signatures.toList.filter (·.anchor.anchorClass = anchorClass)
  needsTotal_iff : catalog.needsTotal = true ↔
    ∃ definition ∈ definitions, definition.anchor.anchorClass = .fromEnd

end Catalog

/-! ### buffers without gaps -/

namespace Laid

variable {index place : Nat} {signatures : List Signature}

/-- Every place that the buffers take up belongs to one of them. -/
theorem exists_of_lt (laid : Laid index place signatures) {spot : Nat} (hfrom : place ≤ spot)
    (hto : spot < place + buffersLength signatures) :
    ∃ signature ∈ signatures, signature.arenaStart ≤ spot ∧ spot < signature.arenaStop := by
  induction signatures generalizing index place with
  | nil => simp at hto; omega
  | cons first rest ih =>
      obtain ⟨-, hplace, laid⟩ := laid
      rw [buffersLength_cons] at hto
      by_cases hfirst : spot < first.arenaStop
      · exact ⟨first, List.mem_cons_self, by omega, hfirst⟩
      · unfold Signature.arenaStop at hfirst
        obtain ⟨signature, hmem, hin⟩ := ih laid (by omega) (by omega)
        exact ⟨signature, List.mem_cons_of_mem first hmem, hin⟩

/-- Of two neighbours the second buffer begins where the first ends. -/
theorem arenaStart_next (laid : Laid index place signatures) {i : Nat} {first second : Signature}
    (hfirst : signatures[i]? = some first) (hsecond : signatures[i + 1]? = some second) :
    second.arenaStart = first.arenaStop := by
  induction signatures generalizing index place i with
  | nil => simp at hfirst
  | cons head rest ih =>
      obtain ⟨-, hplace, laid⟩ := laid
      cases i with
      | succ i => exact ih laid hfirst hsecond
      | zero =>
          obtain rfl : head = first := by simpa using hfirst
          cases rest with
          | nil => simp at hsecond
          | cons next others =>
              obtain rfl : next = second := by simpa using hsecond
              rw [laid.2.1, Signature.arenaStop, hplace]

/-- Positions are consecutive. -/
theorem map_index (laid : Laid index place signatures) :
    signatures.map (·.index) = List.range' index signatures.length := by
  induction signatures generalizing index place with
  | nil => rfl
  | cons head rest ih =>
      obtain ⟨hindex, -, laid⟩ := laid
      rw [List.map_cons, ih laid, hindex]
      rfl

end Laid

theorem buffersLength_eq_foldr (signatures : List Signature) :
    buffersLength signatures =
      (signatures.map Signature.toDefinition).foldr (·.pattern.length + ·) 0 := by
  induction signatures with
  | nil => rfl
  | cons signature rest ih => rw [buffersLength_cons, ih]; rfl

namespace Catalog

variable {catalog : Catalog}

theorem LaidOut.mem_positions_iff (laidOut : catalog.LaidOut) (anchorClass : AnchorClass)
    (index : Nat) : index ∈ catalog.positions anchorClass ↔
      ∃ signature, catalog.get? index = some signature ∧
        signature.anchor.anchorClass = anchorClass := by
  simp only [laidOut.positions_eq, List.mem_map, List.mem_filter, decide_eq_true_eq]
  constructor
  · rintro ⟨signature, ⟨hmem, hclass⟩, rfl⟩
    exact ⟨signature, laidOut.get?_index (Array.mem_toList_iff.mp hmem), hclass⟩
  · rintro ⟨signature, hget, hclass⟩
    have hmem := Array.mem_toList_iff.mpr (Array.mem_of_getElem? hget)
    exact ⟨signature, ⟨hmem, hclass⟩, laidOut.index_eq hget⟩

/-- The positions of both classes are all positions. -/
theorem LaidOut.positions_perm (laidOut : catalog.LaidOut) :
    (catalog.positions .fromStart ++ catalog.positions .fromEnd).Perm (List.range catalog.size) := by
  have hall : catalog.signatures.toList.map (·.index) = List.range catalog.size := by
    rw [laidOut.laid.map_index, Array.length_toList, List.range_eq_range', size]
  have hother : catalog.positions .fromEnd = (catalog.signatures.toList.filter
      fun signature => !decide (signature.anchor.anchorClass = .fromStart)).map (·.index) := by
    rw [laidOut.positions_eq]
    congr 1
    refine List.filter_congr fun signature _ => ?_
    cases signature.anchor.anchorClass <;> rfl
  rw [laidOut.positions_eq, hother, ← List.map_append, ← hall]
  exact (List.filter_append_perm _ _).map _

/-- A catalog that is laid out keeps what it should of its definitions. -/
theorem LaidOut.keeps (laidOut : catalog.LaidOut) : catalog.Keeps catalog.definitions where
  definitions_eq := rfl
  index_eq index signature h := laidOut.index_eq h
  arenaStart_first signature h := by
    rw [get?, ← Array.getElem?_toList] at h
    have laid := laidOut.laid
    cases hlist : catalog.signatures.toList with
    | nil => rw [hlist] at h; contradiction
    | cons first rest =>
        rw [hlist] at h laid
        obtain rfl : first = signature := by simpa using h
        exact laid.2.1
  arenaStart_next index first second hfirst hsecond := by
    rw [get?, ← Array.getElem?_toList] at hfirst hsecond
    exact laidOut.laid.arenaStart_next hfirst hsecond
  buffers_disjoint first h₁ second h₂ hne := laidOut.buffers_disjoint h₁ h₂ hne
  covered place := by
    constructor
    · intro h
      rw [laidOut.arenaLength_eq] at h
      obtain ⟨signature, hmem, hin⟩ := laidOut.laid.exists_of_lt (Nat.zero_le place) (by omega)
      exact ⟨signature, Array.mem_toList_iff.mp hmem, hin⟩
    · rintro ⟨signature, hmem, -, hstop⟩
      exact Nat.lt_of_lt_of_le hstop (laidOut.arenaStop_le hmem)
  arenaLength_eq := by rw [laidOut.arenaLength_eq, buffersLength_eq_foldr, definitions]
  positions_increasing anchorClass := by
    rw [laidOut.positions_eq]
    exact List.pairwise_map.mpr ((laidOut.laid.pairwise.imp And.left).filter _)
  mem_positions_iff := laidOut.mem_positions_iff
  positions_perm := laidOut.positions_perm
  ofClass_eq := laidOut.ofClass_eq
  needsTotal_iff := by simp [laidOut.needsTotal_iff, definitions]

/-- **A catalog holds what was accepted, and keeps its books.**  After any calls it
has the definitions that they accepted, in order.  The next call replies as its
definitions have it, and changes nothing if it accepts none.  Whatever comes after
it, all signatures stay as they are in their places, and one that was registered
on its own stands where its registration answered. -/
theorem performAll_keeps (calls : List Registration) :
    let catalog := empty.performAll calls
    catalog.Keeps (calls.flatMap Registration.accepted) ∧
      ∀ (call : Registration) (more : List Registration),
        let step := catalog.perform call
        let later := step.state.performAll more
        step.reply = call.reply catalog.size ∧
          (call.accepted = [] → step.state = catalog) ∧
          catalog.signatures.toList <+: step.state.signatures.toList ∧
          step.state.signatures.toList <+: later.signatures.toList ∧
          ∀ definition index, call.definition? = some definition → step.reply = .ok index →
            ∃ signature, later.get? index = some signature ∧ signature.index = index ∧
              signature.toDefinition = definition := by
  intro catalog
  have laidOut : catalog.LaidOut := laidOut_empty.performAll calls
  have hdefinitions : catalog.definitions = calls.flatMap Registration.accepted :=
    (empty.adds_performAll calls).definitions_eq
  refine ⟨hdefinitions ▸ laidOut.keeps, fun call more => ?_⟩
  intro step later
  have hmore : step.state.Adds _ later := step.state.adds_performAll more
  refine ⟨catalog.reply_perform call, catalog.state_perform_of_accepted_nil,
    (catalog.adds_perform call).isPrefix, hmore.isPrefix, fun definition index h hreply => ?_⟩
  obtain ⟨signature, hget, hdefinition⟩ := catalog.get?_perform h hreply
  exact ⟨signature, hmore.get?_eq hget, (laidOut.perform call).index_eq hget, hdefinition⟩

/-- Loading stops at the empty pattern of `gap`, so that `late` comes third. -/
theorem performAll_keeps_sample :
    let calls : List Registration := [.registerFromEnd "tail" 2 [3, 4], .registerFromStart "none" 0 [],
      .load [⟨"head", .fromStart 1, [1, 2, 3]⟩, ⟨"gap", .fromStart 0, []⟩, ⟨"lost", .fromEnd 1, [9]⟩]]
    let late : Registration := .register ⟨"late", .fromEnd 7, [5]⟩
    let catalog := empty.performAll calls
    catalog.Keeps [⟨"tail", .fromEnd 2, [3, 4]⟩, ⟨"head", .fromStart 1, [1, 2, 3]⟩] ∧
      (catalog.perform late).reply = .ok 2 ∧
      (∃ signature, ((catalog.perform late).state.performAll calls).get? 2 = some signature ∧
        signature.index = 2 ∧ signature.toDefinition = ⟨"late", .fromEnd 7, [5]⟩) ∧
      (Registration.registerFromStart "none" 0 []).accepted = [] ∧
      (catalog.perform (.registerFromStart "none" 0 [])).state = catalog := by
  intro calls late catalog
  obtain ⟨hkeeps, hnext⟩ := performAll_keeps calls
  obtain ⟨-, -, -, -, hstands⟩ := hnext late calls
  obtain ⟨-, hunchanged, -⟩ := hnext (.registerFromStart "none" 0 []) []
  exact ⟨hkeeps, rfl, hstands _ 2 rfl rfl, rfl, hunchanged rfl⟩

end Catalog

end AnchorScan
