import AnchorScan.Proofs.Registration

/-!
# AnchorScan.Proofs.RefusedLoading

What a refused call leaves of a catalog.  A definition that is refused on its own
changes nothing.  A load that is refused stops at the first definition without a
pattern, and has registered those before it by then: it leaves what loading just
these leaves, and the catalog as it was only if there are none.

* `Catalog.registerAll_refused`: registering stops where a definition is refused;
* `Catalog.perform_refused`: what any refused call leaves;
* `Catalog.load_refused_changes`: a load that is refused and leaves a signature.
-/

namespace AnchorScan

namespace Catalog

variable {catalog later : Catalog} {definitions : List Definition}

/-- A catalog that nothing was added to is the same only if nothing was to be added. -/
theorem Adds.eq_nil (adds : catalog.Adds definitions later) (same : later = catalog) :
    definitions = [] := by
  obtain ⟨added, hlater, rfl⟩ := adds
  rw [same, List.self_eq_append_right] at hlater
  rw [hlater, List.map_nil]

/-- Registering stops at the first definition that is refused, with those before
it registered. -/
theorem registerAll_refused (catalog : Catalog) {before : List Definition}
    (accepted : ∀ definition ∈ before, definition.pattern ≠ []) {refused : Definition}
    (empty : refused.pattern = []) (after : List Definition) :
    (catalog.registerAll (before ++ refused :: after)).reply = .error refused.refusal ∧
      (catalog.registerAll (before ++ refused :: after)).state = (catalog.registerAll before).state := by
  induction before generalizing catalog with
  | nil =>
      have hstops : catalog.registerAll (refused :: after) =
          Step.refused refused.refusal catalog := by
        rw [registerAll, register_of_nil catalog empty]
        rfl
      rw [List.nil_append, hstops]
      exact ⟨rfl, rfl⟩
  | cons definition rest ih =>
      obtain ⟨hdefinition, hrest⟩ := List.forall_mem_cons.mp accepted
      obtain ⟨hreply, -⟩ := catalog.register_of_ne_nil hdefinition
      rw [List.cons_append, registerAll, registerAll, Step.reply_andThen hreply,
        Step.state_andThen hreply, Step.state_andThen hreply]
      exact ih _ hrest

/-- A refused call offers a definition without a pattern, behind others that have
theirs. -/
theorem exists_refused {call : Registration} {failure : Failure}
    (h : (catalog.perform call).reply = .error failure) :
    ∃ before refused after, call.offered = before ++ refused :: after ∧
      (∀ definition ∈ before, definition.pattern ≠ []) ∧ refused.pattern = [] ∧
      failure = refused.refusal := by
  rw [reply_perform, Registration.reply] at h
  cases hfind : call.offered.find? (·.pattern = []) with
  | none =>
      rw [hfind] at h
      cases h
  | some refused =>
      rw [hfind] at h
      obtain ⟨hrefused, before, after, hoffered, hbefore⟩ := List.find?_eq_some_iff_append.mp hfind
      exact ⟨before, refused, after, hoffered, by simpa using hbefore, by simpa using hrefused,
        (Except.error.inj h).symm⟩

/-- A call that offers a single definition offers none before the refused one. -/
theorem eq_refused_of_single {call : Registration} {before after : List Definition}
    {definition refused : Definition} (single : call.offered = [definition])
    (offered : call.offered = before ++ refused :: after) : before = [] ∧ definition = refused := by
  rw [single] at offered
  cases before with
  | nil => exact ⟨rfl, (List.cons.inj offered).1⟩
  | cons first rest => simp at offered

/-- A refused call leaves what loading the definitions before the refused one
leaves. -/
theorem state_perform_refused (catalog : Catalog) {call : Registration}
    {before after : List Definition} {refused : Definition}
    (offered : call.offered = before ++ refused :: after)
    (accepted : ∀ definition ∈ before, definition.pattern ≠ []) (empty : refused.pattern = []) :
    (catalog.perform call).state = (catalog.load before).state := by
  rcases perform_cases call with ⟨definition, -, hsingle, -, hperform⟩ | ⟨definitions, rfl⟩
  · obtain ⟨rfl, rfl⟩ := eq_refused_of_single hsingle offered
    rw [hperform, register_of_nil catalog empty]
    rfl
  · obtain rfl : definitions = before ++ refused :: after := offered
    rw [perform, state_load, state_load]
    exact (catalog.registerAll_refused accepted empty after).2

/-- **What a refused call leaves.**  It stops at the first definition without a
pattern that it offers, and tells which.  The catalog is left as loading those
before it leaves it, with each of them added; so it is as it was just when there
are none, as it is for every call that registers a single definition. -/
theorem perform_refused (catalog : Catalog) (call : Registration) {failure : Failure}
    (h : (catalog.perform call).reply = .error failure) :
    (call.definition? ≠ none → (catalog.perform call).state = catalog) ∧
      ∃ before refused after, call.offered = before ++ refused :: after ∧
        (∀ definition ∈ before, definition.pattern ≠ []) ∧ refused.pattern = [] ∧
        failure = refused.refusal ∧
        (catalog.load before).reply = .ok before.length ∧
        (catalog.perform call).state = (catalog.load before).state ∧
        catalog.Adds before (catalog.perform call).state ∧
        ((catalog.perform call).state = catalog ↔ before = []) := by
  obtain ⟨before, refused, after, hoffered, hbefore, hrefused, hfailure⟩ := exists_refused h
  have hstate := catalog.state_perform_refused hoffered hbefore hrefused
  have hadds : catalog.Adds before (catalog.perform call).state := by
    have haccepted : call.accepted = before := by
      rw [Registration.accepted, hoffered, List.takeWhile_append_of_pos (by simpa using hbefore),
        List.takeWhile_cons_of_neg (by simpa using hrefused), List.append_nil]
    exact haccepted ▸ catalog.adds_perform call
  have hsame : (catalog.perform call).state = catalog ↔ before = [] :=
    ⟨hadds.eq_nil, fun hnone => by rw [hstate, hnone]; rfl⟩
  refine ⟨fun hsingle => hsame.mpr ?_, before, refused, after, hoffered, hbefore, hrefused,
    hfailure, (catalog.load_of_ne_nil hbefore).1, hstate, hadds, hsame⟩
  rcases perform_cases call with ⟨definition, -, hone, -⟩ | ⟨definitions, rfl⟩
  · exact (eq_refused_of_single hone hoffered).1
  · exact absurd rfl hsingle

/-- A refused load keeps what came before, a refused registration nothing. -/
theorem perform_refused_sample :
    let call : Registration :=
      .load [⟨"kept", .fromEnd 4, [1, 2]⟩, ⟨"gap", .fromStart 0, []⟩, ⟨"late", .fromStart 0, [3]⟩]
    (∃ before refused after, call.offered = before ++ refused :: after ∧ refused.pattern = [] ∧
        (empty.perform call).state = (empty.load before).state ∧ before ≠ []) ∧
      (empty.perform (.registerFromEnd "none" 4 [])).state = empty := by
  intro call
  obtain ⟨-, before, refused, after, hoffered, -, hempty, -, -, hstate, -, hsame⟩ :=
    perform_refused empty call rfl
  have hchanged : (empty.perform call).state ≠ empty := fun same =>
    absurd (congrArg size same) (by decide)
  exact ⟨⟨before, refused, after, hoffered, hempty, hstate, fun hnone => hchanged (hsame.mpr hnone)⟩,
    (perform_refused empty (.registerFromEnd "none" 4 []) rfl).1 (by simp [Registration.definition?])⟩

/-- **A load that is refused may leave a catalog changed.**  It has then a signature
more, and wants to know the size of every stream. -/
theorem load_refused_changes :
    let step := empty.load [⟨"kept", .fromEnd 4, [1, 2]⟩, ⟨"gap", .fromStart 0, []⟩]
    step.reply = .error (.unusablePattern "Signature 'gap' has an empty pattern") ∧
      step.state ≠ empty ∧ step.state.size = 1 ∧ step.state.positions .fromEnd = [0] ∧
      step.state.arenaLength = 2 ∧ step.state.needsTotal = true := by
  refine ⟨rfl, fun same => ?_, rfl, rfl, rfl, rfl⟩
  exact absurd (congrArg size same) (by decide)

end Catalog

end AnchorScan
