import AnchorScan.Event

/-!
# AnchorScan.Step

A call on a value that changes: its reply, the value afterwards and the events
it reported.  The value is there after a refused call too, so what a refusal
leaves behind is part of every call's result.  `Step.andThen` runs a second
call on what the first left, unless the first was refused.
-/

namespace AnchorScan

/-- The result of a call on a value of type `σ` that answers with an `α`. -/
structure Step (σ α : Type) where
  reply : Except Failure α
  state : σ
  log : List Event

namespace Step

/-- The call answers and reports `log`. -/
def ok {σ α : Type} (answer : α) (state : σ) (log : List Event) : Step σ α :=
  ⟨.ok answer, state, log⟩

/-- The call is refused and reports nothing. -/
def refused {σ α : Type} (failure : Failure) (state : σ) : Step σ α := ⟨.error failure, state, []⟩

/-- The call with events that came before. -/
def after {σ α : Type} (log : List Event) (step : Step σ α) : Step σ α :=
  { step with log := log ++ step.log }

/-- Goes on with `next` where the call answered. -/
def andThen {σ α β : Type} : Step σ α → (α → σ → Step σ β) → Step σ β
  | ⟨.error failure, state, log⟩, _ => ⟨.error failure, state, log⟩
  | ⟨.ok answer, state, log⟩, next => (next answer state).after log

/-! ## views of combined calls -/

section

variable {σ α β : Type}

@[simp] theorem reply_ok (answer : α) (state : σ) (log : List Event) :
    (ok answer state log).reply = .ok answer := rfl

@[simp] theorem state_ok (answer : α) (state : σ) (log : List Event) :
    (ok answer state log).state = state := rfl

@[simp] theorem reply_refused (failure : Failure) (state : σ) :
    (refused failure state : Step σ α).reply = .error failure := rfl

@[simp] theorem state_refused (failure : Failure) (state : σ) :
    (refused failure state : Step σ α).state = state := rfl

@[simp] theorem reply_after (log : List Event) (step : Step σ α) :
    (step.after log).reply = step.reply := rfl

@[simp] theorem state_after (log : List Event) (step : Step σ α) :
    (step.after log).state = step.state := rfl

/-- A call that answered is its answer with the value and the events after it. -/
theorem eq_ok {step : Step σ α} {answer : α} (h : step.reply = .ok answer) :
    step = ok answer step.state step.log := by
  obtain ⟨reply, state, log⟩ := step
  cases h
  rfl

/-- After a call that answered, the second call decides the reply. -/
theorem reply_andThen {step : Step σ α} {answer : α} (h : step.reply = .ok answer)
    (next : α → σ → Step σ β) : (step.andThen next).reply = (next answer step.state).reply := by
  obtain ⟨reply, state, log⟩ := step
  cases h
  rfl

/-- After a call that answered, the second call decides the value. -/
theorem state_andThen {step : Step σ α} {answer : α} (h : step.reply = .ok answer)
    (next : α → σ → Step σ β) : (step.andThen next).state = (next answer step.state).state := by
  obtain ⟨reply, state, log⟩ := step
  cases h
  rfl

/-- A call that was refused decides the reply. -/
theorem reply_andThen_of_error {step : Step σ α} {failure : Failure} (h : step.reply = .error failure)
    (next : α → σ → Step σ β) : (step.andThen next).reply = .error failure := by
  obtain ⟨reply, state, log⟩ := step
  cases h
  rfl

/-- What both calls keep holds of the value after both, refused or not. -/
theorem andThen_keeps {kept : σ → Prop} {step : Step σ α} {next : α → σ → Step σ β}
    (first : kept step.state) (second : ∀ answer, kept (next answer step.state).state) :
    kept (step.andThen next).state := by
  obtain ⟨reply, state, log⟩ := step
  cases reply with
  | error failure => exact first
  | ok answer => exact second answer

end

end Step

end AnchorScan
