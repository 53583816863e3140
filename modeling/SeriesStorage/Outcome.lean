import SeriesStorage.Error

/-!
# Outcomes

What a call leaves behind: its answer, and the state after it.  A failed call may have changed the
state as well.

`answer_andThen_eq_ok_iff` says when two calls in a row succeed.
-/

namespace SeriesStorage

/-- The answer of a call together with the state after it. -/
structure Outcome (σ α : Type) where
  answer : Except Error α
  state : σ

namespace Outcome

variable {σ α β : Type}

/-- A call that answers without changing anything. -/
def answered (answer : Except Error α) (state : σ) : Outcome σ α := ⟨answer, state⟩

def succeed (a : α) (state : σ) : Outcome σ α := ⟨.ok a, state⟩

def fail (e : Error) (state : σ) : Outcome σ α := ⟨.error e, state⟩

/-- Goes on after a successful call. -/
def andThen (first : Outcome σ α) (next : α → σ → Outcome σ β) : Outcome σ β :=
  match first.answer with
  | .ok a => next a first.state
  | .error e => ⟨.error e, first.state⟩

/-! ## Lemmas -/

@[simp] theorem answer_answered (answer : Except Error α) (state : σ) :
    (answered answer state).answer = answer := rfl

@[simp] theorem state_answered (answer : Except Error α) (state : σ) :
    (answered answer state).state = state := rfl

@[simp] theorem answer_succeed (a : α) (state : σ) : (succeed a state).answer = .ok a := rfl

@[simp] theorem state_succeed (a : α) (state : σ) : (succeed a state).state = state := rfl

@[simp] theorem answer_fail (e : Error) (state : σ) :
    (fail e state : Outcome σ α).answer = .error e := rfl

@[simp] theorem state_fail (e : Error) (state : σ) :
    (fail e state : Outcome σ α).state = state := rfl

@[simp] theorem andThen_succeed (a : α) (state : σ) (next : α → σ → Outcome σ β) :
    (succeed a state).andThen next = next a state := rfl

@[simp] theorem andThen_fail (e : Error) (state : σ) (next : α → σ → Outcome σ β) :
    (fail e state : Outcome σ α).andThen next = fail e state := rfl

/-- Two calls in a row succeed if each of them does, the second in the state after the first. -/
theorem answer_andThen_eq_ok_iff {first : Outcome σ α} {next : α → σ → Outcome σ β} {b : β} :
    (first.andThen next).answer = .ok b ↔
      ∃ a, first.answer = .ok a ∧ (next a first.state).answer = .ok b := by
  obtain ⟨answer, state⟩ := first
  cases answer <;> simp [andThen]

end Outcome

end SeriesStorage
