import SeriesStorage.Error

/-!
# Initialization in the background

The state of an initialization is decided by what comes first, its end or the end of its time; what
comes later is ignored.
-/

namespace SeriesStorage

/-- How far an initialization has come. -/
inductive InitState
  | pending
  | succeeded
  | failed (reason : String)
  | timedOut
deriving DecidableEq, Repr, Inhabited

/-- How an initialization ends. -/
inductive InitEnd
  | returned (answer : Except Error Unit)
  | aborted (reason : String)

/-- What happens to an initialization. -/
inductive InitEvent
  | ended (how : InitEnd)
  | timeOver

/-- The state that an end leads to. -/
def InitEnd.state : InitEnd → InitState
  | .returned (.ok ()) => .succeeded
  | .returned (.error e) => .failed e.message
  | .aborted reason => .failed ("init task aborted: " ++ reason)

namespace InitState

/-- Whether the initialization is over. -/
def isDone (state : InitState) : Bool := state ≠ .pending

/-- The state after an event. -/
def after (state : InitState) (event : InitEvent) : InitState :=
  if state.isDone then state
  else
    match event with
    | .ended how => how.state
    | .timeOver => .timedOut

/-- The state after events, one after the other. -/
def afterAll (state : InitState) (events : List InitEvent) : InitState := events.foldl after state

/-! ## Lemmas -/

theorem afterAll_of_isDone {state : InitState} (h : state.isDone = true) (events : List InitEvent) :
    state.afterAll events = state := by
  induction events with
  | nil => rfl
  | cons event rest ih =>
    have step : state.after event = state := by simp [after, h]
    unfold afterAll at ih ⊢
    rw [List.foldl_cons, step, ih]

end InitState

end SeriesStorage
