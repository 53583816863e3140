import SeriesStorage.Deployment

/-!
# Sites

A site is a client with the world of servers that it talks to, and a task on a site has an outcome
like a call on a store.  Tasks are built with `do`; these lemmas take their outcomes apart the same
way, so that nothing later looks at sessions.

    site.outcome (task >>= f) = (site.outcome task).andThen …           (outcome_bind)
-/

namespace SeriesStorage

namespace Outcome

variable {σ α β γ : Type}

@[simp] theorem answer_map (f : α → β) (outcome : Outcome σ α) :
    (outcome.map f).answer = outcome.answer.map f := rfl

@[simp] theorem state_map (f : α → β) (outcome : Outcome σ α) :
    (outcome.map f).state = outcome.state := rfl

@[simp] theorem map_succeed (f : α → β) (a : α) (state : σ) :
    (succeed a state).map f = succeed (f a) state := rfl

@[simp] theorem map_fail (f : α → β) (e : Error) (state : σ) :
    (fail e state : Outcome σ α).map f = fail e state := rfl

theorem map_eq_andThen (f : α → β) (outcome : Outcome σ α) :
    outcome.map f = outcome.andThen fun a state => succeed (f a) state := by
  obtain ⟨answer, state⟩ := outcome
  cases answer <;> rfl

theorem eq_succeed {outcome : Outcome σ α} {a : α} (h : outcome.answer = .ok a) :
    outcome = succeed a outcome.state := by
  obtain ⟨answer, state⟩ := outcome
  obtain rfl : answer = .ok a := h
  rfl

theorem eq_fail {outcome : Outcome σ α} {e : Error} (h : outcome.answer = .error e) :
    outcome = fail e outcome.state := by
  obtain ⟨answer, state⟩ := outcome
  obtain rfl : answer = .error e := h
  rfl

theorem andThen_eq_of_ok {first : Outcome σ α} {next : α → σ → Outcome σ β} {a : α}
    (h : first.answer = .ok a) : first.andThen next = next a first.state := by
  unfold andThen
  rw [h]

theorem andThen_eq_of_error {first : Outcome σ α} {next : α → σ → Outcome σ β} {e : Error}
    (h : first.answer = .error e) : first.andThen next = .fail e first.state := by
  unfold andThen
  rw [h]
  rfl

/-- The state of an outcome, seen in another way. -/
def mapState {τ : Type} (f : σ → τ) (outcome : Outcome σ α) : Outcome τ α :=
  ⟨outcome.answer, f outcome.state⟩

theorem mapState_andThen {τ : Type} {f : σ → τ} {next : α → σ → Outcome σ β}
    {next' : α → τ → Outcome τ β} (h : ∀ a s, next' a (f s) = (next a s).mapState f)
    (first : Outcome σ α) :
    (first.mapState f).andThen next' = (first.andThen next).mapState f := by
  obtain ⟨answer, state⟩ := first
  cases answer with
  | ok a => exact h a state
  | error e => rfl

theorem map_andThen (f : α → β) (first : Outcome σ γ) (next : γ → σ → Outcome σ α) :
    (first.andThen next).map f = first.andThen fun c s => (next c s).map f := by
  obtain ⟨answer, state⟩ := first
  cases answer <;> rfl

end Outcome

namespace Remote

open Server (Reply Request Stage)

/-- Worlds that host sessions. -/
class World (σ : Type) where
  host : Host σ

instance : World Stage := ⟨Deployment.host⟩

/-- A client and the world of servers that it talks to. -/
structure Site (σ : Type) where
  client : Client
  world : σ

namespace Site

variable {σ α β : Type} [World σ]

/-- What a task answers and leaves behind. -/
def outcome (site : Site σ) (task : Task α) : Outcome (Site σ) α :=
  let ((answer, client), world) := task.play World.host site.client site.world
  ⟨answer, ⟨client, world⟩⟩

/-- What a request is answered, and the world after it. -/
def served (site : Site σ) (server : Nat) (r : Request) : Except Fault (List Reply) × σ :=
  World.host.serve server r site.world

/-! ## How tasks are built -/

@[simp] theorem outcome_pure (site : Site σ) (a : α) :
    site.outcome (pure a : Task α) = .succeed a site := rfl

@[simp] theorem outcome_throw (site : Site σ) (e : Error) :
    site.outcome (throw e : Task α) = .fail e site := rfl

@[simp] theorem outcome_get (site : Site σ) :
    site.outcome (get : Task Client) = .succeed site.client site := rfl

@[simp] theorem outcome_modify (site : Site σ) (f : Client → Client) :
    site.outcome (modify f : Task Unit) = .succeed () { site with client := f site.client } := rfl

theorem outcome_bind (site : Site σ) (task : Task α) (f : α → Task β) :
    site.outcome (task >>= f) = (site.outcome task).andThen fun a site => site.outcome (f a) := by
  obtain ⟨client, world⟩ := site
  simp only [outcome, Task.play, Task.session, ExceptT.run_bind, StateT.run_bind,
    Session.bind_eq, Session.run_bind, Outcome.andThen]
  obtain ⟨⟨answer, client'⟩, world'⟩ := ((task.run).run client).run World.host world
  cases answer <;> rfl

@[simp] theorem outcome_map (site : Site σ) (task : Task α) (f : α → β) :
    site.outcome (f <$> task) = (site.outcome task).map f := by
  rw [← bind_pure_comp, outcome_bind, Outcome.map_eq_andThen]
  rfl

@[simp] theorem outcome_attempt (site : Site σ) (task : Task α) :
    site.outcome task.attempt = .succeed (site.outcome task).answer (site.outcome task).state := by
  obtain ⟨client, world⟩ := site
  simp only [outcome, Task.play, Task.session, Task.attempt, ExceptT.run_mk, StateT.run_bind,
    Session.bind_eq, Session.run_bind]
  rfl

@[simp] theorem outcome_ofExcept (site : Site σ) (result : Except Error α) :
    site.outcome (Task.ofExcept result) = .answered result site := by
  cases result <;> rfl

@[simp] theorem outcome_orFault (site : Site σ) (result : Except Fault α) :
    site.outcome (orFault result) = .answered (result.mapError .redis) site := by
  cases result <;> rfl

@[simp] theorem outcome_request (site : Site σ) (server : Nat) (r : Request) :
    site.outcome (request server r) =
      .succeed (site.served server r).1 { site with world := (site.served server r).2 } := rfl

/-! ## Connections -/

theorem outcome_connected {site : Site σ} {connections : Connections}
    (h : site.client.connections = some connections) :
    site.outcome connected = .succeed connections site := by
  unfold connected
  rw [outcome_bind, outcome_get, Outcome.andThen_succeed, h]
  rfl

theorem outcome_connected_none {site : Site σ} (h : site.client.connections = none) :
    site.outcome connected = .fail (.unavailable .notInitialized) site := by
  unfold connected
  rw [outcome_bind, outcome_get, Outcome.andThen_succeed, h]
  rfl

end Site

/-! ## What tasks preserve -/

/-- What holds of a site holds after a task, also if the task fails. -/
def Preserves {σ α : Type} [World σ] (I : Site σ → Prop) (task : Task α) : Prop :=
  ∀ site, I site → I (site.outcome task).state

namespace Preserves

variable {σ α β : Type} [World σ] {I : Site σ → Prop}

theorem pure (a : α) : Preserves I (Pure.pure a : Task α) := fun _ h => h

theorem throw (e : Error) : Preserves I (MonadExcept.throw e : Task α) := fun _ h => h

theorem get : Preserves I (MonadState.get : Task Client) := fun _ h => h

theorem ofExcept (result : Except Error α) : Preserves I (Task.ofExcept result) := by
  intro site h
  rwa [Site.outcome_ofExcept]

theorem orFault (result : Except Fault α) : Preserves I (Remote.orFault result) := by
  intro site h
  rwa [Site.outcome_orFault]

theorem bind {task : Task α} {f : α → Task β} (h : Preserves I task)
    (hf : ∀ a, Preserves I (f a)) : Preserves I (task >>= f) := by
  intro site hsite
  rw [Site.outcome_bind]
  cases ha : (site.outcome task).answer with
  | ok a =>
    rw [Outcome.andThen_eq_of_ok ha]
    exact hf a _ (h site hsite)
  | error e =>
    rw [Outcome.andThen_eq_of_error ha]
    exact h site hsite

/-- What follows a result that was computed, if it is no error. -/
theorem ofExcept_bind {result : Except Error α} {f : α → Task β}
    (h : ∀ a, result = .ok a → Preserves I (f a)) : Preserves I (Task.ofExcept result >>= f) := by
  intro site hsite
  rw [Site.outcome_bind, Site.outcome_ofExcept]
  cases result with
  | ok a => exact h a rfl site hsite
  | error e => exact hsite

/-- A step that is taken on a condition only, before the rest. -/
theorem ite_bind {p : Prop} [Decidable p] {step : Task α} {next : α → Task β} {rest : Task β}
    (hstep : Preserves I step) (hnext : Preserves I rest → ∀ a, Preserves I (next a))
    (hrest : Preserves I rest) : Preserves I (if p then step >>= next else rest) := by
  split
  · exact bind hstep (hnext hrest)
  · exact hrest

theorem map {task : Task α} (h : Preserves I task) (f : α → β) : Preserves I (f <$> task) := by
  intro site hsite
  rw [Site.outcome_map]
  exact h site hsite

theorem attempt {task : Task α} (h : Preserves I task) : Preserves I task.attempt := by
  intro site hsite
  rw [Site.outcome_attempt]
  exact h site hsite

theorem connected : Preserves I connected := by
  refine bind get fun client => ?_
  split
  · exact pure _
  · exact throw _

/-- What is asked preserves whatever the request does. -/
theorem ask (connections : Connections) (ns : Namespace) (command : Server.Command)
    (read : Reply → Except Fault α)
    (h : ∀ server, Preserves I (request server (.single command))) :
    Preserves I (ask connections ns command read) :=
  bind (ofExcept _) fun _ => bind (h _) fun _ => bind (orFault _) fun _ => orFault _

end Preserves

end Remote

end SeriesStorage
