import SeriesStorage.Proofs.Remote.Site

/-!
# What tasks send

The log of a stage only grows, so what a task sends is what it adds to the log (`Site.sent`), and a
task that goes on with another sends what the one sends and then what the other sends.

    site.sent (task >>= f) = site.sent task ++ …                                  (sent_bind)

* `Preserves.request_sending`: an invariant about the commands sent so far.
-/

namespace SeriesStorage

namespace Server

/-! ## Commands in the log -/

/-- The command that an entry of the log is about. -/
def LogEntry.command? : LogEntry → Option Command
  | .command c _ => some c
  | _ => none

/-- The commands that reached servers, each with the number of its server. -/
def commandsIn (log : List (Nat × LogEntry)) : List (Nat × Command) :=
  log.filterMap fun (server, entry) => entry.command?.map (server, ·)

@[simp] theorem commandsIn_nil : commandsIn [] = [] := rfl

@[simp] theorem commandsIn_append (log more : List (Nat × LogEntry)) :
    commandsIn (log ++ more) = commandsIn log ++ commandsIn more := List.filterMap_append

theorem commandsIn_zip (server : Nat) (commands : List Command)
    (replies : List (Except String Reply)) :
    commandsIn (((commands.zip replies).map fun (command, reply) =>
      LogEntry.command command reply).map (server, ·)) =
        (commands.take replies.length).map (server, ·) := by
  induction commands generalizing replies with
  | nil => simp
  | cons command rest ih =>
    cases replies with
    | nil => rfl
    | cons reply replies =>
      simp only [List.zip_cons_cons, List.length_cons, List.take_succ_cons]
      rw [List.map_cons (f := fun c => (server, c)), ← ih replies]
      rfl

/-- The log has as many commands of a request as it has replies. -/
theorem commandsIn_logged (server : Nat) (request : Request) (replies : List (Except String Reply)) :
    commandsIn ((logged request replies).map (server, ·)) =
      (request.commands.take replies.length).map (server, ·) := by
  rw [← commandsIn_zip]
  cases request with
  | transaction commands =>
    let entries := (commands.zip replies).map fun (command, reply) => LogEntry.command command reply
    show commandsIn ((LogEntry.begin :: entries ++ [LogEntry.commit]).map (server, ·)) = _
    rw [List.map_append, commandsIn_append]
    exact List.append_nil _
  | _ => rfl

/-- What one request adds to the log: some of its commands, and all of them unless it fails. -/
theorem Stage.serve_log (stage : Stage) (server : Nat) (request : Request) :
    ∃ entries, (stage.serve server request).2.log = stage.log ++ entries ∧
      (∃ n, commandsIn entries = (request.commands.take n).map (server, ·)) ∧
      ∀ replies, (stage.serve server request).1 = .ok replies →
        commandsIn entries = request.commands.map (server, ·) := by
  unfold Stage.serve
  cases stage.servers[server]? with
  | none =>
    refine ⟨[], (List.append_nil _).symm, ⟨0, rfl⟩, fun replies h => ?_⟩
    cases h
  | some r =>
    dsimp only
    refine ⟨_, rfl, ⟨_, commandsIn_logged _ _ _⟩, fun replies h => ?_⟩
    rw [commandsIn_logged]
    -- only a transaction that is refused as a whole has fewer replies than commands
    have all : ∀ replies, (r.execRequest request).1 = .ok replies →
        replies.length = request.commands.length := by
      intro replies h
      unfold Rehearsal.execRequest at h
      split at h
      · split at h
        · cases h
        · obtain rfl := Except.ok.inj h
          exact length_execAll _ _ _
      · obtain rfl := Except.ok.inj h
        exact length_execAll _ _ _
    cases outcome : (r.execRequest request).1 with
    | error fault =>
      rw [outcome] at h
      cases h
    | ok found =>
      show (request.commands.take found.length).map _ = _
      rw [all found outcome, List.take_length]

end Server

namespace Remote

open Server (Command LogEntry Reply Request Stage commandsIn)

/-! ## What is added to the log -/

/-- A session only adds to the log. -/
theorem Session.log_run {α : Type} (session : Session α) (stage : Stage) :
    ∃ entries, (session.run World.host stage).2.log = stage.log ++ entries := by
  induction session generalizing stage with
  | done a => exact ⟨[], (List.append_nil _).symm⟩
  | dial address port next ih => exact ih (stage.dial address port) stage
  | send server request next ih =>
    obtain ⟨first, hfirst, _⟩ := stage.serve_log server request
    obtain ⟨rest, hrest⟩ := ih (stage.serve server request).1 (stage.serve server request).2
    refine ⟨first ++ rest, ?_⟩
    rw [← List.append_assoc, ← hfirst]
    exact hrest

namespace Site

variable {α β : Type} {site : Site Stage}

/-- What a task sends: the entries that it adds to the log. -/
def sent (site : Site Stage) (task : Task α) : List (Nat × LogEntry) :=
  (site.outcome task).state.world.log.drop site.world.log.length

theorem log_outcome (site : Site Stage) (task : Task α) :
    (site.outcome task).state.world.log = site.world.log ++ site.sent task := by
  obtain ⟨entries, h⟩ := (task.session site.client).log_run site.world
  have grown : (site.outcome task).state.world.log = site.world.log ++ entries := h
  rw [sent, grown, List.drop_left]

theorem sent_eq {task : Task α} {entries : List (Nat × LogEntry)}
    (h : (site.outcome task).state.world.log = site.world.log ++ entries) :
    site.sent task = entries := by
  rw [sent, h, List.drop_left]

/-- A task that leaves the world alone sends nothing. -/
theorem sent_eq_nil {task : Task α} (h : (site.outcome task).state.world = site.world) :
    site.sent task = [] := by
  rw [sent, h, List.drop_length]

theorem sent_bind_ok {task : Task α} {a : α} (h : (site.outcome task).answer = .ok a)
    (f : α → Task β) :
    site.sent (task >>= f) = site.sent task ++ (site.outcome task).state.sent (f a) := by
  apply sent_eq
  rw [outcome_bind, Outcome.andThen_eq_of_ok h, log_outcome, log_outcome, List.append_assoc]

theorem sent_bind_error {task : Task α} {e : Error} (h : (site.outcome task).answer = .error e)
    (f : α → Task β) : site.sent (task >>= f) = site.sent task := by
  apply sent_eq
  rw [outcome_bind, Outcome.andThen_eq_of_error h]
  exact log_outcome site task

end Site

/-! ## Invariants about what is sent -/

/-- All commands that were sent behind a log are of some kind. -/
def SentOnly (P : Command → Prop) (log : List (Nat × LogEntry)) (site : Site Stage) : Prop :=
  ∃ entries, site.world.log = log ++ entries ∧ ∀ c ∈ commandsIn entries, P c.2

theorem sentOnly_start (P : Command → Prop) (site : Site Stage) :
    SentOnly P site.world.log site :=
  ⟨[], (List.append_nil _).symm, fun _ h => by cases h⟩

theorem SentOnly.sent {P : Command → Prop} {α : Type} {site : Site Stage} {task : Task α}
    (h : SentOnly P site.world.log (site.outcome task).state) :
    ∀ c ∈ commandsIn (site.sent task), P c.2 := by
  obtain ⟨entries, grown, all⟩ := h
  rwa [Site.sent_eq grown]

namespace Preserves

variable {P : Command → Prop} {log : List (Nat × LogEntry)}

/-- A request with commands of the kind. -/
theorem request_sending (server : Nat) (r : Request) (h : ∀ command ∈ r.commands, P command) :
    Preserves (SentOnly P log) (request server r) := by
  rintro site ⟨entries, grown, all⟩
  rw [Site.outcome_request]
  obtain ⟨more, hmore, ⟨n, commands⟩, _⟩ := site.world.serve_log server r
  refine ⟨entries ++ more, ?_, fun c hc => ?_⟩
  · rw [← List.append_assoc, ← grown]
    exact hmore
  · rw [Server.commandsIn_append, commands] at hc
    rcases List.mem_append.mp hc with old | new
    · exact all c old
    · obtain ⟨command, taken, rfl⟩ := List.mem_map.mp new
      exact h command (List.mem_of_mem_take taken)

end Preserves

end Remote

end SeriesStorage
