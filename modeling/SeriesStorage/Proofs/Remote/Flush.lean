import SeriesStorage.Proofs.Deployment.Visits
import SeriesStorage.Proofs.Remote.Execution

/-!
# Flushes that fail

A flush forgets a request before it sends anything, and it sends one namespace after the other.  So
a flush that fails has applied the namespaces before the one that failed, has not sent those after
it, and leaves nothing to repeat (`Stopped`, `flush_stopped`).  The promise that a failed flush
changes nothing and can be repeated (`AllOrNothing`) is kept exactly by the flushes that do not fail
(`allOrNothing_iff`).
-/

namespace SeriesStorage

namespace Remote

open Server (Stage)

/-! ## Where a flush stops -/

theorem outcome_executeWrites_cons {σ : Type} [World σ] (site : Site σ) (connections : Connections)
    (ns : Namespace) (commands : List StagedCommand)
    (rest : List (Namespace × List StagedCommand)) :
    site.outcome (executeWrites connections ((ns, commands) :: rest)) =
      (site.outcome (execute connections ns commands)).andThen fun _ site =>
        site.outcome (executeWrites connections rest) :=
  Site.outcome_bind site _ _

theorem outcome_executeWrites_one {σ : Type} [World σ] (site : Site σ) (connections : Connections)
    (ns : Namespace) (commands : List StagedCommand) :
    site.outcome (executeWrites connections [(ns, commands)]) =
      site.outcome (execute connections ns commands) := by
  rw [outcome_executeWrites_cons]
  obtain ⟨answer, left⟩ := site.outcome (execute connections ns commands)
  cases answer <;> rfl

/-- Writes that fail have a first entry that fails; those before it were executed. -/
theorem executeWrites_error {σ : Type} [World σ] {connections : Connections} {site : Site σ}
    {e : Error} {entries : List (Namespace × List StagedCommand)}
    (h : (site.outcome (executeWrites connections entries)).answer = .error e) :
    ∃ before ns commands after, entries = before ++ (ns, commands) :: after ∧
      (site.outcome (executeWrites connections before)).answer = .ok () ∧
      (site.outcome (executeWrites connections before)).state.outcome
        (execute connections ns commands) =
          .fail e (site.outcome (executeWrites connections entries)).state := by
  induction entries generalizing site with
  | nil => cases h
  | cons entry rest ih =>
    obtain ⟨ns, commands⟩ := entry
    rw [outcome_executeWrites_cons] at h ⊢
    cases first : (site.outcome (execute connections ns commands)).answer with
    | error e' =>
      rw [Outcome.andThen_eq_of_error first] at h ⊢
      obtain rfl := Except.error.inj h
      exact ⟨[], ns, commands, rest, rfl, rfl, Outcome.eq_fail first⟩
    | ok u =>
      rw [Outcome.andThen_eq_of_ok first] at h ⊢
      obtain ⟨before, ns', commands', after, rfl, hbefore, hfail⟩ := ih h
      refine ⟨(ns, commands) :: before, ns', commands', after, rfl, ?_⟩
      rw [outcome_executeWrites_cons, Outcome.andThen_eq_of_ok first]
      exact ⟨hbefore, hfail⟩

/-! ## The promise -/

/-- The keys of all servers. -/
def keyspaces (stage : Stage) : List Server.Keyspace := stage.servers.map (·.keyspace)

/-- A flush that fails changes nothing: no server has changed, all that was staged is still staged,
and flushing again has something to flush, whatever has become of the servers. -/
def AllOrNothing (site : Site Stage) (req : RequestId) : Prop :=
  ∀ e, (site.outcome (flush req)).answer = .error e →
    let left := (site.outcome (flush req)).state
    keyspaces left.world = keyspaces site.world ∧
      left.client.pending.writes? req = site.client.pending.writes? req ∧
      ∀ world, ((⟨left.client, world⟩ : Site Stage).outcome (flush req)).answer ≠
        .error (.nothingToFlush req)

/-- What was staged is forgotten, and then sent. -/
theorem outcome_flush {σ : Type} [World σ] {site : Site σ} {req : RequestId}
    {writes : StagedWrites} (staged : site.client.pending.writes? req = some writes) :
    site.outcome (flush req) =
      (⟨{ site.client with pending := site.client.pending.remove req }, site.world⟩ :
        Site σ).outcome
          (connected >>= fun connections => executeWrites connections writes.entries) := by
  unfold flush
  rw [Site.outcome_bind, Site.outcome_get, Outcome.andThen_succeed, staged]
  dsimp only
  rw [Site.outcome_bind, Site.outcome_modify, Outcome.andThen_succeed]

theorem outcome_flush_unstaged {site : Site Stage} {req : RequestId}
    (unstaged : site.client.pending.writes? req = none) :
    site.outcome (flush req) = .fail (.nothingToFlush req) site := by
  unfold flush
  rw [Site.outcome_bind, Site.outcome_get, Outcome.andThen_succeed, unstaged]
  rfl

/-- After a flush nothing is staged under its request, and all else is as it was. -/
theorem client_flush {site : Site Stage} {req : RequestId} {writes : StagedWrites}
    (staged : site.client.pending.writes? req = some writes) :
    (site.outcome (flush req)).state.client =
      { site.client with pending := site.client.pending.remove req } := by
  rw [outcome_flush staged]
  exact Preserves.bind Preserves.connected (fun connections =>
    Preserves.executeWrites (E := fun _ => True)
      (fun server r _ => Preserves.client_request _ server r) connections
      fun _ _ _ _ => trivial) _ rfl

/-- What a failed flush leaves of a site, with `writes` staged under its request before. -/
structure Stopped (site left : Site Stage) (req : RequestId) (writes : StagedWrites) (e : Error) :
    Prop where
  /-- The entries before the one that failed were sent, and those after it were not; without
  connections nothing was. -/
  sent :
    let start : Site Stage := ⟨left.client, site.world⟩
    (site.client.connections = none ∧ left = start ∧ e = .unavailable .notInitialized) ∨
      ∃ connections before ns commands after,
        site.client.connections = some connections ∧
        writes.entries = before ++ (ns, commands) :: after ∧
        (start.outcome (executeWrites connections before)).answer = .ok () ∧
        (start.outcome (executeWrites connections before)).state.outcome
          (execute connections ns commands) = .fail e left
  /-- Nothing is staged under the request, and all else is as it was. -/
  forgotten : left.client = { site.client with pending := site.client.pending.remove req }
  /-- The next flush has nothing to send, whatever has become of the servers. -/
  unrepeatable : ∀ world, (⟨left.client, world⟩ : Site Stage).outcome (flush req) =
    .fail (.nothingToFlush req) ⟨left.client, world⟩

theorem flush_stopped {site : Site Stage} {req : RequestId} {writes : StagedWrites} {e : Error}
    (staged : site.client.pending.writes? req = some writes)
    (failed : (site.outcome (flush req)).answer = .error e) :
    Stopped site (site.outcome (flush req)).state req writes e where
  sent := by
    intro start
    have begun : start = ⟨{ site.client with pending := site.client.pending.remove req },
        site.world⟩ := by
      simp only [start, client_flush staged]
    rw [outcome_flush staged, ← begun, Site.outcome_bind] at failed ⊢
    have same : start.client.connections = site.client.connections := by rw [begun]
    cases found : site.client.connections with
    | none =>
      rw [found] at same
      rw [Site.outcome_connected_none same] at failed ⊢
      exact Or.inl ⟨rfl, rfl, (Except.error.inj failed).symm⟩
    | some connections =>
      rw [found] at same
      rw [Site.outcome_connected same] at failed ⊢
      obtain ⟨before, ns, commands, after, hsplit, hbefore, hfail⟩ := executeWrites_error failed
      exact Or.inr ⟨connections, before, ns, commands, after, rfl, hsplit, hbefore, hfail⟩
  forgotten := client_flush staged
  unrepeatable := by
    intro world
    apply outcome_flush_unstaged
    rw [client_flush staged]
    show (site.client.pending.remove req).writes? req = none
    rw [Pending.writes?_remove, if_pos rfl]

/-- **When a flush keeps its promise.**  It does exactly if it does not fail; if it fails, part of
the request may have been applied, and what was staged is lost. -/
theorem allOrNothing_iff (site : Site Stage) (req : RequestId) (writes : StagedWrites)
    (staged : site.client.pending.writes? req = some writes) :
    (AllOrNothing site req ↔ (site.outcome (flush req)).answer = .ok ()) ∧
      ∀ e, (site.outcome (flush req)).answer = .error e →
        Stopped site (site.outcome (flush req)).state req writes e := by
  refine ⟨⟨fun promise => ?_, fun done e failed => ?_⟩, fun e => flush_stopped staged⟩
  · cases answer : (site.outcome (flush req)).answer with
    | ok u => rfl
    | error e =>
      have again := (promise e answer).2.2 (site.outcome (flush req)).state.world
      rw [(flush_stopped staged answer).unrepeatable] at again
      exact absurd rfl again
  · rw [done] at failed
    cases failed

/-! ## A flush that stops half way -/

/-- Two namespaces on two servers. -/
def twoServers : Site Stage where
  client := .ofOptions
    { connections := [(⟨0⟩, ⟨"a", 1, "", 0, .server⟩), (⟨1⟩, ⟨"b", 1, "", 0, .server⟩)] }
  world := ⟨[.withPassword "", .withPassword ""], [⟨"a", 1, 0⟩, ⟨"b", 1, 1⟩], []⟩

/-- A series in each of the namespaces, and a point for each of them under one request. -/
def pointsForBoth : List Visit :=
  [⟨⟨0⟩, .connect⟩,
    ⟨⟨0⟩, .create (fun _ => ⟨"token", 0⟩)
      [(⟨1⟩, ⟨⟨0⟩, "load", [], none⟩), (⟨2⟩, ⟨⟨1⟩, "load", [], none⟩)]⟩,
    ⟨⟨0⟩, .write ⟨⟨0⟩, ⟨1⟩⟩ ⟨"r"⟩ (fun _ _ => .zero) [5] [.ofUInt64 3]⟩,
    ⟨⟨0⟩, .write ⟨⟨1⟩, ⟨1⟩⟩ ⟨"r"⟩ (fun _ _ => .zero) [5] [.ofUInt64 3]⟩]

/-- The points are staged, and the second server will refuse the next transaction. -/
def halfRefused : Site Stage :=
  let site := (twoServers.visits pointsForBoth).2
  { site with world := site.world.update 1 fun r => { r with faults := [⟨"EXEC", 0, "ERR"⟩] } }

/-- What waits for the flush: a point of each namespace. -/
def halfRefusedWrites : StagedWrites :=
  ⟨[(⟨0⟩, [.checked (.addPoints "data_0-1-0" [(.ofUInt64 5, "3:5.000000")]) 1]),
    (⟨1⟩, [.checked (.addPoints "data_1-1-0" [(.ofUInt64 5, "3:5.000000")]) 1])]⟩

theorem halfRefused_isOk : (halfRefused.outcome (flush ⟨"r"⟩)).answer.isOk = false := by
  decide +kernel

theorem halfRefused_keyspaces :
    keyspaces (halfRefused.outcome (flush ⟨"r"⟩)).state.world ≠ keyspaces halfRefused.world := by
  decide +kernel

/-- The first server has its point, and the flush has failed. -/
theorem not_allOrNothing_halfRefused : ¬ AllOrNothing halfRefused ⟨"r"⟩ := by
  intro promise
  have failed := halfRefused_isOk
  cases answer : (halfRefused.outcome (flush ⟨"r"⟩)).answer with
  | ok u =>
    rw [answer] at failed
    cases failed
  | error e => exact halfRefused_keyspaces (promise e answer).1

theorem allOrNothing_iff_halfRefused :
    AllOrNothing halfRefused ⟨"r"⟩ ↔ (halfRefused.outcome (flush ⟨"r"⟩)).answer = .ok () :=
  (allOrNothing_iff halfRefused ⟨"r"⟩ halfRefusedWrites (by decide +kernel)).1

end Remote

end SeriesStorage
