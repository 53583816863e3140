import SeriesStorage.Proofs.Remote.Execution

/-!
# Connecting

Connecting dials servers, sends commands that name no key, and keeps the connections in the client,
so it preserves what these preserve (`Preserves.connect`).  When it succeeds there is a connection
for every namespace of the options, and its server is there (`connect_opened`).
-/

namespace SeriesStorage

namespace Remote

open Server (Command Network Node Request)

namespace Preserves

section Connecting

variable {σ : Type} [World σ] {I : Site σ → Prop}
  (dialled : ∀ address port, Preserves I (Task.ofSession (.dial address port .done)))
  (asked : ∀ server (r : Request), (∀ command ∈ r.commands, ∀ key, ¬ command.Changes key) →
    Preserves I (request server r))

include asked in
theorem pingAll (connections : Connections) : Preserves I (Remote.pingAll connections) := by
  induction connections with
  | nil => exact pure _
  | cons entry rest ih =>
    refine bind (asked _ _ (List.forall_mem_singleton.mpr fun _ => id)) fun answer => ?_
    cases answer with
    | error fault => exact throw _
    | ok replies => exact ih

include dialled asked

theorem openConnection (options : Options) (details : ConnectionDetails) :
    Preserves I (Remote.openConnection options details) := by
  unfold Remote.openConnection
  split
  · exact pure _
  · refine bind (dialled _ _) fun reached => ?_
    cases reached with
    | error fault => exact pure _
    | ok server =>
      have single : ∀ command : Command, (∀ key, ¬ command.Changes key) →
          Preserves I (request server (.single command)) := fun command keyless =>
        asked server _ (List.forall_mem_singleton.mpr keyless)
      refine ite_bind (single _ fun _ => id) (fun selected answer => ?_) ?_
      · cases answer with
        | error fault => exact pure _
        | ok replies => exact selected
      · refine ite_bind (single _ fun _ => id) (fun timed answer => ?_) ?_
        · cases answer with
          | error fault => exact pure _
          | ok replies => exact timed
        · dsimp only
          split <;> exact pure _

theorem openConnections (options : Options) (entries : List (Namespace × ConnectionDetails)) :
    Preserves I (Remote.openConnections options entries) := by
  induction entries with
  | nil => exact pure _
  | cons entry rest ih =>
    refine ite_bind (throw _) (fun opened _ => opened) ?_
    refine bind (openConnection dialled asked options entry.2) fun answer => ?_
    cases answer with
    | error fault => exact throw _
    | ok connection => exact bind ih fun _ => pure _

/-- Connecting preserves what dialling and keyless commands preserve, and what does not depend on
the connections that the client keeps. -/
theorem connect
    (kept : ∀ connections, Preserves I
      (modify fun client => { client with connections := some connections } : Task Unit)) :
    Preserves I connect := by
  have opened : Preserves I openOnce := by
    refine bind get fun client => ?_
    cases client.connections with
    | some connections => exact pure _
    | none =>
      exact bind (openConnections dialled asked _ _) fun _ => bind (kept _) fun _ => pure _
  exact bind opened (pingAll asked)

end Connecting

end Preserves

/-- A client that is connected only pings its servers. -/
theorem outcome_connect {σ : Type} [World σ] {site : Site σ} {connections : Connections}
    (own : site.client.connections = some connections) :
    site.outcome connect = site.outcome (pingAll connections) := by
  unfold connect openOnce
  rw [Site.outcome_bind, Site.outcome_bind, Site.outcome_get, Outcome.andThen_succeed, own]
  rfl

/-! ## What a successful connection leaves -/

/-- The namespaces of opened connections are those of the options. -/
theorem openConnections_namespaces {site : Site Network} {options : Options}
    {entries : List (Namespace × ConnectionDetails)} {connections : Connections}
    (ok : (site.outcome (openConnections options entries)).answer = .ok connections) :
    connections.map (·.1) = entries.map (·.1) := by
  induction entries generalizing site connections with
  | nil =>
    obtain rfl := Except.ok.inj ok
    rfl
  | cons entry rest ih =>
    obtain ⟨ns, details⟩ := entry
    unfold openConnections at ok
    dsimp only at ok
    split at ok
    · cases ok
    · rw [Site.outcome_bind] at ok
      obtain ⟨opened, _, ok⟩ := Outcome.answer_andThen_eq_ok_iff.mp ok
      cases opened with
      | error fault => cases ok
      | ok connection =>
        dsimp only at ok
        rw [Site.outcome_bind] at ok
        obtain ⟨others, hothers, ok⟩ := Outcome.answer_andThen_eq_ok_iff.mp ok
        obtain rfl := Except.ok.inj ok
        rw [List.map_cons, List.map_cons, ih hothers]

/-- Servers that answered are there. -/
theorem pingAll_reached {site : Site Network} {connections : Connections}
    (ok : (site.outcome (pingAll connections)).answer = .ok ()) :
    ∀ entry ∈ connections, ∃ node, site.world.nodes[entry.2.server]? = some node := by
  induction connections with
  | nil => exact fun entry h => by cases h
  | cons first rest ih =>
    unfold pingAll at ok
    have unchanged : (site.outcome (request first.2.server (.single .ping))).state = site :=
      Preserves.unchanged_single site first.2.server (fun _ => id) site rfl
    cases found : site.world.nodes[first.2.server]? with
    | none =>
      rw [Site.outcome_bind, Site.outcome_request_absent found, Outcome.andThen_succeed] at ok
      cases ok
    | some node =>
      intro entry hentry
      rcases List.mem_cons.mp hentry with rfl | hentry
      · exact ⟨node, found⟩
      · refine ih ?_ entry hentry
        rw [Site.outcome_bind] at ok
        obtain ⟨answer, _, ok⟩ := Outcome.answer_andThen_eq_ok_iff.mp ok
        rw [unchanged] at ok
        cases answer with
        | error fault => cases ok
        | ok replies => exact ok

/-- What a successful connection leaves: connections for the namespaces of the options, to servers
that are there, and everything else as it was. -/
structure Opened (site site' : Site Network) (connections : Connections) : Prop where
  connected : site'.client.connections = some connections
  namespaces : connections.map (·.1) = site.client.options.connections.map (·.1)
  reached : ∀ entry ∈ connections, ∃ node, site.world.nodes[entry.2.server]? = some node
  world : site'.world = site.world
  cache : site'.client.cache = site.client.cache

theorem connect_opened {site : Site Network} (fresh : site.client.connections = none)
    (ok : (site.outcome connect).answer = .ok ()) :
    ∃ connections, Opened site (site.outcome connect).state connections := by
  have dialled : ∀ s : Site Network, ∀ address port,
      Preserves (fun s' => s' = s) (Task.ofSession (.dial address port .done)) :=
    fun _ _ _ _ same => same
  have left := Preserves.openConnections (dialled site) (Preserves.unchanged site)
    site.client.options site.client.options.connections site rfl
  unfold connect openOnce at ok ⊢
  rw [Site.outcome_bind, Site.outcome_bind, Site.outcome_get, Outcome.andThen_succeed, fresh,
    Site.outcome_bind] at ok ⊢
  cases opened : (site.outcome
    (openConnections site.client.options site.client.options.connections)).answer with
  | error e =>
    rw [Outcome.andThen_eq_of_error opened] at ok
    cases ok
  | ok connections =>
    rw [Outcome.andThen_eq_of_ok opened, left, Site.outcome_bind, Site.outcome_modify,
      Outcome.andThen_succeed, Site.outcome_pure, Outcome.andThen_succeed] at ok ⊢
    have pinged := Preserves.pingAll (Preserves.unchanged _) connections
      (⟨{ site.client with connections := some connections }, site.world⟩ : Site Network) rfl
    rw [pinged]
    have reached := pingAll_reached ok
    exact ⟨connections, rfl, openConnections_namespaces opened, reached, rfl, rfl⟩

end Remote

end SeriesStorage
