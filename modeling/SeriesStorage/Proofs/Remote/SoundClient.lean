import SeriesStorage.Proofs.Deployment.HostedClient
import SeriesStorage.Proofs.Remote.OwnSeries
import SeriesStorage.Proofs.Remote.RunningClient

/-!
# A client that is not let down

A client has calm servers for itself, and all addresses lead to one of them.  Then keys tell one
story and every cached descriptor is matched by its record, whatever turns the client takes
(`Sound`): a deletion that fails has changed nothing, and once the client is connected a clearing
does not fail, so no visit strands a descriptor.

* `Sound.visit`, `Sound.access`: what the two kinds of turns keep.
* `sound_of_turns`: what any turns keep.
-/

namespace SeriesStorage

namespace Remote

open Server (Listener Network Stage)

/-! ## Servers stay where they are -/

/-- No task moves a server. -/
theorem run_places {α : Type} (session : Session α) (stage : Stage) :
    (session.run World.host stage).2.listeners = stage.listeners ∧
      (session.run World.host stage).2.servers.length = stage.servers.length := by
  have served : ∀ (stage : Stage) server request,
      (stage.serve server request).2.listeners = stage.listeners ∧
        (stage.serve server request).2.servers.length = stage.servers.length := by
    intro stage server request
    unfold Stage.serve
    split
    · exact ⟨rfl, rfl⟩
    · exact ⟨rfl, List.length_modify _ _ _⟩
  induction session generalizing stage with
  | done a => exact ⟨rfl, rfl⟩
  | dial address port next ih => exact ih (stage.dial address port) stage
  | send server request next ih =>
    obtain ⟨listeners, length⟩ := ih (stage.serve server request).1 (stage.serve server request).2
    exact ⟨listeners.trans (served stage server request).1,
      length.trans (served stage server request).2⟩

/-- All addresses lead to servers that are there, and so do the connections of a client. -/
structure Placed (site : Site Stage) : Prop where
  listening : ∀ l ∈ site.world.listeners, l.server < site.world.servers.length
  connected : ∀ connections, site.client.connections = some connections →
    ∀ entry ∈ connections, entry.2.server < site.world.servers.length

theorem Placed.outcome {site : Site Stage} (h : Placed site) {α : Type} {task : Task α}
    (connections : (site.outcome task).state.client.connections = site.client.connections) :
    Placed (site.outcome task).state := by
  obtain ⟨listeners, length⟩ := run_places (task.session site.client) site.world
  change (site.outcome task).state.world.listeners = _ at listeners
  change (site.outcome task).state.world.servers.length = _ at length
  refine ⟨fun l inside => ?_, fun others own entry inside => ?_⟩
  · rw [listeners] at inside
    rw [length]
    exact h.listening l inside
  · rw [connections] at own
    rw [length]
    exact h.connected others own entry inside


/-! ## Connecting -/

/-- A connection that a task opens is one to this server. -/
def OpensTo (server : Nat) (task : Task (Except Fault Connection)) : Prop :=
  ∀ (site : Site Stage) c, (site.outcome task).answer = .ok (.ok c) → c.server = server

/-- A step that is taken on a condition only, before the rest. -/
theorem OpensTo.ite_bind {server : Nat} {α : Type} {p : Prop} [Decidable p] {step : Task α}
    {next : α → Task (Except Fault Connection)} {rest : Task (Except Fault Connection)}
    (h : OpensTo server rest → ∀ a, OpensTo server (next a)) (last : OpensTo server rest) :
    OpensTo server (if p then step >>= next else rest) := by
  split
  · intro site c ok
    rw [Site.outcome_bind] at ok
    obtain ⟨a, _, ok⟩ := Outcome.answer_andThen_eq_ok_iff.mp ok
    exact h last a _ c ok
  · exact last

/-- A connection leads where its address does. -/
theorem openConnection_listening {site : Site Stage} {options : Options}
    {details : ConnectionDetails} {c : Connection}
    (ok : (site.outcome (openConnection options details)).answer = .ok (.ok c)) :
    ∃ l ∈ site.world.listeners, c.server = l.server := by
  have fails : ∀ server fault, OpensTo server (pure (.error fault)) := fun _ _ _ _ => nofun
  unfold openConnection at ok
  split at ok
  · cases ok
  · rw [Site.outcome_bind] at ok
    obtain ⟨reached, dialled, ok⟩ := Outcome.answer_andThen_eq_ok_iff.mp ok
    cases reached with
    | error fault => cases ok
    | ok server =>
      have reached : site.world.dial details.address details.port = .ok server :=
        Except.ok.inj dialled
      unfold Stage.dial at reached
      split at reached
      · next listener found =>
        obtain rfl := Except.ok.inj reached
        refine ⟨listener, List.mem_of_find?_eq_some found, ?_⟩
        refine (?_ : OpensTo listener.server _) _ c ok
        refine .ite_bind (fun selected answer => ?_) (.ite_bind (fun timed answer => ?_) ?_)
        · cases answer with
          | error fault => exact fails _ _
          | ok replies => exact selected
        · cases answer with
          | error fault => exact fails _ _
          | ok replies => exact timed
        · dsimp only
          split
          · exact fails _ _
          · intro site c ok
            rw [← Except.ok.inj (Except.ok.inj ok)]
      · cases reached

/-- All connections lead where addresses do. -/
theorem openConnections_listening {site : Site Stage} {options : Options}
    {entries : List (Namespace × ConnectionDetails)} {connections : Connections}
    (ok : (site.outcome (openConnections options entries)).answer = .ok connections) :
    ∀ entry ∈ connections, ∃ l ∈ site.world.listeners, entry.2.server = l.server := by
  induction entries generalizing site connections with
  | nil =>
    obtain rfl := Except.ok.inj ok
    exact nofun
  | cons entry rest ih =>
    obtain ⟨ns, details⟩ := entry
    unfold openConnections at ok
    dsimp only at ok
    split at ok
    · cases ok
    · rw [Site.outcome_bind] at ok
      obtain ⟨opened, first, ok⟩ := Outcome.answer_andThen_eq_ok_iff.mp ok
      cases opened with
      | error fault => cases ok
      | ok connection =>
        dsimp only at ok
        rw [Site.outcome_bind] at ok
        obtain ⟨others, later, ok⟩ := Outcome.answer_andThen_eq_ok_iff.mp ok
        obtain rfl := Except.ok.inj ok
        have kept := (run_places ((openConnection options details).session site.client)
          site.world).1
        change (site.outcome (openConnection options details)).state.world.listeners = _ at kept
        intro entry inside
        rcases List.mem_cons.mp inside with rfl | inside
        · exact openConnection_listening first
        · rw [← kept]
          exact ih later entry inside

theorem Placed.request (server : Nat) (r : Server.Request) :
    Preserves Placed (request server r : Task _) :=
  fun _ h => h.outcome rfl

/-- A client that connects gets connections to servers that are there. -/
theorem Placed.connect : Preserves Placed connect := by
  have dialled : ∀ address port, Preserves Placed (Task.ofSession (.dial address port .done)) :=
    fun _ _ _ h => h
  have asked : ∀ server (r : Server.Request),
      (∀ command ∈ r.commands, ∀ key, ¬ command.Changes key) →
      Preserves Placed (Remote.request server r) := fun server r _ => Placed.request server r
  refine Preserves.bind (fun site h => ?_) (Preserves.pingAll asked)
  unfold openOnce
  rw [Site.outcome_bind, Site.outcome_get, Outcome.andThen_succeed]
  cases own : site.client.connections with
  | some connections => exact h
  | none =>
    have left := Preserves.openConnections dialled asked site.client.options
      site.client.options.connections site h
    dsimp only
    rw [Site.outcome_bind]
    cases answer : (site.outcome (openConnections site.client.options
        site.client.options.connections)).answer with
    | error e =>
      rw [Outcome.andThen_eq_of_error answer]
      exact left
    | ok connections =>
      rw [Outcome.andThen_eq_of_ok answer, Site.outcome_bind, Site.outcome_modify,
        Outcome.andThen_succeed]
      refine ⟨left.listening, fun others own entry inside => ?_⟩
      obtain rfl := Option.some.inj own
      obtain ⟨l, there, same⟩ := openConnections_listening answer entry inside
      obtain ⟨_, length⟩ := run_places ((openConnections site.client.options
        site.client.options.connections).session site.client) site.world
      rw [same]
      exact Nat.lt_of_lt_of_eq (h.listening l there) length.symm

/-- A client is not connected. -/
def Unconnected (site : Site Stage) : Prop := site.client.connections = none

/-- A client that is not connected stays so, unless it is told to connect. -/
theorem Preserves.unconnected (now : UInt64) {call : Call} (other : call ≠ .connect) :
    Preserves Unconnected (Remote.perform now call) := by
  have never : ∀ {α : Type} (f : Connections → Task α),
      Preserves Unconnected (Remote.connected >>= f) := fun f =>
    connected_bind (P := fun _ => False) (fun _ _ unconnected own => by
      cases own.symm.trans unconnected) fun _ no => no.elim
  have unguarded : ∀ {α : Type} ref (act : SeriesMetadata → Task α),
      (∀ m, Preserves Unconnected (act m)) →
      Preserves Unconnected (Remote.guarded now ref act) := by
    intro α ref act h
    refine bind (never _) fun found => ?_
    cases found with
    | live m => exact h m
    | unknown => exact throw _
    | expired m => exact bind (never _) fun _ => throw _
  cases call with
  | connect => exact absurd rfl other
  | create chances batch => exact bind (never _) fun _ => pure _
  | search query => exact bind (bind (ofExcept _) fun _ => never _) fun _ => pure _
  | delete refs => exact bind (never _) fun _ => pure _
  | clear => exact bind (never _) fun _ => pure _
  | write ref req draws times values =>
    exact bind (unguarded ref _ fun m => never _) fun _ => pure _
  | flush req =>
    refine bind (bind get fun client => ?_) fun _ => pure _
    split
    · exact throw _
    · exact bind (fun _ h => h) fun _ => never _
  | read ref window => exact bind (unguarded ref _ fun _ => never _) fun _ => pure _

/-- All servers of a client that is connected are there. -/
theorem Placed.linked {site : Site Stage} (h : Placed site) {connections : Connections}
    (own : site.client.connections = some connections) : Linked connections site.onNetwork := by
  refine ⟨own, fun entry inside => ⟨_, List.getElem?_eq_getElem ?_⟩⟩
  show entry.2.server < (site.world.servers.map _).length
  rw [List.length_map]
  exact h.connected connections own entry inside

/-- **Visits** keep all places. -/
theorem Placed.visit {site : Site Stage} (h : Placed site) (calm : site.world.Calm) (v : Visit) :
    Placed (site.visit v).state := by
  cases own : site.client.connections with
  | some connections =>
    have kept := Linked.perform v.time.seconds v.call site.onNetwork (h.linked own)
    obtain ⟨_, after, _⟩ := site.visit_network calm v
    refine h.outcome (Eq.trans ?_ own.symm)
    rw [← kept.own]
    exact congrArg (fun net => net.client.connections) after
  | none =>
    by_cases connects : v.call = .connect
    · have same : site.visit v = (site.outcome Remote.connect).map fun _ => .done := by
        unfold Site.visit
        rw [connects]
        exact Site.outcome_map site Remote.connect fun _ => Answer.done
      rw [same, Outcome.state_map]
      exact Placed.connect site h
    · exact h.outcome ((Preserves.unconnected v.time.seconds connects site own).trans own.symm)

theorem Placed.access (now : UInt64) (ref : SeriesRef) : Preserves Placed (access now ref) := by
  intro site h
  have kept : Preserves (fun s : Site Stage => s.client.connections = site.client.connections)
      (Remote.access now ref) :=
    Preserves.bind Preserves.connected fun _ => Preserves.bind (Preserves.cachedMetadata
      (fun _ _ _ _ same => same) (fun _ _ same => same) _ _) fun _ => Preserves.pure _
  exact h.outcome (kept site rfl)

/-! ## What fails changes nothing -/

/-- Only the network matters to records. -/
theorem Matched.congr {site site' : Site Stage} {ref : SeriesRef} {m : SeriesMetadata}
    (h : Matched site ref m) (same : site'.onNetwork = site.onNetwork) : Matched site' ref m := by
  obtain ⟨ks, serves, record⟩ := h
  obtain ⟨connections, c, node, own, reaches, rfl⟩ := serves.reaches
  rw [← same] at own reaches
  exact ⟨_, reaches.serves own, record⟩

/-- If the network is as before, no descriptor has lost its record. -/
theorem Intact.unchanged {gone : SeriesRef → Prop} {site site' : Site Stage}
    (before : Intact Nobody Nobody site) (after : Intact Nobody gone site')
    (same : site'.onNetwork = site.onNetwork) : Intact Nobody Nobody site' where
  undisturbed := after.undisturbed
  filed := after.filed
  staged := after.staged
  cached := by
    intro ref m found
    have client : site'.client = site.client := congrArg (fun net => net.client) same
    rw [client] at found
    exact (before.cached ref m found).imp_right
      (Or.imp (·.congr same) fun none => none.1.elim)

/-- A client that is connected can clear its servers. -/
theorem Linked.clear {connections : Connections} {site : Site Network}
    (h : Linked connections site) : (site.outcome clear).answer = .ok () := by
  have routed : ∀ n ∈ connections.map (·.1), ∃ c, connections.route n = .ok c :=
    fun n inside => exists_route ⟨n, inside, Or.inl rfl⟩
  obtain ⟨net, ran, _⟩ := Agrees.flushServers h.there routed
  unfold Remote.clear
  rw [Site.outcome_bind, Site.outcome_connected h.own, Outcome.andThen_succeed, Site.outcome_bind,
    ran, Outcome.andThen_succeed, Site.outcome_modify]
  rfl

/-- A client has calm servers for itself and reaches all of them; keys are in order, and every
cached descriptor is matched by its record. -/
structure Sound (site : Site Stage) : Prop extends Placed site where
  calm : site.world.Calm
  inOrder : InOrder site.onNetwork.world
  intact : Intact Nobody Nobody site

namespace Sound

variable {site : Site Stage}

/-- A deletion that fails has changed nothing. -/
theorem intact_delete (h : Sound site) (refs : List SeriesRef) :
    Intact Nobody Nobody (site.outcome (delete refs)).state := by
  have settled := leads_delete refs site h.intact
  obtain ⟨same, _⟩ := site.outcome_network h.calm (delete refs)
  have since : Since Nobody site.onNetwork.world site.onNetwork :=
    ⟨h.inOrder.evolves, h.intact.staged⟩
  obtain ⟨e, failed⟩ | ⟨left, removed, _⟩ := delete_cases since refs
  · rw [failed] at same
    exact h.intact.unchanged settled (congrArg Outcome.state same)
  · rw [removed] at same
    have answer : (site.outcome (delete refs)).answer = .ok () := congrArg Outcome.answer same
    rw [answer] at settled
    exact settled.succeeded

/-- Once the client is connected, clearing does not fail. -/
theorem intact_clear (h : Sound site) : Intact Nobody Nobody (site.outcome clear).state := by
  have settled := leads_clear site h.intact
  cases own : site.client.connections with
  | none =>
    unfold clear
    rw [Site.outcome_bind, Site.outcome_connected_none own]
    exact h.intact
  | some connections =>
    obtain ⟨same, _⟩ := site.outcome_network h.calm clear
    have answer : (site.outcome clear).answer = .ok () :=
      (congrArg Outcome.answer same).trans (h.linked own).clear
    rw [answer] at settled
    exact settled.succeeded

theorem access (h : Sound site) (now : UInt64) (ref : SeriesRef) :
    Sound (site.outcome (access now ref)).state := by
  obtain ⟨same, calm⟩ := site.outcome_network h.calm (Remote.access now ref)
  have since : Since Nobody site.onNetwork.world _ :=
    since_access now ref site.onNetwork ⟨h.inOrder.evolves, h.intact.staged⟩
  refine ⟨Placed.access now ref site h.toPlaced, calm, ?_,
    (leads_access now ref site site ⟨h.intact, rfl⟩).1⟩
  rw [← show (site.outcome (Remote.access now ref)).state.onNetwork = _ from
    congrArg Outcome.state same] at since
  exact since.evolves.inOrder

theorem intact_guarded (h : Sound site) {α : Type} (now : UInt64) (ref : SeriesRef)
    {act : SeriesMetadata → Task α} (acts : ∀ m, Preserves (Intact Nobody Nobody) (act m)) :
    Intact Nobody Nobody (site.outcome (guarded now ref act)).state := by
  have accessed := h.access now ref
  unfold guarded
  rw [Site.outcome_bind]
  cases answer : (site.outcome (Remote.access now ref)).answer with
  | error e =>
    rw [Outcome.andThen_eq_of_error answer]
    exact accessed.intact
  | ok found =>
    rw [Outcome.andThen_eq_of_ok answer]
    cases found with
    | live m => exact acts m _ accessed.intact
    | unknown => exact accessed.intact
    | expired m =>
      dsimp only
      rw [Site.outcome_bind]
      change Intact _ _ (Outcome.andThen _ fun _ s => .fail .seriesExpired s : Outcome _ α).state
      rw [Outcome.andThen_fail_eq]
      exact accessed.intact_delete [ref]

/-- **Visits** keep the client sound. -/
theorem visit (h : Sound site) (v : Visit) : Sound (site.visit v).state := by
  obtain ⟨_, after, calm⟩ := site.visit_network h.calm v
  have since := since_visit h.inOrder h.intact.staged v
  rw [← after] at since
  refine ⟨h.toPlaced.visit h.calm v, calm, since.evolves.inOrder, ?_⟩
  obtain ⟨time, call⟩ := v
  have mapped : ∀ {α : Type} (task : Task α) (f : α → Answer),
      Intact Nobody Nobody (site.outcome task).state →
      Intact Nobody Nobody (site.outcome (f <$> task)).state := by
    intro α task f kept
    rw [Site.outcome_map]
    exact kept
  cases call with
  | connect => exact mapped Remote.connect (fun _ => .done) (preserves_connect site h.intact)
  | create chances batch =>
    exact mapped _ .created (preserves_create _ chances batch site h.intact)
  | search query => exact mapped _ .found (preserves_search query site h.intact)
  | delete refs => exact mapped _ (fun _ => .done) (h.intact_delete refs)
  | clear => exact mapped _ (fun _ => .done) h.intact_clear
  | write ref req draws times values =>
    rw [Site.visit_write]
    exact h.intact_guarded _ ref fun m => Preserves.map (preserves_append _ req m _ _ _) _
  | flush req => exact mapped _ (fun _ => .done) (preserves_flush req site h.intact)
  | read ref window =>
    rw [Site.visit_read]
    exact h.intact_guarded _ ref fun _ => Preserves.map (preserves_fetch ref window) _

/-- No descriptor stays in the cache after its record has gone. -/
theorem not_strands (h : Sound site) (v : Visit) (ref : SeriesRef) : ¬ Strands site v ref := by
  intro strands
  obtain ⟨m, cached⟩ := strands.cached
  rcases (h.visit v).intact.cached ref m cached with stale | matched | gone
  · exact stale
  · exact strands.lost.not_matched m matched
  · exact gone.1

theorem turn (h : Sound site) {site' : Site Stage} (turn : Turn site site') : Sound site' := by
  cases turn with
  | idle => exact h
  | visited v => exact h.visit v
  | accessed now ref => exact h.access now ref

end Sound

/-- A client that was just made is sound with empty servers. -/
theorem sound_ofOptions {stage : Stage} (calm : stage.Calm)
    (empty : ∀ r ∈ stage.servers, r.keyspace = .empty)
    (listening : ∀ l ∈ stage.listeners, l.server < stage.servers.length) (options : Options) :
    Sound ⟨.ofOptions options, stage⟩ where
  listening := listening
  connected := nofun
  calm := calm
  inOrder := inOrder_network empty
  intact := by
    refine ⟨?_, fun r inside ns => ⟨0, ?_⟩, pointsOnly_empty, nofun⟩
    · exact fun r inside => (calm r inside).interventions
    · rw [empty r inside]
      exact filed_empty ns

/-- **Any turns** keep the client sound. -/
theorem sound_of_turns {site site' : Site Stage} (h : Sound site)
    (turns : Relation.ReflTransGen Turn site site') : Sound site' := by
  induction turns with
  | refl => exact h
  | tail _ turn ih => exact ih.turn turn

end Remote

end SeriesStorage
