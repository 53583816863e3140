import SeriesStorage.Proofs.Agreement.Visits
import SeriesStorage.Proofs.Remote.KeptHistory

/-!
# A client that is running

A lone client that has connected keeps catalogues on the servers that its connections lead to,
whatever is asked of it (`Running`).  Clearing empties these servers and begins all catalogues anew
(`Running.clear`); every other visit is a step of their register (`Running.step`).  So this holds
after any visits, and they are a history from the last clearing on (`Running.visits`).
-/

namespace SeriesStorage

namespace Remote

open Server (Command Network Node Request)

/-- The servers that connections lead to. -/
def Connections.LeadsTo (connections : Connections) (server : Nat) : Prop :=
  ∃ ns c, connections.route ns = .ok c ∧ c.server = server

/-! ## Staying connected -/

/-- A client is connected, and all servers of its connections are there. -/
structure Linked (connections : Connections) (site : Site Network) : Prop where
  own : site.client.connections = some connections
  there : AllReached connections site.world

section Linking

variable {connections : Connections}

theorem Linked.request (server : Nat) (r : Request) :
    Preserves (Linked connections) (request server r) := by
  intro site h
  rw [Site.outcome_request]
  refine ⟨h.own, ?_⟩
  show AllReached connections (site.world.serve server r).2
  unfold Network.serve
  split
  · exact h.there
  · exact h.there.setKeys server _

theorem Linked.modify {f : Client → Client}
    (same : ∀ client, (f client).connections = client.connections) :
    Preserves (Linked connections) (modify f : Task Unit) :=
  fun site h => ⟨(same site.client).trans h.own, h.there⟩

/-- **Whatever is asked** of a client that is connected, it stays so. -/
theorem Linked.perform (now : UInt64) (call : Call) :
    Preserves (Linked connections) (Remote.perform now call) := by
  have asked {E : Command → Prop} : ∀ server (r : Request), (∀ command ∈ r.commands, E command) →
      Preserves (Linked connections) (Remote.request server r) := fun server r _ =>
    Linked.request server r
  have known : ∀ (site : Site Network) others, Linked connections site →
      site.client.connections = some others → others = connections := fun site others h same =>
    Option.some.inj (same.symm.trans h.own)
  have looked : ∀ others ref, others = connections →
      Preserves (Linked connections) (Remote.cachedMetadata others ref) := fun others ref _ =>
    Preserves.cachedMetadata asked (fun _ => Linked.modify fun _ => rfl) others ref
  have forgotten : ∀ refs, Preserves (Linked connections) (Remote.invalidate refs) := fun _ =>
    Linked.modify fun _ => rfl
  cases call with
  | connect =>
    refine Preserves.bind (fun site h => ?_) fun _ => Preserves.pure _
    rw [outcome_connect h.own]
    exact Preserves.pingAll asked connections site h
  | create chances batch =>
    exact Preserves.bind (Preserves.create asked forgotten now chances batch) fun _ =>
      Preserves.pure _
  | search query =>
    exact Preserves.bind (Preserves.search asked known looked query) fun _ => Preserves.pure _
  | delete refs =>
    exact Preserves.bind (Preserves.delete asked forgotten refs) fun _ => Preserves.pure _
  | clear =>
    exact Preserves.bind (Preserves.clear (fun server => Linked.request server _)
      (Linked.modify fun _ => rfl)) fun _ => Preserves.pure _
  | write ref req draws times values =>
    exact Preserves.bind (Preserves.guarded asked known looked forgotten now ref fun m =>
      Preserves.append (E := fun _ => True) asked (fun _ _ _ _ => trivial)
        fun _ _ => Linked.modify fun _ => rfl) fun _ => Preserves.pure _
  | flush req =>
    exact Preserves.bind (Preserves.flush (E := fun _ => True) asked
      (fun _ _ _ _ _ _ _ _ _ => trivial) (fun _ => Linked.modify fun _ => rfl) req) fun _ =>
        Preserves.pure _
  | read ref window =>
    exact Preserves.bind (Preserves.guarded asked known looked forgotten now ref fun _ =>
      Preserves.fetch asked ref window) fun _ => Preserves.pure _

end Linking

/-! ## Running -/

/-- A client that is connected keeps catalogues on the servers that its connections lead to; points
were handed in only for series of which the id was given. -/
structure Running (connections : Connections) (cats : Catalogues)
    (given : SeriesRef → AcceptedPoint → Prop) (site : Site Network) : Prop
    extends Curated connections.LeadsTo cats given site, Linked connections site where
  known : ∀ ref p, given ref p → (cats.registered given).spent ref

variable {connections : Connections} {cats cats' : Catalogues}
  {given : SeriesRef → AcceptedPoint → Prop} {site : Site Network}

/-- Connecting to empty servers. -/
theorem running_opened {options : Options} {net : Network}
    (empty : ∀ (i : Nat) node, net.nodes[i]? = some node → node.keyspace = .empty)
    (opened : Opened ⟨.ofOptions options, net⟩
      ((⟨.ofOptions options, net⟩ : Site Network).outcome connect).state connections) :
    Running connections (fun _ => .empty) (fun _ _ => False)
      ((⟨.ofOptions options, net⟩ : Site Network).outcome connect).state := by
  have kept := (Curated.fresh options empty).connect fun _ _ => trivial
  refine ⟨⟨{ kept with routed := fun own ns c same route => ?_, stored := ?_ }, kept.cached⟩,
    ⟨opened.connected, ?_⟩, fun _ _ => False.elim⟩
  · obtain rfl := Option.some.inj (same.symm.trans opened.connected)
    exact ⟨ns, c, route, rfl⟩
  · exact fun i node found _ => kept.stored i node found trivial
  · rw [opened.world]
    exact opened.reached

/-- **A visit** that does not clear is a step. -/
theorem Running.step (h : Running connections cats given site) (v : Visit)
    (marked : v.call.Marked) (keeps : v.call ≠ .clear) :
    ∃ cats' given', Running connections cats' given' (site.visit v).state ∧
      Step id (cats.registered given) (cats'.registered given') (v, (site.visit v).answer) := by
  obtain ⟨cats', kept, step⟩ := h.toCurated.step v marked keeps fun none =>
    absurd (h.own.symm.trans none) nofun
  refine ⟨cats', _, ⟨kept, Linked.perform v.time.seconds v.call site h.toLinked,
    fun ref p new => ?_⟩, step⟩
  rcases new with old | handed
  · exact step.spends ref (h.known ref p old)
  · -- what is handed to a series finds it, and a series that is there has an id that was given
    have touched : touches ref (v, (site.visit v).answer) = true := by
      unfold handedTo at handed
      split at handed
      · by_contra untouched
        rw [if_neg untouched] at handed
        cases handed
      · cases handed
    exact step.spends ref (step.known ref (step.used ref touched))

/-- **Clearing** empties all servers of the connections, and everything begins anew. -/
theorem Running.clear (h : Running connections cats given site) :
    ∃ left, site.outcome clear = .succeed () left ∧
      Running connections (fun _ => .empty) (fun _ _ => False) left := by
  have routed : ∀ n ∈ connections.map (·.1), ∃ c, connections.route n = .ok c :=
    fun n hn => exists_route ⟨n, hn, Or.inl rfl⟩
  obtain ⟨net, ran, stay, cleared⟩ := Agrees.flushServers h.there routed
  have emptied : ∀ (i : Nat) node, net.nodes[i]? = some node → connections.LeadsTo i →
      node.keyspace = .empty := by
    rintro i node found ⟨ns, c, route, rfl⟩
    obtain ⟨n, inside, route'⟩ := exists_own_of_route route
    obtain ⟨node', found', empty⟩ := cleared n (List.mem_map_of_mem inside) c route'
    rw [Option.some.inj (found.symm.trans found')]
    exact empty
  unfold Remote.clear
  rw [Site.outcome_bind, Site.outcome_connected h.own, Outcome.andThen_succeed, Site.outcome_bind,
    ran, Outcome.andThen_succeed, Site.outcome_modify]
  refine ⟨_, rfl, ⟨⟨Catalogue.wellFormed_empty, fun ns i node found asked => ?_,
    fun _ none => absurd none (Nat.lt_irrefl 0), fun own ns c same route => ?_,
    fun i node found leads => ?_, nofun⟩, nofun⟩, ⟨h.own, fun entry inside => ?_⟩,
    fun _ _ => False.elim⟩
  · obtain ⟨c, route, same⟩ := asked connections h.own
    rw [emptied i node found ⟨ns, c, route, same⟩]
    exact ⟨fun _ => rfl, holds_empty ns⟩
  · obtain rfl := Option.some.inj (same.symm.trans h.own)
    exact ⟨ns, c, route, rfl⟩
  · rw [emptied i node found leads]
    exact holdsGiven_empty
  · obtain ⟨before, there⟩ := h.there entry inside
    obtain ⟨after, there', _⟩ := stay _ before there
    exact ⟨after, there'⟩

/-- **All visits.**  Whatever is asked, the client keeps running; without a clearing the visits are
a history. -/
theorem Running.visits (h : Running connections cats given site) (vs : List Visit)
    (marked : ∀ v ∈ vs, v.call.Marked) :
    ∃ cats' given', Running connections cats' given' (site.visits vs).2 ∧
      ((∀ v ∈ vs, v.call ≠ .clear) →
        History id (cats.registered given) (site.visits vs).1 (cats'.registered given')) := by
  induction vs generalizing site cats given with
  | nil => exact ⟨cats, given, h, fun _ => .nil _⟩
  | cons v rest ih =>
    have later := fun w hw => marked w (List.mem_cons_of_mem _ hw)
    by_cases clears : v.call = .clear
    · obtain ⟨left, ran, running⟩ := h.clear
      have visited : (site.visit v).state = left := by
        obtain ⟨time, call⟩ := v
        obtain rfl : call = .clear := clears
        have same : site.visit ⟨time, .clear⟩ = (site.outcome Remote.clear).map fun _ => .done :=
          Site.outcome_map site Remote.clear fun _ => Answer.done
        rw [same, ran]
        rfl
      rw [← visited] at running
      obtain ⟨cats', given', last, _⟩ := ih running later
      exact ⟨cats', given', last, fun keeps => absurd clears (keeps v List.mem_cons_self)⟩
    · obtain ⟨mid, given', running, step⟩ := h.step v (marked v List.mem_cons_self) clears
      obtain ⟨cats', given'', last, history⟩ := ih running later
      exact ⟨cats', given'', last, fun keeps =>
        .cons step (history fun w hw => keeps w (List.mem_cons_of_mem _ hw))⟩

/-- A lone client that has connected to empty servers is running after any visits. -/
theorem running_visits {options : Options} {stage : Server.Stage} (calm : stage.Calm)
    (empty : ∀ r ∈ stage.servers, r.keyspace = .empty) {start first : Instant}
    (connected : ((Deployment.lone (.remote (.ofOptions options)) stage start).visit
      ⟨first, .connect⟩).answer = .ok .done)
    (vs : List Visit) (marked : ∀ v ∈ vs, v.call.Marked) :
    ∃ (site : Site Network) (connections : Connections) (cats : Catalogues)
        (given : SeriesRef → AcceptedPoint → Prop),
      ((Deployment.lone (.remote (.ofOptions options)) stage start).visits
        (⟨first, .connect⟩ :: vs)).2.SeenAs site ∧
      connections.map (·.1) = options.connections.map (·.1) ∧
      Running connections cats given site := by
  let site : Site Server.Stage := ⟨.ofOptions options, stage⟩
  have visited : (Deployment.lone (.remote (.ofOptions options)) stage start).visit
      ⟨first, .connect⟩ = (site.visit ⟨first, .connect⟩).mapState (Deployment.ofSite first) :=
    Deployment.visit_ofSite site start ⟨first, .connect⟩
  rw [visited] at connected
  have succeeded : (site.visit ⟨first, .connect⟩).answer = _ := connected
  obtain ⟨_, after, connections, opened⟩ := opened_connected calm (Outcome.eq_succeed succeeded)
  have named := opened.namespaces
  rw [after] at opened
  have running := running_opened (fun _ _ => Server.Stage.keyspace_network empty) opened
  obtain ⟨_, same, _⟩ := site.visit_network calm ⟨first, .connect⟩
  rw [← after, same] at running
  obtain ⟨cats, given, running, _⟩ := running.visits vs marked
  have seen : (Deployment.lone (.remote (.ofOptions options)) stage start).SeenAs site.onNetwork :=
    ⟨site, start, rfl, calm, rfl⟩
  exact ⟨_, connections, cats, given, seen.visits (⟨first, .connect⟩ :: vs), named, running⟩

end Remote

end SeriesStorage
