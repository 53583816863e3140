import Mathlib.Logic.Function.Basic
import SeriesStorage.Proofs.Agreement.Mirrors
import SeriesStorage.Proofs.Remote.GivenPoints
import SeriesStorage.Proofs.Remote.WithoutPoints

/-!
# Catalogues that a lone client keeps

While nobody else changes the servers, the keys of every namespace hold a catalogue that only the
calls of the client change, and the cache agrees with it (`Curated`).  Connecting, searching and
flushing leave all catalogues alone, and so does what is staged for a series.

* `Catalogued.confined`: what remains when one namespace changes its catalogue.
* `Curated.cachedMetadata`: a lookup finds what the catalogue has.
-/

namespace SeriesStorage

namespace Remote

open Server (Command Keyspace Network Node Request)

/-! ## Catalogues of all namespaces -/

/-- A catalogue for each namespace. -/
abbrev Catalogues := Namespace → Catalogue

/-- Whether a series is in the catalogue of its namespace. -/
def Catalogues.Has (cats : Catalogues) (ref : SeriesRef) : Prop :=
  ∃ m, (cats ref.ns).records ref.id = some m

/-- Whether a server has, or may yet get, the keys of a namespace: before the client has connected
all of them may. -/
def Client.MayAsk (client : Client) (ns : Namespace) (server : Nat) : Prop :=
  ∀ connections, client.connections = some connections →
    ∃ c, connections.route ns = .ok c ∧ c.server = server

/-- The keys of all namespaces hold these catalogues and no lock, and on certain servers, among them
all those that the client is connected to, every set of a series holds points that were given for
it; only such points are staged.  A namespace that was given an id has a server. -/
structure Catalogued (servers : Nat → Prop) (cats : Catalogues)
    (given : SeriesRef → AcceptedPoint → Prop) (site : Site Network) : Prop where
  wellFormed : ∀ ns, (cats ns).WellFormed ns
  held : ∀ ns (i : Nat) node, site.world.nodes[i]? = some node → site.client.MayAsk ns i →
    Unlocked node.keyspace ns ∧ Holds node.keyspace ns (cats ns)
  reached : ∀ ns, 0 < (cats ns).lastId → ∃ connections c node,
    site.client.connections = some connections ∧ Reaches site connections ns c node
  routed : ∀ connections ns c, site.client.connections = some connections →
    connections.route ns = .ok c → servers c.server
  stored : ∀ (i : Nat) node, site.world.nodes[i]? = some node → servers i →
    HoldsGiven given node.keyspace
  staged : ∀ req writes, site.client.pending.writes? req = some writes →
    ∀ entry ∈ writes.entries, ∀ staged ∈ entry.2, Brings given staged.command

/-- Besides, the cache keeps no descriptor that the catalogues do not have. -/
structure Curated (servers : Nat → Prop) (cats : Catalogues)
    (given : SeriesRef → AcceptedPoint → Prop) (site : Site Network) : Prop
    extends Catalogued servers cats given site where
  cached : ∀ ref m, site.client.cache.get? ref = some m → (cats ref.ns).records ref.id = some m

variable {servers : Nat → Prop} {cats cats' : Catalogues}
  {given given' : SeriesRef → AcceptedPoint → Prop} {site : Site Network}
  {connections : Connections} {ns : Namespace} {c : Connection} {node : Node} {ks : Keyspace}

theorem Catalogued.described (h : Catalogued servers cats given site) {ref : SeriesRef}
    {m : SeriesMetadata} (record : (cats ref.ns).records ref.id = some m) : m.ref = ref := by
  obtain ⟨id, ns, _⟩ := (h.wellFormed ref.ns).described _ m record
  rw [SeriesMetadata.ref, id, ns]

/-- The server of a namespace holds its catalogue. -/
theorem Catalogued.here (h : Catalogued servers cats given site)
    (own : site.client.connections = some connections)
    (reaches : Reaches site connections ns c node) :
    Unlocked node.keyspace ns ∧ Holds node.keyspace ns (cats ns) := by
  refine h.held ns c.server node reaches.node fun others same => ?_
  obtain rfl := Option.some.inj (own.symm.trans same)
  exact ⟨c, reaches.route, rfl⟩

/-- The sets on the server of a namespace hold what was given. -/
theorem Catalogued.sourced (h : Catalogued servers cats given site)
    (own : site.client.connections = some connections)
    (reaches : Reaches site connections ns c node) : HoldsGiven given node.keyspace :=
  h.stored c.server node reaches.node (h.routed connections ns c own reaches.route)

/-- A namespace without a server was given no id. -/
theorem Catalogued.lastId_of_unreachable (h : Catalogued servers cats given site)
    (own : site.client.connections = some connections) (nowhere : Unreachable site connections ns) :
    (cats ns).lastId = 0 := by
  refine Nat.eq_zero_of_not_pos fun some => ?_
  obtain ⟨others, c, node, same, reaches⟩ := h.reached ns some
  obtain rfl := Option.some.inj (own.symm.trans same)
  exact absurd (reaches.node.symm.trans (nowhere c reaches.route)) nofun

theorem Catalogued.records_of_unused (h : Catalogued servers cats given site)
    (unused : (cats ns).lastId = 0) (id : SeriesId) : (cats ns).records id = none := by
  cases record : (cats ns).records id with
  | none => rfl
  | some m =>
    have counted := (h.wellFormed ns).counted id m record
    omega

theorem Curated.mono (h : Curated servers cats given site)
    (more : ∀ ref p, given ref p → given' ref p) : Curated servers cats given' site where
  wellFormed := h.wellFormed
  held := h.held
  reached := h.reached
  routed := h.routed
  stored := fun i node found inside => (h.stored i node found inside).mono more
  staged := fun req writes found entry inside staged hstaged =>
    (h.staged req writes found entry inside staged hstaged).mono more
  cached := h.cached

/-- What else the client keeps does not matter. -/
theorem Catalogued.onClient (h : Catalogued servers cats given site) {client : Client}
    (connections : client.connections = site.client.connections)
    (staged : ∀ req writes, client.pending.writes? req = some writes →
      ∀ entry ∈ writes.entries, ∀ staged ∈ entry.2, Brings given staged.command) :
    Catalogued servers cats given ⟨client, site.world⟩ where
  wellFormed := h.wellFormed
  held := fun ns i node found asked => h.held ns i node found fun own same =>
    asked own (connections.trans same)
  reached := fun ns some => by
    obtain ⟨own, c, node, same, reaches⟩ := h.reached ns some
    exact ⟨own, c, node, connections.trans same, reaches.route, reaches.node⟩
  routed := fun own ns c same => h.routed own ns c (connections.symm.trans same)
  stored := h.stored
  staged := staged

/-! ## Changes of one server -/

/-- A namespace is reached whatever becomes of keys. -/
theorem Reaches.setKeys_any (h : Reaches site connections ns c node) (i : Nat) (ks : Keyspace) :
    ∃ node', Reaches (site.setKeys i ks) connections ns c node' := by
  by_cases same : i = c.server
  · subst same
    exact ⟨_, h.setKeys ks⟩
  · exact ⟨node, h.route, by rw [Site.nodes_setKeys, if_neg same, h.node]⟩

/-- One server gets other keys. -/
theorem Catalogued.change (h : Catalogued servers cats given site) {i : Nat}
    (found : site.world.nodes[i]? = some node) (wellFormed : ∀ ns, (cats' ns).WellFormed ns)
    (here : ∀ ns, site.client.MayAsk ns i → Unlocked ks ns ∧ Holds ks ns (cats' ns))
    (elsewhere : ∀ ns j, i ≠ j → site.client.MayAsk ns j → cats' ns = cats ns)
    (reached : ∀ ns, 0 < (cats' ns).lastId → ∃ connections c node,
      site.client.connections = some connections ∧ Reaches site connections ns c node)
    (stored : servers i → HoldsGiven given ks) :
    Catalogued servers cats' given (site.setKeys i ks) where
  wellFormed := wellFormed
  held := by
    intro ns j last hlast asked
    rw [Site.nodes_setKeys] at hlast
    split at hlast
    · next same =>
      subst same
      rw [found] at hlast
      obtain rfl := Option.some.inj hlast
      exact here ns asked
    · next other =>
      rw [elsewhere ns j other asked]
      exact h.held ns j last hlast asked
  reached := by
    intro ns some
    obtain ⟨connections, c, node, own, reaches⟩ := reached ns some
    obtain ⟨node', still⟩ := reaches.setKeys_any i ks
    exact ⟨connections, c, node', own, still⟩
  routed := h.routed
  stored := by
    intro j last hlast inside
    rw [Site.nodes_setKeys] at hlast
    split at hlast
    · next same =>
      subst same
      rw [found] at hlast
      obtain rfl := Option.some.inj hlast
      exact stored inside
    · exact h.stored j last hlast inside
  staged := h.staged

/-- **One namespace changes its catalogue.** -/
theorem Catalogued.confined (h : Catalogued servers cats given site)
    (own : site.client.connections = some connections)
    (reaches : Reaches site connections ns c node)
    {cat : Catalogue} (wf : cat.WellFormed ns) (holds : Holds ks ns cat)
    (confined : Confined ns node.keyspace ks) :
    Catalogued servers (Function.update cats ns cat) given (site.setKeys c.server ks) := by
  have other {ns' : Namespace} (apart : ns' ≠ ns) : Function.update cats ns cat ns' = cats ns' :=
    Function.update_of_ne apart cat cats
  refine h.change reaches.node (fun ns' => ?_) (fun ns' asked => ?_) (fun ns' j apart asked => ?_)
    (fun ns' some => ?_)
    (fun _ => (h.sourced own reaches).congr fun ref bucket => confined.data ref bucket)
  · by_cases same : ns' = ns
    · subst same
      rwa [Function.update_self]
    · rw [other same]
      exact h.wellFormed ns'
  · obtain ⟨unlocked, before⟩ := h.held ns' c.server node reaches.node asked
    refine ⟨fun n => (confined (.lock ns' n) id).trans (unlocked n), ?_⟩
    by_cases same : ns' = ns
    · subst same
      rwa [Function.update_self]
    · rw [other same]
      exact before.confined confined same
  · refine other ?_
    rintro rfl
    obtain ⟨c', route, rfl⟩ := asked connections own
    obtain rfl := Except.ok.inj (reaches.route.symm.trans route)
    exact apart rfl
  · by_cases same : ns' = ns
    · subst same
      exact ⟨connections, c, node, own, reaches⟩
    · rw [other same] at some
      exact h.reached ns' some

/-! ## Calls that change no catalogue -/

namespace Preserves

theorem catalogued_request (server : Nat) (r : Request)
    (brings : ∀ command ∈ r.commands, Brings given command) :
    Preserves (Catalogued servers cats given) (request server r) := by
  intro site h
  rw [Site.outcome_request]
  show Catalogued servers cats given ⟨site.client, (site.world.serve server r).2⟩
  unfold Network.serve
  cases found : site.world.nodes[server]? with
  | none => exact h
  | some node =>
    have same : DataOnly node.keyspace (r.exec node.password node.keyspace).2 := fun k hk =>
      Server.get?_execAll node.password r.commands node.keyspace k.text fun c hc =>
        (brings c hc).onPoints k hk
    refine h.change found h.wellFormed (fun ns asked => ?_) (fun _ _ _ _ => rfl) h.reached
      (fun inside => (h.stored server node found inside).execAll brings node.password)
    obtain ⟨unlocked, holds⟩ := h.held ns server node found asked
    refine ⟨fun n => (same (.lock ns n) (by simp)).trans (unlocked n), holds.congr fun k hk => ?_⟩
    refine same k ?_
    rintro ref bucket rfl
    exact hk

theorem curated_request (server : Nat) (r : Request)
    (brings : ∀ command ∈ r.commands, Brings given command) :
    Preserves (Curated servers cats given) (request server r) := fun site h =>
  ⟨catalogued_request server r brings site h.toCatalogued, h.cached⟩

/-- Requests that change no key. -/
theorem curated_keyless (server : Nat) (r : Request)
    (h : ∀ command ∈ r.commands, ∀ key, ¬ command.Changes key) :
    Preserves (Curated servers cats given) (request server r) :=
  curated_request server r fun command inside => .quiet (h command inside)

end Preserves

/-- Connecting: as long as the client is not connected, every server may get every namespace. -/
theorem Curated.connect (h : Curated servers cats given site)
    (anywhere : site.client.connections = none → ∀ i, servers i) :
    Curated servers cats given (site.outcome connect).state := by
  cases own : site.client.connections with
  | some connections =>
    rw [outcome_connect own]
    exact Preserves.pingAll Preserves.curated_keyless connections site h
  | none =>
    let Fresh : Site Network → Prop := fun site =>
      Curated servers cats given ⟨{ site.client with connections := none }, site.world⟩
    have fresh : Fresh site := by
      show Curated servers cats given ⟨{ site.client with connections := none }, site.world⟩
      rw [← own]
      exact h
    have asked : ∀ server (r : Request), (∀ command ∈ r.commands, ∀ key, ¬ command.Changes key) →
        Preserves Fresh (request server r) := fun server r keyless site h =>
      Preserves.curated_keyless server r keyless
        ⟨{ site.client with connections := none }, site.world⟩ h
    have last := Preserves.connect (fun _ _ _ => id) asked (fun _ _ => id) site fresh
    refine ⟨⟨last.wellFormed, fun ns i node found _ => last.held ns i node found nofun,
      fun ns some => ?_, fun _ _ c _ _ => anywhere own c.server, last.stored, last.staged⟩,
      last.cached⟩
    obtain ⟨_, _, _, connected, _⟩ := last.reached ns some
    cases connected

/-! ### Looking up -/

/-- What a catalogue has may enter the cache. -/
theorem Curated.remember (h : Curated servers cats given site) (ref : SeriesRef) :
    Curated servers cats given (site.remember ref ((cats ref.ns).records ref.id)) := by
  cases record : (cats ref.ns).records ref.id with
  | none => exact h
  | some m =>
    refine ⟨h.onClient rfl h.staged, fun ref' m' found => ?_⟩
    rcases Cache.get?_of_insert found with ⟨rfl, rfl⟩ | before
    · exact record
    · exact h.cached ref' m' before

/-- A failure of a lookup that found no server. -/
def Missed (ns : Namespace) (e : Error) : Prop :=
  e = .unavailable .notInitialized ∨ e = .unavailable (.noConnection ns) ∨
    e = .redis (.io "Connection reset")

/-- **A lookup** finds what the catalogue has, if the namespace has a server. -/
theorem Curated.cachedMetadata (h : Curated servers cats given site)
    (own : site.client.connections = some connections) (ref : SeriesRef) :
    ((cats ref.ns).lastId = 0 ∧ ∃ e, Missed ref.ns e ∧
      site.outcome (cachedMetadata connections ref) = .fail e site) ∨
    (∃ c node, Reaches site connections ref.ns c node) ∧
      site.outcome (cachedMetadata connections ref) = .succeed ((cats ref.ns).records ref.id)
        (site.remember ref ((cats ref.ns).records ref.id)) := by
  obtain ⟨c, node, reaches⟩ | nowhere := reaches_or_unreachable site connections ref.ns
  · refine Or.inr ⟨⟨c, node, reaches⟩, ?_⟩
    have found : (site.client.cache.get? ref).or ((cats ref.ns).records ref.id) =
        (cats ref.ns).records ref.id := by
      cases cached : site.client.cache.get? ref with
      | none => rfl
      | some m =>
        rw [h.cached ref m cached]
        rfl
    have asked := reaches.cachedMetadata (h.here own reaches).2 ref.id
    change site.outcome _ =
      .succeed ((site.client.cache.get? ref).or ((cats ref.ns).records ref.id))
      (site.remember ref ((site.client.cache.get? ref).or ((cats ref.ns).records ref.id))) at asked
    rwa [found] at asked
  · have unused := h.lastId_of_unreachable own nowhere
    refine Or.inl ⟨unused, ?_⟩
    obtain ⟨e, failed, why⟩ := nowhere.ask (.get (Key.descriptor ref)) textOrNothing
    refine ⟨e, Or.inr why, ?_⟩
    unfold Remote.cachedMetadata
    rw [Site.outcome_bind, Site.outcome_get, Outcome.andThen_succeed]
    cases cached : site.client.cache.get? ref with
    | some m => exact absurd (h.cached ref m cached) (by simp [h.records_of_unused unused])
    | none =>
      dsimp only
      unfold loadMetadata
      rw [Site.outcome_bind, Site.outcome_bind, failed]
      rfl

theorem Preserves.curated_search (query : Search) :
    Preserves (Curated servers cats given) (Remote.search query) := by
  refine search_connected curated_keyless (fun connections ref site h => ?_) query
  obtain ⟨_, e, _, failed⟩ | ⟨_, looked⟩ := h.1.cachedMetadata h.2 ref
  · rw [failed]
    exact h
  · rw [looked]
    refine ⟨h.1.remember ref, ?_⟩
    unfold Site.remember
    split
    · exact h.2
    · exact h.2

/-! ### Points -/

namespace Preserves

theorem curated_flush (req : RequestId) :
    Preserves (Curated servers cats given) (Remote.flush req) :=
  flush curated_request (fun _ h => h.staged) (fun _ _ h => ⟨h.onClient rfl fun req' writes found =>
    h.staged req' writes (Pending.writes?_of_remove found), h.cached⟩) req

theorem curated_append (ns : Namespace) (req : RequestId) {m : SeriesMetadata} (draws : Draws)
    {times : List UInt64} {values : List Binary64} (all : ∀ p ∈ times.zip values, given m.ref p) :
    Preserves (Curated servers cats given) (Remote.append ns req m draws times values) :=
  append curated_request (fun _ points => stagePoints_brings points all) fun _ brings _ h =>
    ⟨h.onClient rfl <| Pending.forall_stage (E := fun _ entry => ∀ staged ∈ entry.2,
      Brings given staged.command) h.staged brings
      fun _ old => List.forall_mem_append.mpr ⟨old, brings⟩, h.cached⟩

end Preserves

end Remote

end SeriesStorage
