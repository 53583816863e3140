import SeriesStorage.Proofs.Deployment.Visits

/-!
# Networks

A network is what is left of a stage once faults, interventions and the log are left out: servers
with their passwords and keys, and where they can be reached.  On a stage on which nothing is
prepared a task answers what it answers on the network (`Site.outcome_network`), and so do visits
(`Site.visits_network`).
-/

namespace SeriesStorage

namespace Server

/-- A server: its password and its keys. -/
structure Node where
  password : String
  keyspace : Keyspace

/-- Servers, and where they can be reached. -/
structure Network where
  nodes : List Node
  listeners : List Listener

namespace Network

/-- The server that is reached at an address. -/
def dial (net : Network) (address : String) (port : UInt16) : Except Fault Nat :=
  match net.listeners.find? fun l => l.address = address ∧ l.port = port with
  | some listener => .ok listener.server
  | none => .error (.io "Connection refused")

/-- Changes the keys of a server. -/
def setKeys (net : Network) (server : Nat) (ks : Keyspace) : Network :=
  { net with nodes := net.nodes.modify server fun node => { node with keyspace := ks } }

theorem getElem?_setKeys (net : Network) (server i : Nat) (ks : Keyspace) :
    (net.setKeys server ks).nodes[i]? =
      if server = i then net.nodes[i]?.map fun node => { node with keyspace := ks }
      else net.nodes[i]? := by
  show (net.nodes.modify server _)[i]? = _
  rw [List.getElem?_modify]
  split <;> simp_all

/-- Answers a request to one of the servers. -/
def serve (net : Network) (server : Nat) (request : Request) :
    Except Fault (List Reply) × Network :=
  match net.nodes[server]? with
  | none => (.error (.io "Connection reset"), net)
  | some node =>
    let (answer, ks) := request.exec node.password node.keyspace
    (answer, net.setKeys server ks)

end Network

/-! ## Stages on which nothing is prepared -/

/-- A server in rehearsal without what is prepared. -/
def Rehearsal.node (r : Rehearsal) : Node := ⟨r.password, r.keyspace⟩

/-- Nothing is prepared for a server. -/
structure Rehearsal.Calm (r : Rehearsal) : Prop where
  faults : r.faults = []
  interventions : r.interventions = []

namespace Rehearsal

theorem Calm.exec {r : Rehearsal} (h : r.Calm) (command : Command) :
    r.exec command = ((Server.exec r.password command r.keyspace).1,
      { r with keyspace := (Server.exec r.password command r.keyspace).2 }) := by
  obtain ⟨password, keyspace, faults, interventions⟩ := r
  obtain ⟨rfl, rfl⟩ := h
  rfl

theorem Calm.execAll {r : Rehearsal} (h : r.Calm) (commands : List Command) :
    Server.execAll Rehearsal.exec commands r =
      ((Server.execAll (Server.exec r.password) commands r.keyspace).1,
        { r with
          keyspace := (Server.execAll (Server.exec r.password) commands r.keyspace).2 }) := by
  induction commands generalizing r with
  | nil => rfl
  | cons command rest ih =>
    have next := ih (r := { r with keyspace := (Server.exec r.password command r.keyspace).2 })
      ⟨h.faults, h.interventions⟩
    simp only [Server.execAll, h.exec, next]

/-- Without faults a transaction is executed like any other request. -/
theorem Calm.execRequest {r : Rehearsal} (h : r.Calm) (request : Request) :
    r.execRequest request =
      (.ok (Server.execAll (Server.exec r.password) request.commands r.keyspace).1,
        { r with keyspace := (request.exec r.password r.keyspace).2 }) := by
  have plain : r.execRequest request = (.ok (Server.execAll Rehearsal.exec request.commands r).1,
      (Server.execAll Rehearsal.exec request.commands r).2) := by
    obtain ⟨password, keyspace, faults, interventions⟩ := r
    obtain ⟨rfl, rfl⟩ := h
    cases request <;> rfl
  rw [plain, h.execAll]
  rfl

end Rehearsal

namespace Stage

/-- The servers of a stage, and where they can be reached. -/
def network (stage : Stage) : Network := ⟨stage.servers.map Rehearsal.node, stage.listeners⟩

theorem getElem?_network (stage : Stage) (i : Nat) :
    stage.network.nodes[i]? = stage.servers[i]?.map Rehearsal.node :=
  List.getElem?_map

/-- Where no server has keys, no server of the network has any. -/
theorem keyspace_network {stage : Stage} (empty : ∀ r ∈ stage.servers, r.keyspace = .empty)
    {i : Nat} {node : Node} (found : stage.network.nodes[i]? = some node) :
    node.keyspace = .empty := by
  rw [getElem?_network] at found
  obtain ⟨r, hr, rfl⟩ := Option.map_eq_some_iff.mp found
  exact empty r (List.mem_of_getElem? hr)

/-- Nothing is prepared for any server. -/
def Calm (stage : Stage) : Prop := ∀ r ∈ stage.servers, r.Calm

/-- For servers that were just started nothing is prepared, and they have no keys. -/
theorem calm_started {stage : Stage} {passwords : List String}
    (started : stage.servers = passwords.map .withPassword) :
    stage.Calm ∧ ∀ r ∈ stage.servers, r.keyspace = .empty := by
  unfold Calm
  rw [started]
  constructor
  · intro r hr
    obtain ⟨password, _, rfl⟩ := List.mem_map.mp hr
    exact ⟨rfl, rfl⟩
  · intro r hr
    obtain ⟨password, _, rfl⟩ := List.mem_map.mp hr
    rfl

/-- A stage on which nothing is prepared answers as its network does. -/
theorem Calm.serve {stage : Stage} (h : stage.Calm) (server : Nat) (request : Request) :
    (stage.serve server request).1 = (stage.network.serve server request).1 ∧
      (stage.serve server request).2.network = (stage.network.serve server request).2 ∧
      (stage.serve server request).2.Calm := by
  unfold Stage.serve Network.serve
  rw [getElem?_network]
  cases found : stage.servers[server]? with
  | none => exact ⟨rfl, rfl, h⟩
  | some r =>
    have calm := h r (List.mem_of_getElem? found)
    simp only [calm.execRequest, Option.map_some]
    refine ⟨rfl, ?_, ?_⟩
    · simp only [network, Stage.update, Network.setKeys, Network.mk.injEq, and_true]
      apply List.ext_getElem?
      intro i
      simp only [List.getElem?_map, List.getElem?_modify]
      by_cases heq : server = i
      · subst heq
        simp [found, Rehearsal.node]
      · simp [heq]
    · intro r' hr'
      simp only [Stage.update] at hr'
      obtain ⟨i, hi⟩ := List.mem_iff_getElem?.mp hr'
      rw [List.getElem?_modify] at hi
      by_cases heq : server = i
      · subst heq
        simp only [found, if_true] at hi
        obtain rfl := Option.some.inj hi
        exact ⟨calm.faults, calm.interventions⟩
      · simp only [heq, if_false] at hi
        exact h r' (List.mem_of_getElem? (by simpa using hi))

end Stage

end Server

namespace Remote

open Server (Network Stage)

instance : World Network := ⟨fun address port net => (net.dial address port, net),
  fun server request net => net.serve server request⟩

/-- A session runs on a stage on which nothing is prepared as it does on the network. -/
theorem Session.run_network {α : Type} (session : Session α) {stage : Stage} (h : stage.Calm) :
    (session.run World.host stage).1 = (session.run World.host stage.network).1 ∧
      (session.run World.host stage).2.network = (session.run World.host stage.network).2 ∧
      (session.run World.host stage).2.Calm := by
  induction session generalizing stage with
  | done a => exact ⟨rfl, rfl, h⟩
  | dial address port next ih => exact ih (stage.dial address port) h
  | send server request next ih =>
    obtain ⟨answer, after, calm⟩ := h.serve server request
    have rest := ih (stage.serve server request).1 calm
    rw [after, answer] at rest
    rw [show Session.run World.host (.send server request next) stage =
      (next (stage.serve server request).1).run World.host (stage.serve server request).2 from rfl,
      answer]
    exact rest

namespace Site

/-- A site on a stage, with its network instead. -/
def onNetwork (site : Site Stage) : Site Network := ⟨site.client, site.world.network⟩

theorem outcome_network {α : Type} (site : Site Stage) (h : site.world.Calm) (task : Task α) :
    (site.outcome task).mapState onNetwork = site.onNetwork.outcome task ∧
      (site.outcome task).state.world.Calm := by
  obtain ⟨client, stage⟩ := site
  change stage.Calm at h
  obtain ⟨answer, after, calm⟩ := Session.run_network (task.session client) h
  refine ⟨?_, calm⟩
  generalize ran : (task.session client).run World.host stage = result at answer after
  generalize ran' : (task.session client).run World.host stage.network = result' at answer after
  obtain ⟨⟨a, client'⟩, last⟩ := result
  obtain ⟨pair, last'⟩ := result'
  obtain rfl : (a, client') = pair := answer
  obtain rfl : last.network = last' := after
  simp only [outcome, Task.play, onNetwork, ran, ran', Outcome.mapState]

/-- A visit to a stage on which nothing is prepared is a visit to the network. -/
theorem visit_network (site : Site Stage) (h : site.world.Calm) (v : Visit) :
    (site.visit v).answer = (site.onNetwork.visit v).answer ∧
      (site.visit v).state.onNetwork = (site.onNetwork.visit v).state ∧
      (site.visit v).state.world.Calm := by
  obtain ⟨same, calm⟩ := site.outcome_network h (Remote.perform v.time.seconds v.call)
  exact ⟨congrArg Outcome.answer same, congrArg Outcome.state same, calm⟩

/-- Visits to a stage on which nothing is prepared are visits to the network. -/
theorem visits_network (site : Site Stage) (h : site.world.Calm) (vs : List Visit) :
    (site.visits vs).1 = (site.onNetwork.visits vs).1 ∧
      (site.visits vs).2.onNetwork = (site.onNetwork.visits vs).2 ∧
      (site.visits vs).2.world.Calm := by
  induction vs generalizing site with
  | nil => exact ⟨rfl, rfl, h⟩
  | cons v rest ih =>
    obtain ⟨answer, after, calm⟩ := site.visit_network h v
    obtain ⟨trace, last, calm'⟩ := ih (site.visit v).state calm
    rw [after] at trace last
    refine ⟨?_, last, calm'⟩
    show (_, (site.visit v).answer) :: _ = (_, (site.onNetwork.visit v).answer) :: _
    rw [answer, trace]

end Site

end Remote

/-! ## Lone clients -/

/-- A deployment is a lone client on a stage on which nothing is prepared; this is the client on the
network of the stage. -/
def Deployment.SeenAs (d : Deployment) (net : Remote.Site Server.Network) : Prop :=
  ∃ site last, d = .ofSite last site ∧ site.world.Calm ∧ site.onNetwork = net

namespace Deployment.SeenAs

variable {d : Deployment} {net : Remote.Site Server.Network}

theorem visit (h : d.SeenAs net) (v : Visit) :
    (d.visit v).answer = (net.visit v).answer ∧ (d.visit v).state.SeenAs (net.visit v).state := by
  obtain ⟨site, last, rfl, calm, rfl⟩ := h
  obtain ⟨answer, after, calm'⟩ := site.visit_network calm v
  rw [visit_ofSite]
  exact ⟨answer, (site.visit v).state, v.time, rfl, calm', after⟩

theorem visits (h : d.SeenAs net) (vs : List Visit) :
    (d.visits vs).2.SeenAs (net.visits vs).2 := by
  induction vs generalizing d net with
  | nil => exact h
  | cons v rest ih => exact ih (h.visit v).2

/-- The keys of the servers are those of the network. -/
theorem keyspace (h : d.SeenAs net) {i : Nat} {node : Server.Node}
    (found : net.world.nodes[i]? = some node) :
    ∃ r ∈ d.stage.servers, r.keyspace = node.keyspace := by
  obtain ⟨site, last, rfl, _, rfl⟩ := h
  change site.world.network.nodes[i]? = some node at found
  rw [Server.Stage.getElem?_network] at found
  obtain ⟨r, there, rfl⟩ := Option.map_eq_some_iff.mp found
  exact ⟨r, List.mem_of_getElem? there, rfl⟩

end Deployment.SeenAs

end SeriesStorage
