import SeriesStorage.Proofs.Deployment.HostedClient
import SeriesStorage.Proofs.Remote.ClusterPath
import SeriesStorage.Proofs.Remote.CoherentKeys

/-!
# Runs over both paths

A deployment and the same one with clusters behind all connections of its clients, side by side
(`Beside`): whatever happens, every call is answered the same and leaves the same keys on the
servers, as long as no command fails.

* `Beside.onBackend`: what one backend does.
* `Beside.visitAt`, `Beside.run`: calls, and events one after the other.
* `run_asClusters`: runs over connections with transactions and over connections without.
-/

namespace SeriesStorage

open Memory (Store)
open Remote (Fit Follows Site)
open Server (Stage)

/-! ## A client -/

/-- The second of two sites is the first one with clusters behind its connections, on servers that
hold the same. -/
structure Remote.Site.Beside (site site' : Site Stage) : Prop where
  client : site'.client = site.client.asClusters
  network : site'.world.network = site.world.network
  calm : site.world.Calm
  calm' : site'.world.Calm
  fit : Fit site.client

/-- **A task** does the same on both sites, unless a command fails. -/
theorem Remote.Site.Beside.outcome {α : Type} {site site' : Site Stage} {task : Remote.Task α}
    (h : site.Beside site') (follows : Follows CommandFailed id task task) :
    CommandFailed (site.outcome task).answer ∨
      (site'.outcome task).answer = (site.outcome task).answer ∧
        (site.outcome task).state.Beside (site'.outcome task).state := by
  obtain ⟨ran, calm⟩ := site.outcome_network h.calm task
  obtain ⟨ran', calm'⟩ := site'.outcome_network h.calm' task
  have beside : site'.onNetwork = site.onNetwork.asClusters := by
    unfold onNetwork asClusters
    rw [h.client, h.network]
  rcases follows site.onNetwork h.fit with failed | ⟨fit, same⟩
  · rw [← ran] at failed
    exact Or.inl failed
  · rw [← ran] at fit
    rw [beside, same, ← ran, Outcome.map_id] at ran'
    exact Or.inr ⟨(congrArg Outcome.answer ran' :), congrArg (·.state.client) ran',
      congrArg (·.state.world) ran', calm, calm', fit⟩

/-! ## Deployments with clusters -/

/-- The same backend with clusters behind its connections. -/
def Backend.asClusters : Backend → Backend
  | .memory store => .memory store
  | .remote client => .remote client.asClusters

def Participant.asClusters (p : Participant) : Participant :=
  { p with backend := p.backend.asClusters }

namespace Deployment

/-- The same deployment with clusters behind all connections. -/
def asClusters (d : Deployment) : Deployment :=
  { d with participants := d.participants.map Participant.asClusters }

/-- The second of two deployments has clusters behind its connections, and the servers hold the
same. -/
structure Beside (d d' : Deployment) : Prop where
  participants : d'.participants = d.participants.map Participant.asClusters
  network : d'.stage.network = d.stage.network
  calm : d.stage.Calm
  calm' : d'.stage.Calm
  now : d'.now = d.now
  reports : d'.reports = d.reports
  fit : ∀ p ∈ d.participants, ∀ client, p.backend = .remote client → Fit client

/-- Two outcomes agree, unless a command failed. -/
def Agree {α : Type} (outcome outcome' : Outcome Deployment α) : Prop :=
  CommandFailed outcome.answer ∨
    outcome'.answer = outcome.answer ∧ outcome.state.Beside outcome'.state

variable {α β : Type} {d d' : Deployment} {place : Nat}

namespace Agree

variable {outcome outcome' : Outcome Deployment α}

theorem map (h : Agree outcome outcome') (f : α → β) : Agree (outcome.map f) (outcome'.map f) := by
  rcases h with ⟨e, failed, ofCommand⟩ | ⟨same, beside⟩
  · refine Or.inl ⟨e, ?_, ofCommand⟩
    rw [Outcome.answer_map, failed]
    rfl
  · exact Or.inr ⟨congrArg (Except.map f) same, beside⟩

theorem andThen (h : Agree outcome outcome') {next next' : α → Deployment → Outcome Deployment β}
    (after : ∀ a d d', Beside d d' → Agree (next a d) (next' a d')) :
    Agree (outcome.andThen next) (outcome'.andThen next') := by
  rcases h with ⟨e, failed, ofCommand⟩ | ⟨same, beside⟩
  · rw [Outcome.andThen_eq_of_error failed]
    exact Or.inl ⟨e, rfl, ofCommand⟩
  · cases answer : outcome.answer with
    | ok a =>
      rw [Outcome.andThen_eq_of_ok answer, Outcome.andThen_eq_of_ok (same.trans answer)]
      exact after a _ _ beside
    | error e =>
      rw [Outcome.andThen_eq_of_error answer, Outcome.andThen_eq_of_error (same.trans answer)]
      exact Or.inr ⟨rfl, beside⟩

end Agree

/-- One of the backends changes in both deployments. -/
theorem map_asClusters_modify {f f' : Participant → Participant}
    (same : ∀ p, (f p).asClusters = f' p.asClusters) (participants : List Participant)
    (place : Nat) : (participants.modify place f).map Participant.asClusters =
      (participants.map Participant.asClusters).modify place f' := by
  apply List.ext_getElem?
  intro k
  simp only [List.getElem?_map, List.getElem?_modify]
  cases participants[k]? with
  | none => rfl
  | some p =>
    simp only [Option.map_some]
    split
    · exact congrArg some (same p)
    · rfl

namespace Beside

variable (h : Beside d d')

include h

theorem getElem? (place : Nat) :
    d'.participants[place]? = d.participants[place]?.map Participant.asClusters := by
  rw [h.participants, List.getElem?_map]

/-! ## Calls of one backend -/

/-- The backends at a place change into ones beside each other. -/
theorem setBackend {backend : Backend} (fit : ∀ client, backend = .remote client → Fit client)
    (place : Nat) :
    Beside (d.setBackend place backend) (d'.setBackend place backend.asClusters) where
  participants := by
    show d'.participants.modify place _ = (d.participants.modify place _).map _
    rw [h.participants]
    refine (map_asClusters_modify ?_ d.participants place).symm
    exact fun _ => rfl
  network := h.network
  calm := h.calm
  calm' := h.calm'
  now := h.now
  reports := h.reports
  fit := by
    intro p inside client remote
    obtain ⟨k, there⟩ := List.mem_iff_getElem?.mp inside
    rw [get?_setBackend, Option.map_eq_some_iff] at there
    obtain ⟨p', there, rfl⟩ := there
    split at remote
    · exact fit client remote
    · exact h.fit p' (List.mem_of_getElem? there) client remote

/-- The servers change into ones that hold the same. -/
theorem setStage {stage stage' : Stage} (network : stage'.network = stage.network)
    (calm : stage.Calm) (calm' : stage'.Calm) :
    Beside { d with stage } { d' with stage := stage' } :=
  ⟨h.participants, network, calm, calm', h.now, h.reports, h.fit⟩

theorem setTime (now : Instant) : Beside (d.setTime now) (d'.setTime now) :=
  ⟨h.participants, h.network, h.calm, h.calm', rfl, h.reports, h.fit⟩

theorem report (refs : List SeriesRef) : Beside (d.report refs) (d'.report refs) :=
  ⟨h.participants, h.network, h.calm, h.calm', h.now, congrArg (· ++ [refs]) h.reports, h.fit⟩

/-- **What one backend does.** -/
theorem onBackend {task : Remote.Task α} (follows : Follows CommandFailed id task task)
    (memory : Store → Outcome Store α) (place : Nat) :
    Agree (d.onBackend place memory task) (d'.onBackend place memory task) := by
  have there := h.getElem? place
  cases here : d.participants[place]? with
  | none =>
    rw [here] at there
    unfold Deployment.onBackend
    rw [here, there]
    exact Or.inr ⟨rfl, h⟩
  | some p =>
    rw [here] at there
    obtain ⟨backend, link⟩ := p
    cases backend with
    | memory store =>
      rw [(onBackend_memory here _ _).1, (onBackend_memory there _ _).1]
      exact Or.inr ⟨rfl, h.setBackend (fun _ same => by cases same) place⟩
    | remote client =>
      rw [onBackend_remote here, onBackend_remote there]
      have beside : Site.Beside ⟨client, d.stage⟩ ⟨client.asClusters, d'.stage⟩ :=
        ⟨rfl, h.network, h.calm, h.calm', h.fit _ (List.mem_of_getElem? here) client rfl⟩
      refine (beside.outcome follows).imp_right fun ⟨same, after⟩ => ⟨same, ?_⟩
      rw [after.client]
      exact (h.setBackend (fun _ same => Backend.remote.inj same ▸ after.fit) place).setStage
        after.network after.calm after.calm'

theorem delete (place : Nat) (refs : List SeriesRef) :
    Agree (d.delete place refs) (d'.delete place refs) :=
  h.onBackend (Follows.delete refs) _ place

/-! ## Expired series -/

theorem expire (place : Nat) (ref : SeriesRef) :
    Agree (d.expire place ref) (d'.expire place ref) := by
  have linked : d'.participants[place]?.bind (·.link) = d.participants[place]?.bind (·.link) := by
    rw [h.getElem?]
    cases d.participants[place]? <;> rfl
  unfold Deployment.expire
  rw [linked]
  split
  · next deleter _ =>
    cases deleter with
    | backend k => exact (h.report [ref]).delete k [ref]
    | failing e => exact Or.inr ⟨rfl, h.report [ref]⟩
    | idle => exact Or.inr ⟨rfl, h.report [ref]⟩
  · exact h.delete place [ref]

theorem guarded (place : Nat) (ref : SeriesRef)
    {act : SeriesMetadata → Deployment → Outcome Deployment α}
    (acts : ∀ m d d', Beside d d' → Agree (act m d) (act m d')) :
    Agree (d.guarded place ref act) (d'.guarded place ref act) := by
  unfold Deployment.guarded
  have accessed : Agree (d.access place ref) (d'.access place ref) := by
    unfold Deployment.access
    rw [h.now]
    exact h.onBackend (Follows.access d.now.seconds ref).weaken _ place
  refine accessed.andThen fun found d d' h => ?_
  cases found with
  | live m => exact acts m d d' h
  | unknown => exact Or.inr ⟨rfl, h⟩
  | expired m => exact (h.expire place ref).andThen fun _ _ _ h => Or.inr ⟨rfl, h⟩

/-! ## Runs -/

/-- **A call** of one of the backends. -/
theorem visitAt (place : Nat) (v : Visit) : Agree (d.visitAt place v) (d'.visitAt place v) := by
  obtain ⟨time, call⟩ := v
  unfold Deployment.visitAt
  have h := h.setTime time
  cases call with
  | write ref req draws times values =>
    exact h.guarded place ref fun m d d' h =>
      (h.onBackend (Follows.append ref.ns req m draws times values) _ place).map _
  | read ref window =>
    exact h.guarded place ref fun m d d' h => (h.onBackend (Follows.fetch ref window) _ place).map _
  | _ => exact h.onBackend (Follows.perform time.seconds _) _ place

theorem setLink (place : Nat) (link : Link) :
    Beside (d.setLink place link) (d'.setLink place link) where
  participants := by
    show d'.participants.modify place _ = (d.participants.modify place _).map _
    rw [h.participants]
    refine (map_asClusters_modify ?_ d.participants place).symm
    exact fun _ => rfl
  network := h.network
  calm := h.calm
  calm' := h.calm'
  now := h.now
  reports := h.reports
  fit := by
    intro p inside client remote
    obtain ⟨k, there⟩ := List.mem_iff_getElem?.mp inside
    rw [get?_setLink, Option.map_eq_some_iff] at there
    obtain ⟨p', there, rfl⟩ := there
    refine h.fit p' (List.mem_of_getElem? there) client ?_
    split at remote <;> exact remote

/-- **A run**: every call is answered the same, if no command fails. -/
theorem run (events : List Event)
    (executed : ∀ entry ∈ (d.run events).1, ¬ CommandFailed entry.2.2) :
    (d'.run events).1 = (d.run events).1 ∧ Beside (d.run events).2 (d'.run events).2 := by
  induction events generalizing d d' with
  | nil => exact ⟨rfl, h⟩
  | cons event rest ih =>
    cases event with
    | link place link => exact ih (h.setLink place link) executed
    | call place v =>
      obtain ⟨same, beside⟩ := (h.visitAt place v).resolve_left
        (executed _ List.mem_cons_self)
      obtain ⟨trace, last⟩ := ih beside fun entry inside =>
        executed entry (List.mem_cons_of_mem _ inside)
      refine ⟨?_, last⟩
      show (place, v, (d'.visitAt place v).answer) :: ((d'.visitAt place v).state.run rest).1 =
        (place, v, (d.visitAt place v).answer) :: ((d.visitAt place v).state.run rest).1
      rw [same, trace]

end Beside

/-- **Both paths agree.**  Take any deployment, with whatever keys on its servers, and a run in which
no answer says that a command failed.  With clusters behind all connections, so that writes are no
transactions and reads no pipelines any more, every call of the run is answered the same, also by
the error that points were not counted as expected, and all servers hold the same at the end.

Answers tell of all commands that fail but for the release of a lock, which is one command on either
path.  A client that still has to connect needs some time for it: with none there is no connection
to a server, but there is one to a cluster. -/
theorem run_asClusters (d : Deployment) (calm : d.stage.Calm)
    (fit : ∀ p ∈ d.participants, ∀ client, p.backend = .remote client → Fit client)
    (events : List Event) (executed : ∀ entry ∈ (d.run events).1, ¬ CommandFailed entry.2.2) :
    (d.asClusters.run events).1 = (d.run events).1 ∧
      ∀ i : Nat, (d.asClusters.run events).2.stage.servers[i]?.map (·.keyspace) =
        (d.run events).2.stage.servers[i]?.map (·.keyspace) := by
  have beside : d.Beside d.asClusters := ⟨rfl, rfl, calm, calm, rfl, rfl, fit⟩
  obtain ⟨trace, last⟩ := beside.run events executed
  refine ⟨trace, fun i => ?_⟩
  have same := congrArg (fun net => net.nodes[i]?.map (·.keyspace)) last.network
  rwa [Stage.getElem?_network, Stage.getElem?_network, Option.map_map, Option.map_map] at same

/-- A point of a series that expires is written at once, and once more under a request: the set has
it already when the request is flushed. -/
def repeatedRun : List Event :=
  let write (req : RequestId) : Call :=
    .write ⟨⟨0⟩, ⟨1⟩⟩ req (fun _ _ => .zero) [5] [.ofUInt64 3]
  [.call 0 ⟨⟨0⟩, .connect⟩,
    .call 0 ⟨⟨0⟩, .create (fun _ => ⟨"token", 0⟩) [(⟨1⟩, ⟨⟨0⟩, "load", ["a"], some 100⟩)]⟩,
    .call 0 ⟨⟨0⟩, write ⟨""⟩⟩,
    .call 0 ⟨⟨0⟩, write ⟨"one"⟩⟩,
    .call 0 ⟨⟨0⟩, .flush ⟨"one"⟩⟩,
    .call 0 ⟨⟨0⟩, .read ⟨⟨0⟩, ⟨1⟩⟩ ⟨0, 10⟩⟩]

/-- On both paths no new point is counted when the request is flushed, and one is read. -/
theorem run_asClusters_repeated :
    let d := lone (.remote (.ofOptions Remote.sharedOptions)) Remote.sharedServer ⟨0⟩
    (d.asClusters.run repeatedRun).1 = (d.run repeatedRun).1 ∧
      (d.asClusters.run repeatedRun).1.map (·.2.2) =
        [.ok .done, .ok (.created [⟨⟨1⟩, ⟨1⟩, true⟩]), .ok .done, .ok .done,
          .error (.internal (.writeCount 1 0)), .ok (.points [⟨5, .ofUInt64 3⟩])] := by
  have calm : Remote.sharedServer.Calm :=
    (Stage.calm_started (show Remote.sharedServer.servers = [""].map .withPassword from rfl)).1
  have fit : ∀ p ∈ (lone (.remote (.ofOptions Remote.sharedOptions)) Remote.sharedServer
      ⟨0⟩).participants, ∀ client, p.backend = .remote client → Fit client := by
    intro p inside client remote
    obtain rfl := List.mem_singleton.mp inside
    obtain rfl := Backend.remote.inj remote
    exact Remote.fit_ofOptions (by decide)
  exact ⟨(run_asClusters _ calm fit repeatedRun (by decide +kernel)).1, by decide +kernel⟩

end Deployment

end SeriesStorage
