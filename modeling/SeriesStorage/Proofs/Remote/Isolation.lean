import SeriesStorage.Proofs.Remote.BackedCache
import SeriesStorage.Proofs.Remote.CoherentKeys

/-!
# Isolation of namespaces

Take a run in which every call concerns one namespace, and leave out all that concerns one of them.
What is left is answered as before, and the keys of all other namespaces hold the same at the end.

The two runs are compared call by call.  Between calls the sites are alike (`Alike`): the servers
agree on all keys but those of the namespace, what is staged is the same but for the namespace, and
both caches are backed, so it does not matter that they keep different descriptors.

* `Alike.others`, `Alike.own`: what a call on another namespace and a call on the namespace leave.
* `visits_isolated`: no namespace interferes with the others.
-/

namespace SeriesStorage

namespace Remote

open Server (Command Network Request Stage)

/-! ## What is staged for the other namespaces -/

namespace Pending

theorem under_stage (p : Pending) (req req' : RequestId) (ns : Namespace)
    (more : List StagedCommand) :
    (p.stage req ns more).under req' =
      if req = req' then (p.under req).insert ns (((p.under req).get? ns).getD [] ++ more)
      else p.under req' := by
  show ((p.requests.insert req _).get? req').getD .empty = _
  rw [Table.get?_insert]
  split <;> rfl

theorem under_remove (p : Pending) (req req' : RequestId) :
    (p.remove req).under req' = if req = req' then .empty else p.under req' := by
  unfold under
  rw [writes?_remove]
  split <;> rfl

/-- The second of two buffers holds what the first one does, but for a namespace. -/
def Sheds (A : Namespace) (p p' : Pending) : Prop := ∀ req, p'.under req = (p.under req).erase A

namespace Sheds

variable {A : Namespace} {p p' : Pending} (h : Sheds A p p')

include h

theorem stage (req : RequestId) {ns : Namespace} (apart : ns ≠ A) (more : List StagedCommand) :
    Sheds A (p.stage req ns more) (p'.stage req ns more) := by
  intro req'
  rw [under_stage, under_stage]
  split
  · rw [Table.erase_insert_of_ne _ apart, h req, Table.get?_erase, if_neg (Ne.symm apart)]
  · exact h req'

theorem stage_own (req : RequestId) (more : List StagedCommand) :
    Sheds A (p.stage req A more) p' := by
  intro req'
  rw [under_stage]
  split
  · next same => rw [← same, Table.erase_insert_self, h req]
  · exact h req'

theorem remove (req : RequestId) : Sheds A (p.remove req) (p'.remove req) := by
  intro req'
  rw [under_remove, under_remove]
  split
  · rfl
  · exact h req'

/-- A request under which nothing else is staged. -/
theorem remove_own {req : RequestId} (only : p.OnlyOf A req) : Sheds A (p.remove req) p' := by
  intro req'
  rw [under_remove]
  split
  · next same =>
    rw [← same, h req]
    exact Table.erase_of_forall_eq only
  · exact h req'

/-- A request under which only another namespace has something staged. -/
theorem writes?_eq (staged : WellStaged p) (staged' : WellStaged p') {req : RequestId}
    {ns : Namespace} (apart : ns ≠ A) (only : p.OnlyOf ns req) :
    p.writes? req = p'.writes? req := by
  have same : p'.under req = p.under req := by
    rw [h req]
    refine Table.erase_of_forall_ne fun entry inside => ?_
    rw [only entry inside]
    exact apart
  unfold under at same
  cases found : p.writes? req with
  | none =>
    cases found' : p'.writes? req with
    | none => rfl
    | some writes' =>
      rw [found, found'] at same
      exact absurd (congrArg Table.entries same) (staged'.nonempty req writes' found')
  | some writes =>
    cases found' : p'.writes? req with
    | none =>
      rw [found, found'] at same
      exact absurd (congrArg Table.entries same).symm (staged.nonempty req writes found)
    | some writes' =>
      rw [found, found'] at same
      exact congrArg some same.symm

end Sheds

end Pending

/-! ## Sites that are alike -/

/-- The second of two sites is like the first one, but for a namespace. -/
structure Alike (A : Namespace) (site site' : Site Network) : Prop where
  options : site.client.options = site'.client.options
  connections : site.client.connections = site'.client.connections
  world : site.world.AgreesOn (fun key => ¬ Owned A key) site'.world
  pending : site.client.pending.Sheds A site'.client.pending
  staged : WellStaged site.client.pending
  staged' : WellStaged site'.client.pending

/-- Sites that are alike, with backed caches. -/
structure Coupled (A : Namespace) (site site' : Site Network) : Prop where
  alike : Alike A site site'
  backed : CacheBacked site
  backed' : CacheBacked site'

namespace Alike

variable {A ns : Namespace}

/-! ### Calls on another namespace -/

theorem carries (apart : ns ≠ A) : Carries ns (Alike A) where
  options := fun _ _ alike => alike.options
  connections := fun _ _ alike => alike.connections
  asked := by
    intro server r within site site' alike
    obtain ⟨answer, after⟩ := Server.Network.serve_agree alike.world server r
      fun command inside => (within command inside).not_owned apart
    exact ⟨congrArg Except.ok answer, alike.options, alike.connections, after, alike.pending,
      alike.staged, alike.staged'⟩
  cached := fun f => .changes fun site site' alike =>
    ⟨alike.options, alike.connections, alike.world, alike.pending, alike.staged, alike.staged'⟩
  staged := fun _ _ alike => alike.staged
  writes := fun _ _ alike req only =>
    alike.pending.writes?_eq alike.staged alike.staged' apart only
  stage := fun req commands stages => .changes fun site site' alike =>
    ⟨alike.options, alike.connections, alike.world, alike.pending.stage req apart commands,
      alike.staged.stage req stages, alike.staged'.stage req stages⟩
  remove := fun req => .changes fun site site' both =>
    ⟨both.1.options, both.1.connections, both.1.world, both.1.pending.remove req,
      both.1.staged.remove req, both.1.staged'.remove req⟩

/-- Changed caches do not matter. -/
theorem onCaches {site site' : Site Network} (alike : Alike A site site') (cache cache' : Cache) :
    Alike A { site with client := { site.client with cache } }
      { site' with client := { site'.client with cache := cache' } } :=
  ⟨alike.options, alike.connections, alike.world, alike.pending, alike.staged, alike.staged'⟩

theorem looks (apart : ns ≠ A) : Looks ns (Coupled A) (Alike A) where
  between := fun _ _ coupled => coupled.alike
  named := by
    rintro connections n site site' ⟨coupled, own⟩
    have unchanged : ∀ s : Site Network, (s.outcome (lookupName connections ns n)).state = s :=
      fun s => Preserves.bind (Preserves.ask_get s _ _ _ _) (fun _ => Preserves.pure _) s rfl
    rw [unchanged, unchanged]
    exact ⟨((carries apart).lookupName connections n site site' coupled.alike).1, coupled, own⟩
  looked := by
    rintro connections ref rfl site site' ⟨coupled, own⟩
    obtain ⟨cache, found, backed⟩ := outcome_cachedMetadata coupled.backed own ref
    obtain ⟨cache', found', backed'⟩ := outcome_cachedMetadata coupled.backed'
      (coupled.alike.connections.symm.trans own) ref
    rw [found, found']
    refine ⟨loadMetadata_agree coupled.alike.world (fun owned => ?_) connections,
      coupled.alike.onCaches cache cache', backed, backed'⟩
    exact apart (Owned.unique ⟨.descriptor ref, rfl, rfl⟩ owned)

/-- **A call on another namespace** is answered the same on both sites. -/
theorem other (apart : ns ≠ A) {site site' : Site Network} (coupled : Coupled A site site')
    (v : Visit) (concerns : v.call.Concerns site.client.pending ns)
    (accepted : ¬ Refuses (site.visit v).answer) :
    (site.visit v).answer = (site'.visit v).answer ∧
      Coupled A (site.visit v).state (site'.visit v).state := by
  obtain ⟨same, alike⟩ := (carries apart).perform (looks apart) v.time.seconds v.call site site'
    ⟨coupled, concerns⟩
  have concerns' : v.call.Concerns site'.client.pending ns := by
    obtain ⟨time, call⟩ := v
    cases call with
    | flush req =>
      have equal := coupled.alike.pending.writes?_eq coupled.alike.staged coupled.alike.staged'
        apart concerns
      have same : site'.client.pending.under req = site.client.pending.under req :=
        congrArg (·.getD .empty) equal.symm
      exact fun entry inside => concerns entry (by rwa [← same])
    | _ => exact concerns
  have backed := leads_perform ns v.time.seconds v.call site
    ⟨coupled.backed, coupled.alike.staged, concerns⟩
  have backed' := leads_perform ns v.time.seconds v.call site'
    ⟨coupled.backed', coupled.alike.staged', concerns'⟩
  exact ⟨same, alike, backed.resolve_right accepted,
    backed'.resolve_right fun refused => accepted (same ▸ refused)⟩

/-! ### Calls on the namespace -/

variable {last : Site Network}

theorem carries_own : Carries A fun site site' => site = site' ∧ Alike A site last where
  options := by
    rintro site _ ⟨rfl, _⟩
    rfl
  connections := by
    rintro site _ ⟨rfl, _⟩
    rfl
  asked := by
    rintro server r within site _ ⟨rfl, alike⟩
    have left := site.world.serve_leaves server r (P := fun key => ¬ Owned A key)
      fun command inside key foreign changes =>
        foreign ((within command inside).named key
          (changes.mem_keys (within command inside).kept))
    exact ⟨rfl, rfl, alike.options, alike.connections, left.symm.trans alike.world, alike.pending,
      alike.staged, alike.staged'⟩
  cached := fun f => .changes <| by
    rintro site _ ⟨rfl, alike⟩
    exact ⟨rfl, alike.options, alike.connections, alike.world, alike.pending, alike.staged,
      alike.staged'⟩
  staged := fun _ _ both => both.2.staged
  writes := by
    rintro site _ ⟨rfl, _⟩ _ _
    rfl
  stage := fun req commands stages => .changes <| by
    rintro site _ ⟨rfl, alike⟩
    exact ⟨rfl, alike.options, alike.connections, alike.world, alike.pending.stage_own req commands,
      alike.staged.stage req stages, alike.staged'⟩
  remove := fun req => .changes <| by
    rintro site _ ⟨⟨rfl, alike⟩, only⟩
    exact ⟨rfl, alike.options, alike.connections, alike.world, alike.pending.remove_own only,
      alike.staged.remove req, alike.staged'⟩

theorem looks_own : Looks A (fun site site' => site = site' ∧ Coupled A site last)
    (fun site site' => site = site' ∧ Alike A site last) where
  between := fun _ _ both => ⟨both.1, both.2.alike⟩
  named := by
    rintro connections n site _ ⟨⟨rfl, coupled⟩, own⟩
    have unchanged : (site.outcome (lookupName connections A n)).state = site :=
      Preserves.bind (Preserves.ask_get site _ _ _ _) (fun _ => Preserves.pure _) site rfl
    rw [unchanged]
    exact ⟨rfl, ⟨rfl, coupled⟩, own⟩
  looked := by
    rintro connections ref _ site _ ⟨⟨rfl, coupled⟩, own⟩
    obtain ⟨cache, found, backed⟩ := outcome_cachedMetadata coupled.backed own ref
    rw [found]
    exact ⟨rfl, rfl, coupled.alike.onCaches cache last.client.cache, backed, coupled.backed'⟩

/-- **A call on the namespace** leaves the sites alike. -/
theorem own {site : Site Network} (coupled : Coupled A site last) (v : Visit)
    (concerns : v.call.Concerns site.client.pending A)
    (accepted : ¬ Refuses (site.visit v).answer) : Coupled A (site.visit v).state last := by
  obtain ⟨_, _, alike⟩ := carries_own.perform looks_own v.time.seconds v.call site site
    ⟨⟨rfl, coupled⟩, concerns⟩
  have backed := leads_perform A v.time.seconds v.call site
    ⟨coupled.backed, coupled.alike.staged, concerns⟩
  exact ⟨alike, backed.resolve_right accepted, coupled.backed'⟩

end Alike

/-! ## Connecting -/

namespace Relates

section Connecting

variable {R : Site Network → Site Network → Prop}
  (asked : ∀ server (command : Command), command.keys = [] → command ≠ .flush →
    Relates R R (request server (.single command)))

include asked

theorem pingAll (connections : Connections) : Relates R R (Remote.pingAll connections) := by
  induction connections with
  | nil => exact pure _
  | cons entry rest ih =>
    refine bind (asked _ _ rfl nofun) fun answer => ?_
    cases answer with
    | error fault => exact throw _
    | ok replies => exact ih

variable (dialled : ∀ address port, Relates R R (Task.ofSession (.dial address port .done)))

include dialled

theorem openConnection (options : Options) (details : ConnectionDetails) :
    Relates R R (Remote.openConnection options details) := by
  unfold Remote.openConnection
  split
  · exact pure _
  · refine bind (dialled _ _) fun reached => ?_
    cases reached with
    | error fault => exact pure _
    | ok server =>
      refine ite_bind (asked server _ rfl nofun) (fun selected answer => ?_) ?_
      · cases answer with
        | error fault => exact pure _
        | ok replies => exact selected
      · refine ite_bind (asked server _ rfl nofun) (fun timed answer => ?_) ?_
        · cases answer with
          | error fault => exact pure _
          | ok replies => exact timed
        · dsimp only
          split <;> exact pure _

theorem openConnections (options : Options) (entries : List (Namespace × ConnectionDetails)) :
    Relates R R (Remote.openConnections options entries) := by
  induction entries with
  | nil => exact pure _
  | cons entry rest ih =>
    refine ite_bind (throw _) (fun opened _ => opened) ?_
    refine bind (openConnection asked dialled options entry.2) fun answer => ?_
    cases answer with
    | error fault => exact throw _
    | ok connection => exact bind ih fun _ => pure _

/-- Two clients with the same options and connections connect in the same way. -/
theorem connect (options : ∀ site site', R site site' → site.client.options = site'.client.options)
    (connections : ∀ site site', R site site' →
      site.client.connections = site'.client.connections)
    (kept : ∀ connections, Relates R R
      (modify fun client => { client with connections := some connections } : Task Unit)) :
    Relates R R Remote.connect := by
  refine bind (get_bind fun site site' related => ?_) fun _ => pingAll asked _
  rw [options site site' related, connections site site' related]
  refine ⟨rfl, ?_⟩
  cases site'.client.connections with
  | some own => exact pure _
  | none =>
    exact bind (openConnections asked dialled _ _) fun _ => bind (kept _) fun _ => pure _

end Connecting

end Relates

/-- Connecting keeps the cache backed: while a client is not connected its cache is empty. -/
theorem Backs.connect : Preserves CacheBacked Remote.connect := by
  intro site backed
  cases own : site.client.connections with
  | some connections =>
    rw [outcome_connect own]
    exact Preserves.pingAll Backs.keylessRequest connections site backed
  | none =>
    have empty : ∀ ref, site.client.cache.get? ref = none := by
      intro ref
      cases found : site.client.cache.get? ref with
      | none => rfl
      | some m =>
        obtain ⟨_, here, _⟩ := backed ref m found
        exact absurd (own.symm.trans here) nofun
    have stays := Preserves.connect
      (I := fun s : Site Network => ∀ ref, s.client.cache.get? ref = none)
      (fun _ _ _ h => h) (fun _ _ _ _ h => h) (fun _ _ h => h) site empty
    intro ref m found
    rw [stays ref] at found
    cases found

theorem Coupled.connect {A : Namespace} {site site' : Site Network} (coupled : Coupled A site site')
    (time : Instant) :
    (site.visit ⟨time, .connect⟩).answer = (site'.visit ⟨time, .connect⟩).answer ∧
      Coupled A (site.visit ⟨time, .connect⟩).state (site'.visit ⟨time, .connect⟩).state := by
  have related : Relates (Alike A) (Alike A) Remote.connect := by
    refine Relates.connect (fun server command named kept => ?_) (fun address port => ?_)
      (fun _ _ alike => alike.options) (fun _ _ alike => alike.connections) fun connections => ?_
    · intro s s' alike
      obtain ⟨answer, after⟩ := Server.Network.serve_agree alike.world server
        (.single command) fun c inside key hkey => by
          obtain rfl := List.mem_singleton.mp inside
          rw [named] at hkey
          cases hkey
      exact ⟨congrArg Except.ok answer, alike.options, alike.connections, after, alike.pending,
        alike.staged, alike.staged'⟩
    · intro s s' alike
      refine ⟨congrArg Except.ok ?_, alike⟩
      show s.world.dial address port = s'.world.dial address port
      unfold Server.Network.dial
      rw [alike.world.listeners]
    · exact .changes fun s s' alike => ⟨alike.options, rfl, alike.world, alike.pending,
        alike.staged, alike.staged'⟩
  obtain ⟨same, alike⟩ := (Relates.bind related fun _ => .pure Answer.done) site site' coupled.alike
  exact ⟨same, alike, Preserves.bind Backs.connect (fun _ => .pure _) site coupled.backed,
    Preserves.bind Backs.connect (fun _ => .pure _) site' coupled.backed'⟩

end Remote

/-! ## Runs -/

open Remote (Pending Refuses Site)
open Server (Network Stage)

/-- Whether a call connects. -/
def Call.isConnect : Call → Bool
  | .connect => true
  | _ => false

/-- A visit with the namespace that it concerns; a visit that connects concerns none. -/
structure Operation where
  ns : Option Namespace
  visit : Visit

namespace Operation

/-- A visit concerns the namespace and no other, where so much waits for a flush. -/
def Fits (o : Operation) (pending : Pending) : Prop :=
  match o.ns with
  | none => o.visit.call.isConnect = true
  | some ns => o.visit.call.Concerns pending ns

instance (pending : Pending) : (o : Operation) → Decidable (o.Fits pending)
  | ⟨none, visit⟩ => inferInstanceAs (Decidable (visit.call.isConnect = true))
  | ⟨some ns, visit⟩ => inferInstanceAs (Decidable (visit.call.Concerns pending ns))

/-- Operations on other namespaces. -/
def without (A : Namespace) (run : List Operation) : List Operation :=
  run.filter fun o => o.ns ≠ some A

/-- The entries of a trace that are about operations on other namespaces. -/
def traceWithout (A : Namespace) (run : List Operation) (trace : Trace) : Trace :=
  ((run.zip trace).filter fun e => e.1.ns ≠ some A).map (·.2)

end Operation

open Operation (traceWithout without)

namespace Deployment

/-- What waits for a flush with the first backend. -/
def staged (d : Deployment) : Pending :=
  match d.participants with
  | ⟨.remote client, _⟩ :: _ => client.pending
  | _ => .empty

/-- Every operation of a run concerns one namespace. -/
def Separate (d : Deployment) : List Operation → Prop
  | [] => True
  | o :: rest => o.Fits d.staged ∧ (d.visit o.visit).state.Separate rest

/-- Separation is decided along the run. -/
def decidableSeparate (d : Deployment) : (run : List Operation) → Decidable (d.Separate run)
  | [] => inferInstanceAs (Decidable True)
  | o :: rest =>
    have := (d.visit o.visit).state.decidableSeparate rest
    inferInstanceAs (Decidable (o.Fits d.staged ∧ (d.visit o.visit).state.Separate rest))

instance (d : Deployment) (run : List Operation) : Decidable (d.Separate run) :=
  d.decidableSeparate run

end Deployment

namespace Remote

/-- Every operation of a run on a network concerns one namespace. -/
def Site.Separate (site : Site Network) : List Operation → Prop
  | [] => True
  | o :: rest => o.Fits site.client.pending ∧ (site.visit o.visit).state.Separate rest

theorem Site.separate_onNetwork {site : Site Stage} (calm : site.world.Calm) {now : Instant}
    {run : List Operation} (h : (Deployment.ofSite now site).Separate run) :
    site.onNetwork.Separate run := by
  induction run generalizing site now with
  | nil => exact trivial
  | cons o rest ih =>
    obtain ⟨fits, separate⟩ := h
    obtain ⟨first, calm'⟩ := site.outcome_network calm
      (Remote.perform o.visit.time.seconds o.visit.call)
    have after : (site.visit o.visit).state.onNetwork = (site.onNetwork.visit o.visit).state :=
      congrArg Outcome.state first
    rw [Deployment.visit_ofSite] at separate
    exact ⟨fits, after ▸ @ih (site.visit o.visit).state calm' o.visit.time separate⟩

/-- **One operation.**  It is left out if it is on the namespace. -/
theorem Coupled.step {A : Namespace} {site site' : Site Network} (coupled : Coupled A site site')
    {o : Operation} (fits : o.Fits site.client.pending)
    (accepted : ¬ Refuses (site.visit o.visit).answer) :
    (o.ns = some A ∧ Coupled A (site.visit o.visit).state site') ∨
    (o.ns ≠ some A ∧ (site.visit o.visit).answer = (site'.visit o.visit).answer ∧
      Coupled A (site.visit o.visit).state (site'.visit o.visit).state) := by
  obtain ⟨ns, time, call⟩ := o
  cases ns with
  | none =>
    cases call with
    | connect => exact Or.inr ⟨nofun, coupled.connect time⟩
    | _ => cases fits
  | some ns =>
    by_cases same : ns = A
    · subst same
      exact Or.inl ⟨rfl, Alike.own coupled _ fits accepted⟩
    · exact Or.inr ⟨fun h => same (Option.some.inj h), Alike.other same coupled _ fits accepted⟩

/-- **A run** without the operations on a namespace. -/
theorem Coupled.visits {A : Namespace} {site site' : Site Network} (coupled : Coupled A site site')
    (run : List Operation) (separate : site.Separate run)
    (accepted : ∀ e ∈ (site.visits (run.map (·.visit))).1, ¬ Refuses e.2) :
    traceWithout A run (site.visits (run.map (·.visit))).1 =
        (site'.visits ((without A run).map (·.visit))).1 ∧
      Coupled A (site.visits (run.map (·.visit))).2
        (site'.visits ((without A run).map (·.visit))).2 := by
  induction run generalizing site site' with
  | nil => exact ⟨rfl, coupled⟩
  | cons o rest ih =>
    obtain ⟨fits, separate⟩ := separate
    have later : ∀ e ∈ ((site.visit o.visit).state.visits (rest.map (·.visit))).1,
        ¬ Refuses e.2 := fun e inside => accepted e (List.mem_cons_of_mem _ inside)
    rcases coupled.step fits (accepted _ List.mem_cons_self)
      with ⟨own, after⟩ | ⟨other, same, after⟩
    · obtain ⟨trace, last⟩ := ih after separate later
      have left : without A (o :: rest) = without A rest := by simp [without, own]
      have entries : ∀ e trace', traceWithout A (o :: rest) (e :: trace') =
          traceWithout A rest trace' := by simp [traceWithout, own]
      rw [left]
      exact ⟨(entries _ _).trans trace, last⟩
    · obtain ⟨trace, last⟩ := ih after separate later
      have left : without A (o :: rest) = o :: without A rest := by simp [without, other]
      have entries : ∀ e trace', traceWithout A (o :: rest) (e :: trace') =
          e :: traceWithout A rest trace' := by simp [traceWithout, other]
      rw [left]
      refine ⟨(entries _ _).trans (List.cons_eq_cons.mpr ⟨?_, trace⟩), last⟩
      exact congrArg (o.visit, ·) same

/-- What servers hold at a key on which their networks agree. -/
theorem get?_of_agree {stage stage' : Stage} {P : String → Prop} {i : Nat}
    (h : Option.Rel (Server.Node.AgreesOn P) stage.network.nodes[i]? stage'.network.nodes[i]?)
    {key : String} (named : P key) :
    stage.servers[i]?.map (·.keyspace.get? key) = stage'.servers[i]?.map (·.keyspace.get? key) := by
  rw [Stage.getElem?_network, Stage.getElem?_network] at h
  revert h
  generalize stage.servers[i]? = r, stage'.servers[i]? = r'
  intro h
  cases r <;> cases r' <;> cases h
  case none.none => rfl
  case some.some agrees => exact congrArg some (agrees.keys key named)

/-- A fresh client is like itself. -/
theorem coupled_fresh (A : Namespace) (options : Options) (net : Network) :
    Coupled A ⟨.ofOptions options, net⟩ ⟨.ofOptions options, net⟩ where
  alike := ⟨rfl, rfl, .refl _ _, fun _ => rfl, wellStaged_empty, wellStaged_empty⟩
  backed := nofun
  backed' := nofun

/-- **Namespaces do not interfere.**  Take a run of a lone client in which every operation concerns
one namespace and no command is refused, and leave out all operations on a namespace.  The other
operations are answered as before, and every key of another namespace holds the same at the end. -/
theorem visits_isolated (options : Options) (stage : Stage) (calm : stage.Calm) (start : Instant)
    (A : Namespace) (run : List Operation)
    (separate : (Deployment.lone (.remote (.ofOptions options)) stage start).Separate run)
    (accepted : ∀ e ∈ ((Deployment.lone (.remote (.ofOptions options)) stage start).visits
      (run.map (·.visit))).1, ¬ Refuses e.2) :
    let d := Deployment.lone (.remote (.ofOptions options)) stage start
    let full := d.visits (run.map (·.visit))
    let rest := d.visits ((without A run).map (·.visit))
    traceWithout A run full.1 = rest.1 ∧
      ∀ k : KeyName, k.ns ≠ A → ∀ i : Nat,
        full.2.stage.servers[i]?.map (·.keyspace.get? k.text) =
          rest.2.stage.servers[i]?.map (·.keyspace.get? k.text) := by
  let site : Site Stage := ⟨.ofOptions options, stage⟩
  obtain ⟨last, ran⟩ := Deployment.visits_ofSite site start (run.map (·.visit))
  obtain ⟨last', ran'⟩ := Deployment.visits_ofSite site start ((without A run).map (·.visit))
  change (Deployment.lone (.remote (.ofOptions options)) stage start).visits _ = _ at ran ran'
  obtain ⟨trace, reached, _⟩ := site.visits_network calm (run.map (·.visit))
  obtain ⟨trace', reached', _⟩ := site.visits_network calm ((without A run).map (·.visit))
  rw [ran, trace] at accepted
  obtain ⟨answers, coupled⟩ := (coupled_fresh A options stage.network).visits run
    (@Site.separate_onNetwork site calm start run separate) accepted
  dsimp only
  rw [ran, ran', trace, trace']
  refine ⟨answers, fun k other i => ?_⟩
  have agree := coupled.alike.world.nodes i
  change Option.Rel _ (site.onNetwork.visits _).2.world.nodes[i]?
    (site.onNetwork.visits _).2.world.nodes[i]? at agree
  rw [← reached, ← reached'] at agree
  exact get?_of_agree agree fun own => other (Owned.unique ⟨k, rfl, rfl⟩ own)

/-- Series of one name in two namespaces of one server.  That of the first namespace is deleted
while points of the second one wait for a flush. -/
def separateRun : List Operation :=
  let input (ns : Namespace) : SeriesInput := ⟨ns, "load", ["a"], none⟩
  let write (ns : Namespace) (req : RequestId) : Call :=
    .write ⟨ns, ⟨1⟩⟩ req (fun _ _ => .zero) [5] [.ofUInt64 3]
  [⟨none, ⟨⟨0⟩, .connect⟩⟩,
    ⟨some ⟨0⟩, ⟨⟨0⟩, .create (fun _ => ⟨"token", 0⟩) [(⟨1⟩, input ⟨0⟩)]⟩⟩,
    ⟨some ⟨1⟩, ⟨⟨0⟩, .create (fun _ => ⟨"token", 0⟩) [(⟨1⟩, input ⟨1⟩)]⟩⟩,
    ⟨some ⟨1⟩, ⟨⟨0⟩, write ⟨1⟩ ⟨"one"⟩⟩⟩,
    ⟨some ⟨0⟩, ⟨⟨0⟩, write ⟨0⟩ ⟨"zero"⟩⟩⟩,
    ⟨some ⟨0⟩, ⟨⟨0⟩, .flush ⟨"zero"⟩⟩⟩,
    ⟨some ⟨0⟩, ⟨⟨0⟩, .delete [⟨⟨0⟩, ⟨1⟩⟩]⟩⟩,
    ⟨some ⟨1⟩, ⟨⟨0⟩, .flush ⟨"one"⟩⟩⟩,
    ⟨some ⟨1⟩, ⟨⟨0⟩, .read ⟨⟨1⟩, ⟨1⟩⟩ ⟨0, 10⟩⟩⟩]

/-- Without the first namespace the second one creates, writes and reads the same. -/
theorem visits_isolated_shared :
    let d := Deployment.lone (.remote (.ofOptions sharedOptions)) sharedServer ⟨0⟩
    let rest := d.visits ((without ⟨0⟩ separateRun).map (·.visit))
    traceWithout ⟨0⟩ separateRun (d.visits (separateRun.map (·.visit))).1 = rest.1 ∧
      rest.1.map (·.2.toOption) = [some .done, some (.created [⟨⟨1⟩, ⟨1⟩, true⟩]), some .done,
        some .done, some (.points [⟨5, .ofUInt64 3⟩])] := by
  have calm : sharedServer.Calm :=
    (Stage.calm_started (show sharedServer.servers = [""].map .withPassword from rfl)).1
  have separate : (Deployment.lone (.remote (.ofOptions sharedOptions)) sharedServer ⟨0⟩).Separate
      separateRun := by decide +kernel
  have ok : ∀ e ∈ ((Deployment.lone (.remote (.ofOptions sharedOptions)) sharedServer ⟨0⟩).visits
      (separateRun.map (·.visit))).1, e.2.isOk = true := by decide +kernel
  have accepted : ∀ e ∈ ((Deployment.lone (.remote (.ofOptions sharedOptions)) sharedServer
      ⟨0⟩).visits (separateRun.map (·.visit))).1, ¬ Refuses e.2 := by
    rintro e inside ⟨text, refused⟩
    have answered := ok e inside
    rw [refused] at answered
    cases answered
  exact ⟨(visits_isolated sharedOptions sharedServer calm ⟨0⟩ ⟨0⟩ separateRun separate
    accepted).1, by decide +kernel⟩

end Remote

end SeriesStorage
