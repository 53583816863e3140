import SeriesStorage.Proofs.Remote.Evolution

/-!
# Keys tell one story

Whatever is asked of a remote backend that had its servers for itself, names, descriptors, tags and
counters agree on every server, and no lock is left (`Coherent`).  A descriptor stays as it was
created until its series is removed, and a search never finds a name without a descriptor.

* `visits_coherent`: all of this after any visits.
-/

namespace SeriesStorage

namespace Remote

open Server (Keyspace Rehearsal Stage)

/-! ## Coherence -/

/-- The key of a descriptor holds the record of its series. -/
def HoldsRecord (ks : Keyspace) (ref : SeriesRef) (m : SeriesMetadata) : Prop :=
  ∃ text, ks.string? (Key.descriptor ref) = .ok (some text) ∧
    SeriesMetadata.decode text = .ok m ∧ m.ref = ref

/-- The keys of a namespace agree on its series. -/
structure Coherent (ks : Keyspace) (ns : Namespace) : Prop where
  /-- A descriptor is the record of its series. -/
  records : ∀ id text, ks.string? (Key.descriptor ⟨ns, id⟩) = .ok (some text) →
    ∃ m, HoldsRecord ks ⟨ns, id⟩ m
  /-- A name holds an id exactly if the id has a record of that name. -/
  names : ∀ n text, ks.string? (Key.name ns n) = .ok (some text) ↔
    ∃ id m, text = toString id ∧ HoldsRecord ks ⟨ns, id⟩ m ∧ m.name = n
  /-- A tag holds the ids whose records list it, and nothing else. -/
  tags : ∀ t, ∃ members, ks.set? (Key.tag ns t) = .ok members ∧
    ∀ s, s ∈ members ↔ ∃ id m, s = toString id ∧ HoldsRecord ks ⟨ns, id⟩ m ∧ t ∈ m.tags
  /-- Every id was counted. -/
  counted : ∀ id m, HoldsRecord ks ⟨ns, id⟩ m → ∃ last : Nat,
    ks.string? (Key.counter ns) = .ok (some (toString last)) ∧
      1 ≤ id.number.toNat ∧ id.number.toNat ≤ last
  /-- No creation lock is left. -/
  unlocked : ∀ n, ks.get? (Key.lock (Key.name ns n)) = none

variable {ks : Keyspace} {ns : Namespace} {cat : Catalogue}

theorem Holds.holdsRecord_iff (holds : Holds ks ns cat) (wf : cat.WellFormed ns) (id : SeriesId)
    (m : SeriesMetadata) : HoldsRecord ks ⟨ns, id⟩ m ↔ cat.records id = some m := by
  constructor
  · rintro ⟨text, found, decoded, _⟩
    rw [string?_eq (holds.records id)] at found
    cases record : cat.records id with
    | none =>
      rw [record] at found
      cases found
    | some m' =>
      rw [record] at found
      obtain rfl := Option.some.inj (Except.ok.inj found)
      rw [m'.decode_encode] at decoded
      exact congrArg some (Except.ok.inj decoded)
  · intro record
    obtain ⟨hid, hns, _⟩ := wf.described id m record
    refine ⟨m.encode, ?_, m.decode_encode, ?_⟩
    · rw [string?_eq (holds.records id), record]
      rfl
    · rw [SeriesMetadata.ref, hid, hns]

/-- A server in order tells one story. -/
theorem Orderly.coherent (h : Orderly ks) (ns : Namespace) : Coherent ks ns := by
  obtain ⟨unlocked, cat, wf, holds⟩ := h ns
  have record := holds.holdsRecord_iff wf
  refine ⟨fun id text found => ?_, fun n text => ?_, fun t => ?_, fun id m held => ?_, unlocked⟩
  · rw [string?_eq (holds.records id)] at found
    cases there : cat.records id with
    | none =>
      rw [there] at found
      cases found
    | some m => exact ⟨m, (record id m).mpr there⟩
  · rw [string?_eq (holds.names n), Except.ok.injEq, Option.map_eq_some_iff]
    constructor
    · rintro ⟨id, found, rfl⟩
      obtain ⟨m, hm, hname⟩ := wf.named n id found
      exact ⟨id, m, rfl, (record id m).mpr hm, hname⟩
    · rintro ⟨id, m, rfl, held, rfl⟩
      exact ⟨id, (wf.described id m ((record id m).mp held)).2.2, rfl⟩
  · obtain ⟨members, hset, hmem⟩ := holds.tags t
    refine ⟨members, hset, fun s => (hmem s).trans ?_⟩
    constructor
    · rintro ⟨id, m, hm, htag, rfl⟩
      exact ⟨id, m, rfl, (record id m).mpr hm, htag⟩
    · rintro ⟨id, m, rfl, held, htag⟩
      exact ⟨id, m, (record id m).mp held, htag, rfl⟩
  · have counted := wf.counted id m ((record id m).mp held)
    refine ⟨cat.lastId, ?_, counted⟩
    rw [string?_eq holds.counter, if_neg (by omega)]
    rfl

/-! ## Any visits -/

theorem nodes_onNetwork (site : Site Stage) (i : Nat) :
    site.onNetwork.world.nodes[i]? = site.world.servers[i]?.map Rehearsal.node :=
  site.world.getElem?_network i

/-- The network of a stage on which nothing was stored is in order. -/
theorem inOrder_network {stage : Stage} (empty : ∀ r ∈ stage.servers, r.keyspace = .empty) :
    InOrder stage.network := by
  intro i node found
  rw [Stage.keyspace_network empty found]
  exact orderly_empty

theorem pointsOnly_empty : PointsOnly .empty := by
  intro req writes staged
  cases staged

/-- A descriptor is the same after visits none of which may remove it. -/
theorem visits_keep_descriptors {site : Site Stage} (calm : site.world.Calm)
    (order : InOrder site.onNetwork.world) (staged : PointsOnly site.client.pending)
    (vs : List Visit) {i : Nat} {r : Rehearsal} (hr : site.world.servers[i]? = some r) :
    ∃ r' : Rehearsal, (site.visits vs).2.world.servers[i]? = some r' ∧
      ∀ ref e, r.keyspace.get? (Key.descriptor ref) = some e →
        (∀ entry ∈ (site.visits vs).1, ¬ mayRemove ref entry) →
        r'.keyspace.get? (Key.descriptor ref) = some e := by
  obtain ⟨trace, reached, _⟩ := site.visits_network calm vs
  have since := since_visits order staged vs
  rw [← reached, ← trace] at since
  have node : site.onNetwork.world.nodes[i]? = some r.node := by
    rw [nodes_onNetwork, hr]
    rfl
  obtain ⟨r', hr'⟩ : ∃ r', (site.visits vs).2.world.servers[i]? = some r' := by
    have inside := (List.getElem?_eq_some_iff.mp node).1
    rw [← since.evolves.size] at inside
    have there := List.getElem?_eq_getElem inside
    rw [nodes_onNetwork] at there
    obtain ⟨r', hr', _⟩ := Option.map_eq_some_iff.mp there
    exact ⟨r', hr'⟩
  have node' : (site.visits vs).2.onNetwork.world.nodes[i]? = some r'.node := by
    rw [nodes_onNetwork, hr']
    rfl
  refine ⟨r', hr', fun ref e found kept => ?_⟩
  refine (since.evolves.each i r.node r'.node node node').2 ref e ?_ found
  rintro ⟨entry, hentry, gone⟩
  exact kept entry hentry gone

/-- A search on servers in order does not fail with an internal error. -/
theorem visit_search_ne_internal {site : Site Stage} (calm : site.world.Calm)
    (order : InOrder site.onNetwork.world) (time : Instant) (query : Search)
    (cause : Breach) :
    (site.visit ⟨time, .search query⟩).answer ≠ .error (.internal cause) := by
  have visited : (site.visit ⟨time, .search query⟩).answer =
      (site.onNetwork.outcome (search query)).answer.map .found := by
    refine (congrArg Outcome.answer (site.outcome_network calm _).1).trans ?_
    exact congrArg Outcome.answer (Site.outcome_map site.onNetwork (search query) Answer.found)
  rw [visited]
  cases answer : (site.onNetwork.outcome (search query)).answer with
  | ok refs =>
    intro h
    cases h
  | error e =>
    intro h
    obtain rfl := Except.error.inj h
    exact search_not_internal order query cause answer

/-- **Keys stay coherent.**  Take any visits to a lone client whose servers were empty at first and
do what they are told.  Then on every server the keys of every namespace agree.  A descriptor is the
same after any more visits none of which may remove it.  And no search fails with an internal
error. -/
theorem visits_coherent (options : Options) (stage : Stage) (start : Instant) (vs : List Visit)
    (calm : stage.Calm) (empty : ∀ r ∈ stage.servers, r.keyspace = .empty) :
    let d := ((Deployment.lone (.remote (.ofOptions options)) stage start).visits vs).2
    (∀ r ∈ d.stage.servers, ∀ ns, Coherent r.keyspace ns) ∧
      (∀ (more : List Visit) (i : Nat) (r : Rehearsal), d.stage.servers[i]? = some r →
        ∃ r' : Rehearsal, (d.visits more).2.stage.servers[i]? = some r' ∧
          ∀ ref e, r.keyspace.get? (Key.descriptor ref) = some e →
            (∀ entry ∈ (d.visits more).1, ¬ mayRemove ref entry) →
            r'.keyspace.get? (Key.descriptor ref) = some e) ∧
      ∀ time query cause, (d.visit ⟨time, .search query⟩).answer ≠ .error (.internal cause) := by
  let site : Site Stage := ⟨.ofOptions options, stage⟩
  obtain ⟨last, run⟩ := Deployment.visits_ofSite site start vs
  change (Deployment.lone (.remote (.ofOptions options)) stage start).visits vs = _ at run
  rw [run]
  obtain ⟨_, reached, calm'⟩ := site.visits_network calm vs
  have since := since_visits (inOrder_network empty)
    (show PointsOnly site.onNetwork.client.pending from pointsOnly_empty) vs
  rw [← reached] at since
  generalize (site.visits vs).2 = now at since calm'
  have order : InOrder now.onNetwork.world := since.evolves.inOrder
  refine ⟨fun r hr ns => ?_, fun more i r hr => ?_, fun time query cause => ?_⟩
  · obtain ⟨i, hi⟩ := List.mem_iff_getElem?.mp hr
    change now.world.servers[i]? = some r at hi
    have node : now.onNetwork.world.nodes[i]? = some r.node := by
      rw [nodes_onNetwork, hi]
      rfl
    exact (order i r.node node).coherent ns
  · obtain ⟨later, run'⟩ := Deployment.visits_ofSite now last more
    rw [run']
    exact visits_keep_descriptors calm' order since.staged more hr
  · rw [Deployment.visit_ofSite]
    exact visit_search_ne_internal calm' order time query cause

/-- One server for two namespaces. -/
def sharedServer : Stage := ⟨[.withPassword ""], [⟨"a", 1, 0⟩], []⟩

def sharedOptions : Options :=
  { connections := [(⟨0⟩, ⟨"a", 1, "", 0, .server⟩), (⟨1⟩, ⟨"a", 1, "", 0, .server⟩)] }

/-- Series of one name in both namespaces, with tags that look like keys; one expires and is found
so. -/
def sharedVisits : List Visit :=
  [⟨⟨0⟩, .connect⟩,
    ⟨⟨0⟩, .create (fun _ => ⟨"token", 0⟩)
      [(⟨1⟩, ⟨⟨0⟩, "1_load", ["a", "a", "1_b"], none⟩), (⟨2⟩, ⟨⟨1⟩, "1_load", ["a"], some 1⟩)]⟩,
    ⟨⟨5000⟩, .read ⟨⟨1⟩, ⟨1⟩⟩ ⟨0, 10⟩⟩]

/-- The series of the first namespace is left, and nothing of the second one. -/
theorem visits_coherent_shared :
    let d := ((Deployment.lone (.remote (.ofOptions sharedOptions)) sharedServer ⟨0⟩).visits
      sharedVisits).2
    (∀ r ∈ d.stage.servers, ∀ ns, Coherent r.keyspace ns) ∧
      (d.stage.servers.map fun r => r.keyspace.get? (Key.name ⟨0⟩ "1_load")) =
        [some { value := .string "1" }] ∧
      (d.stage.servers.map fun r => r.keyspace.get? (Key.name ⟨1⟩ "1_load")) = [none] := by
  obtain ⟨calm, empty⟩ :=
    Stage.calm_started (show sharedServer.servers = [""].map .withPassword from rfl)
  exact ⟨(visits_coherent sharedOptions sharedServer ⟨0⟩ sharedVisits calm empty).1,
    by decide +kernel, by decide +kernel⟩

end Remote

end SeriesStorage
