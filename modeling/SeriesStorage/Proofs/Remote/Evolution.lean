import SeriesStorage.Proofs.Remote.Orderly

/-!
# What visits leave in order

Every visit leaves all servers in order, and changes no descriptor but by removing it
(`since_visit`).

* `delete_cases`: a deletion fails and changes nothing, or removes its batch.
* `since_visits`: any number of visits.
-/

namespace SeriesStorage

namespace Remote

open Server (Keyspace Network Node)

variable {ks ks' : Keyspace} {gone : SeriesRef → Prop} {net₀ : Network}

/-! ## Deletion -/

/-- Whatever descriptor of a server shares its id or its name with this one is this one. -/
def Admitted (ks : Keyspace) (m : SeriesMetadata) : Prop :=
  ∀ id m', ks.get? (Key.descriptor ⟨m.ns, id⟩) = textEntry (some m'.encode) →
    (id = m.id ∨ m'.name = m.name) → m' = m

theorem Admitted.mono {m : SeriesMetadata} (h : Admitted ks m)
    (fewer : Retains (fun _ => False) ks' ks) : Admitted ks' m :=
  fun id m' found => h id m' (fewer ⟨m.ns, id⟩ _ (fun no => no) found)

theorem Admitted.admits {m : SeriesMetadata} {cat : Catalogue} (h : Admitted ks m)
    (holds : Holds ks m.ns cat) : cat.Admits m :=
  fun id m' hm' => h id m' (by rw [holds.records, hm']; rfl)

theorem Holds.admitted {m : SeriesMetadata} {cat : Catalogue} (holds : Holds ks m.ns cat)
    (h : cat.Admits m) : Admitted ks m := by
  intro id m' found shared
  rw [holds.records] at found
  cases record : cat.records id with
  | none =>
    rw [record] at found
    cases found
  | some m'' =>
    rw [record] at found
    have texts : m''.encode = m'.encode := by simpa [textEntry] using found
    have same := m''.decode_encode
    rw [texts, m'.decode_encode] at same
    obtain rfl := Except.ok.inj same
    exact h id m' record shared

/-- A descriptor is on the server of its namespace, and nothing else shares its id or name. -/
def Removable (site : Site Network) (connections : Connections) (m : SeriesMetadata) : Prop :=
  ∃ c node, Reaches site connections m.ns c node ∧ Admitted node.keyspace m

theorem Removable.setKeys {site : Site Network} {connections : Connections} {m : SeriesMetadata}
    (h : Removable site connections m) {server : Nat} {node : Node}
    (hnode : site.world.nodes[server]? = some node)
    (fewer : Retains (fun _ => False) ks node.keyspace) :
    Removable (site.setKeys server ks) connections m := by
  obtain ⟨c, node', reaches, admitted⟩ := h
  by_cases same : server = c.server
  · subst same
    obtain rfl := Option.some.inj (hnode.symm.trans reaches.node)
    exact ⟨c, _, reaches.setKeys ks, admitted.mono fewer⟩
  · have kept : (site.setKeys server ks).world.nodes[c.server]? = some node' := by
      rw [Site.nodes_setKeys, if_neg same, reaches.node]
    exact ⟨c, node', ⟨reaches.route, kept⟩, admitted⟩

/-- Removable descriptors are removed. -/
theorem executeRemovals_ok {site : Site Network} {connections : Connections}
    {metas : List SeriesMetadata} {namespaces : List Namespace}
    (removable : ∀ m ∈ metas, Removable site connections m)
    (owned : ∀ ns ∈ namespaces, ∃ m ∈ metas, m.ns = ns)
    (since : Since gone net₀ site) (all : ∀ m ∈ metas, gone m.ref) :
    ∃ left, site.outcome (executeRemovals connections metas namespaces) = .succeed () left ∧
      Since gone net₀ left := by
  induction namespaces generalizing site with
  | nil => exact ⟨site, rfl, since⟩
  | cons ns rest ih =>
    let chosen := metas.filter (·.ns = ns)
    have belong : ∀ m ∈ chosen, m.ns = ns := fun m hm => by simpa using (List.mem_filter.mp hm).2
    obtain ⟨first, hfirst, rfl⟩ := owned ns List.mem_cons_self
    obtain ⟨c, node, reaches, _⟩ := removable first hfirst
    obtain ⟨unlocked, cat, wf, holds⟩ := since.evolves.inOrder c.server node reaches.node first.ns
    have admits : ∀ m ∈ chosen, cat.Admits m := by
      intro m hm
      obtain ⟨c', node', reaches', admitted⟩ := removable m (List.mem_filter.mp hm).1
      rw [belong m hm] at reaches'
      obtain rfl := Except.ok.inj (reaches.route.symm.trans reaches'.route)
      obtain rfl := Option.some.inj (reaches.node.symm.trans reaches'.node)
      exact admitted.admits (by rwa [belong m hm])
    obtain ⟨ks, hks, confined, run⟩ := reaches.executeRemoval holds belong admits
    have orderly := (since.evolves.inOrder c.server node reaches.node).confined
      (wf.removeAll admits) hks confined
    have kept : Retains gone node.keyspace ks := confined.retains holds hks fun id m there hm => by
      rw [Catalogue.records_removeAll, if_neg]
      · exact hm
      · rintro ⟨m', hm', rfl⟩
        have := all m' (List.mem_filter.mp hm').1
        rw [SeriesMetadata.ref, belong m' hm'] at this
        exact there this
    have fewer : Retains (fun _ => False) ks node.keyspace :=
      Confined.retains (fun k hk => (confined k hk).symm) hks holds fun id m _ hm => by
        rw [Catalogue.records_removeAll] at hm
        split at hm
        · cases hm
        · exact hm
    obtain ⟨left, others, since'⟩ := @ih (site.setKeys c.server ks)
      (fun m hm => (removable m hm).setKeys reaches.node fewer)
      (fun ns' hns' => owned ns' (List.mem_cons_of_mem _ hns'))
      ⟨since.evolves.setKeys reaches.node orderly kept, since.staged⟩
    refine ⟨left, ?_, since'⟩
    unfold executeRemovals
    rw [Site.outcome_bind, run, Outcome.andThen_succeed, others]

theorem loaded_removable {site : Site Network} {connections : Connections} {ref : SeriesRef}
    {m : SeriesMetadata} (order : InOrder site.world) (hns : m.ns = ref.ns)
    (loaded : (site.outcome (loadMetadata connections ref)).answer = .ok (some m)) :
    m.ref = ref ∧ Removable site connections m := by
  obtain ⟨ns, id⟩ := ref
  dsimp only at hns
  subst hns
  obtain ⟨c, node, reaches⟩ | unreachable := reaches_or_unreachable site connections m.ns
  · obtain ⟨_, cat, wf, holds⟩ := order c.server node reaches.node m.ns
    rw [reaches.loadMetadata holds] at loaded
    have record := Except.ok.inj loaded
    obtain ⟨rfl, _⟩ := wf.described id m record
    exact ⟨rfl, c, node, reaches, holds.admitted (wf.admits record)⟩
  · obtain ⟨e, failed, _⟩ := unreachable.ask (.get (Key.descriptor ⟨m.ns, id⟩)) textOrNothing
    unfold loadMetadata at loaded
    rw [Site.outcome_bind, failed] at loaded
    cases loaded

/-- A deletion fails and changes nothing, or removes its batch. -/
theorem delete_cases {site : Site Network} (since : Since gone net₀ site)
    (refs : List SeriesRef) :
    (∃ e, site.outcome (delete refs) = .fail e site) ∨
      ∃ left, site.outcome (delete refs) = .succeed () left ∧
        Since (fun ref => gone ref ∨ ref ∈ refs) net₀ left := by
  unfold delete
  rw [Site.outcome_bind]
  cases found : site.client.connections with
  | none =>
    rw [Site.outcome_connected_none found]
    exact Or.inl ⟨_, rfl⟩
  | some connections =>
    rw [Site.outcome_connected found, Outcome.andThen_succeed, Site.outcome_bind]
    have unchanged := loadBatch_unchanged site connections refs site rfl
    cases loaded : (site.outcome (loadBatch connections refs)).answer with
    | error e =>
      rw [Outcome.andThen_eq_of_error loaded, unchanged]
      exact Or.inl ⟨e, rfl⟩
    | ok metas =>
      rw [Outcome.andThen_eq_of_ok loaded, unchanged]
      have each : ∀ m ∈ metas, ∃ ref ∈ refs, m.ref = ref ∧ Removable site connections m := by
        intro m hm
        obtain ⟨ref, href, hns, first⟩ := exists_left_of_forall₂ (loadBatch_ok loaded) hm
        exact ⟨ref, href, loaded_removable since.evolves.inOrder hns first⟩
      obtain ⟨left, removed, since'⟩ := @executeRemovals_ok _ _ site connections
        metas (metas.map (·.ns)).eraseDups (fun m hm => (each m hm).choose_spec.2.2)
        (fun ns hns => by
          simpa using List.mem_map.mp (List.mem_eraseDups.mp hns))
        (since.mono fun _ => Or.inl) (fun m hm => by
          obtain ⟨ref, href, same, _⟩ := each m hm
          rw [same]
          exact Or.inr href)
      refine Or.inr ⟨left.invalidate (metas.map (·.ref)), ?_, since'.evolves, since'.staged⟩
      rw [Site.outcome_bind, removed, Outcome.andThen_succeed, Site.outcome_invalidate]

/-! ## Access -/

theorem since_access (now : UInt64) (ref : SeriesRef) :
    Preserves (Since gone net₀) (access now ref) :=
  Preserves.bind Preserves.connected fun _ => Preserves.bind (Preserves.since_cachedMetadata _ _)
    fun _ => Preserves.pure _

/-- What an access removes is expired, and the call fails for that reason. -/
theorem since_guarded {α : Type} {site : Site Network} (since : Since gone net₀ site)
    (now : UInt64) (ref : SeriesRef) {act : SeriesMetadata → Task α}
    (hact : ∀ m, Preserves (Since gone net₀) (act m))
    (expired : (site.outcome (guarded now ref act)).answer = .error .seriesExpired → gone ref) :
    Since gone net₀ (site.outcome (guarded now ref act)).state := by
  have accessed := since_access now ref site since
  unfold guarded at expired ⊢
  rw [Site.outcome_bind] at expired ⊢
  cases found : (site.outcome (access now ref)).answer with
  | error e =>
    rw [Outcome.andThen_eq_of_error found]
    exact accessed
  | ok result =>
    rw [Outcome.andThen_eq_of_ok found] at expired ⊢
    cases result with
    | live m => exact hact m _ accessed
    | unknown => exact accessed
    | expired m =>
      dsimp only at expired ⊢
      generalize (site.outcome (access now ref)).state = mid at accessed expired
      rw [Site.outcome_bind] at expired ⊢
      obtain ⟨e, failed⟩ | ⟨left, removed, since'⟩ := delete_cases accessed [ref]
      · rw [failed]
        exact accessed
      · rw [removed] at expired ⊢
        refine since'.mono fun r hr => ?_
        rcases hr with there | here
        · exact there
        · rw [List.mem_singleton.mp here]
          exact expired rfl

/-! ## Visits -/

/-- Whether an entry may take the descriptor of a series away: all were cleared, the series was
deleted, or it was found expired. -/
def mayRemove (ref : SeriesRef) : TraceEntry → Prop
  | (⟨_, .clear⟩, _) => True
  | (⟨_, .delete refs⟩, .ok _) => ref ∈ refs
  | (⟨_, .write ref' _ _ _ _⟩, .error e) => e = .seriesExpired ∧ ref' = ref
  | (⟨_, .read ref' _⟩, .error e) => e = .seriesExpired ∧ ref' = ref
  | _ => False

/-- **One visit.** -/
theorem since_visit {site : Site Network} (order : InOrder site.world)
    (staged : PointsOnly site.client.pending) (v : Visit) :
    Since (fun ref => mayRemove ref (v, (site.visit v).answer)) site.world
      (site.visit v).state := by
  have since : ∀ {gone}, Since gone site.world site := ⟨order.evolves, staged⟩
  obtain ⟨time, call⟩ := v
  cases call with
  | connect =>
    exact Preserves.bind Preserves.since_connect (fun _ => Preserves.pure _) site since
  | create chances batch =>
    exact Preserves.bind (Preserves.since_create _ _ _) (fun _ => Preserves.pure _) site since
  | search query =>
    exact Preserves.bind (Preserves.since_search _) (fun _ => Preserves.pure _) site since
  | flush req =>
    exact Preserves.bind (Preserves.since_flush _) (fun _ => Preserves.pure _) site since
  | clear =>
    exact Preserves.bind (Preserves.since_clear fun _ => trivial) (fun _ => Preserves.pure _)
      site since
  | delete refs =>
    have ran : site.visit ⟨time, .delete refs⟩ =
        (site.outcome (delete refs)).andThen fun _ site => .succeed .done site :=
      Site.outcome_bind site (delete refs) fun _ => pure Answer.done
    obtain ⟨e, failed⟩ | ⟨left, removed, since'⟩ :=
      @delete_cases (fun _ => False) site.world site since refs
    · rw [ran, failed]
      exact since
    · rw [ran, removed]
      exact since'.mono fun ref hr => hr.resolve_left id
  | write ref req draws times values =>
    rw [Site.visit_write]
    refine since_guarded since _ ref
      (fun m => Preserves.map (Preserves.since_append _ _ _ _ _ _) _) fun expired => ?_
    rw [expired]
    exact ⟨rfl, rfl⟩
  | read ref window =>
    rw [Site.visit_read]
    refine since_guarded since _ ref
      (fun m => Preserves.map (Preserves.since_fetch _ _) _) fun expired => ?_
    rw [expired]
    exact ⟨rfl, rfl⟩

/-- **All visits** leave the servers in order, and only what may be removed goes away. -/
theorem since_visits {site : Site Network} (order : InOrder site.world)
    (staged : PointsOnly site.client.pending) (vs : List Visit) :
    Since (fun ref => ∃ e ∈ (site.visits vs).1, mayRemove ref e) site.world
      (site.visits vs).2 := by
  induction vs generalizing site with
  | nil => exact ⟨order.evolves, staged⟩
  | cons v rest ih =>
    have first := since_visit order staged v
    have others := ih first.evolves.inOrder first.staged
    refine ⟨(first.evolves.mono fun ref h => ?_).trans (others.evolves.mono fun ref h => ?_),
      others.staged⟩
    · exact ⟨_, List.mem_cons_self, h⟩
    · obtain ⟨e, he, h⟩ := h
      exact ⟨e, List.mem_cons_of_mem _ he, h⟩

/-- A search never finds a name without a descriptor. -/
theorem search_not_internal {site : Site Network} (order : InOrder site.world) (query : Search)
    (cause : Breach) : (site.outcome (search query)).answer ≠ .error (.internal cause) := by
  unfold search
  rw [Site.outcome_bind, Site.outcome_ofExcept]
  cases valid : query.validate with
  | error e =>
    intro h
    obtain rfl := Except.error.inj h
    unfold Search.validate at valid
    split at valid
    · cases valid
    · split at valid
      · cases valid
      · split at valid
        · cases valid
        · split at valid <;> cases valid
  | ok u =>
    rw [Outcome.andThen_eq_of_ok rfl, Site.outcome_bind]
    show ((site.outcome connected).andThen _).answer ≠ _
    cases found : site.client.connections with
    | none =>
      rw [Site.outcome_connected_none found]
      intro h
      cases h
    | some connections =>
      rw [Site.outcome_connected found, Outcome.andThen_succeed, Site.outcome_bind]
      obtain ⟨c, node, reaches⟩ | unreachable :=
        reaches_or_unreachable site connections query.ns
      · obtain ⟨_, cat, wf, holds⟩ := order c.server node reaches.node query.ns
        rw [reaches.lookupName (holds.names _), Outcome.andThen_succeed]
        cases named : cat.names query.name with
        | none =>
          intro h
          cases h
        | some id =>
          obtain ⟨m, hm, _⟩ := wf.named query.name id named
          dsimp only
          rw [Site.outcome_bind, reaches.cachedMetadata holds, Outcome.andThen_succeed, hm]
          cases site.client.cache.get? ⟨query.ns, id⟩ <;>
          · intro h
            cases h
      · obtain ⟨e, failed, cases⟩ :=
          unreachable.ask (.get (Key.name query.ns query.name)) wordOrNothing
        unfold lookupName
        rw [Site.outcome_bind, failed]
        intro h
        obtain rfl := Except.error.inj h
        rcases cases with h | h <;> cases h

end Remote

end SeriesStorage
