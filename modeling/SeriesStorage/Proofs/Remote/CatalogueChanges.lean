import SeriesStorage.Proofs.Remote.KeptCatalogues

/-!
# Creating and deleting among catalogues

What creations and deletions do to the catalogues that a lone client keeps.  A creation counts ids
up and enters series under the new ones, whether it fails on its way or not (`Issues`); a deletion
takes series out and leaves the counters alone (`Drops`).

* `Curated.createFrom`: a batch is worked off entry by entry.
* `Curated.delete_cases`: a deletion fails and changes nothing, or drops its batch.
* `Curated.guarded_cases`: what a write or a read finds.
-/

namespace SeriesStorage

namespace Remote

open Server (Keyspace Network Node)

variable {servers : Nat → Prop} {cats cats' cats'' : Catalogues}
  {given : SeriesRef → AcceptedPoint → Prop} {site : Site Network} {connections : Connections}
  {ns : Namespace}

/-! ## Creating -/

/-- The catalogues after a series has entered its own, with the next id. -/
def Catalogues.enter (cats : Catalogues) (input : SeriesInput) (now : UInt64) : Catalogues :=
  Function.update cats input.ns
    ((cats input.ns).count.add (input.describe (cats input.ns).nextId now))

theorem Catalogues.records_enter (cats : Catalogues) (input : SeriesInput) (now : UInt64)
    (ref : SeriesRef) :
    (cats.enter input now ref.ns).records ref.id =
      if ref = ⟨input.ns, (cats input.ns).nextId⟩ then
        some (input.describe (cats input.ns).nextId now)
      else (cats ref.ns).records ref.id := by
  obtain ⟨ns, id⟩ := ref
  unfold enter
  by_cases same : ns = input.ns
  · subst same
    rw [Function.update_self]
    show (if id = (cats input.ns).nextId then _ else _) = _
    exact if_congr (by simp) rfl rfl
  · rw [Function.update_of_ne same, if_neg fun pair => same (congrArg SeriesRef.ns pair)]

/-- New ids were given, and series came in only under them. -/
structure Issues (cats cats' : Catalogues) (refs : List SeriesRef) : Prop where
  nodup : refs.Nodup
  fresh : ∀ ref ∈ refs, (cats ref.ns).lastId < ref.id.number.toNat ∧
    ref.id.number.toNat ≤ (cats' ref.ns).lastId
  grown : ∀ ns, (cats ns).lastId ≤ (cats' ns).lastId
  appears : ∀ ref, cats'.Has ref → cats.Has ref ∨ ref ∈ refs

namespace Issues

variable {refs more : List SeriesRef}

theorem refl (cats : Catalogues) : Issues cats cats [] :=
  ⟨List.nodup_nil, nofun, fun _ => Nat.le_refl _, fun _ => Or.inl⟩

theorem trans (h : Issues cats cats' refs) (h' : Issues cats' cats'' more) :
    Issues cats cats'' (refs ++ more) where
  nodup := by
    refine List.nodup_append.mpr ⟨h.nodup, h'.nodup, fun ref inside ref' inside' same => ?_⟩
    subst same
    exact absurd (h.fresh ref inside).2 (Nat.not_le.mpr (h'.fresh ref inside').1)
  fresh := by
    intro ref inside
    rcases List.mem_append.mp inside with inside | inside
    · exact ⟨(h.fresh ref inside).1, Nat.le_trans (h.fresh ref inside).2 (h'.grown ref.ns)⟩
    · exact ⟨Nat.lt_of_le_of_lt (h.grown ref.ns) (h'.fresh ref inside).1, (h'.fresh ref inside).2⟩
  grown := fun ns => Nat.le_trans (h.grown ns) (h'.grown ns)
  appears := by
    intro ref has
    rw [List.mem_append]
    rcases h'.appears ref has with there | new
    · exact (h.appears ref there).imp_right Or.inl
    · exact Or.inr (Or.inr new)

/-- One series is entered under the next id. -/
theorem entered (input : SeriesInput) (now : UInt64) (room : (cats input.ns).lastId < maxInt64) :
    Issues cats (cats.enter input now) [⟨input.ns, (cats input.ns).nextId⟩] where
  nodup := List.nodup_cons.mpr ⟨nofun, List.nodup_nil⟩
  fresh := by
    intro ref inside
    obtain rfl := List.mem_singleton.mp inside
    rw [Catalogues.enter, Function.update_self, Catalogue.nextId_toNat room]
    exact ⟨Nat.lt_succ_self _, Nat.le_refl _⟩
  grown := by
    intro ns
    unfold Catalogues.enter
    by_cases same : ns = input.ns
    · subst same
      rw [Function.update_self]
      exact Nat.le_succ _
    · rw [Function.update_of_ne same]
  appears := by
    rintro ref ⟨m, record⟩
    rw [Catalogues.records_enter] at record
    split at record
    · next same => exact Or.inr (List.mem_singleton.mpr same)
    · exact Or.inl ⟨m, record⟩

end Issues

/-- The series of which an answer to an entry tells that it is new. -/
def newRef (input : SeriesInput) : Except Error (SeriesId × Bool) → List SeriesRef
  | .ok (id, true) => [⟨input.ns, id⟩]
  | _ => []

/-- A series enters the catalogue of its namespace. -/
theorem Curated.enter (h : Curated servers cats given site)
    (own : site.client.connections = some connections) {input : SeriesInput} {c : Connection}
    {node : Node} (reaches : Reaches site connections input.ns c node)
    (absent : (cats input.ns).names input.name = none) (room : (cats input.ns).lastId < maxInt64)
    {now : UInt64} {ks : Keyspace} (holds : Holds ks input.ns ((cats input.ns).count.add
      (input.describe (cats input.ns).nextId now)))
    (confined : Confined input.ns node.keyspace ks) :
    Curated servers (cats.enter input now) given
      ((site.setKeys c.server ks).invalidate [⟨input.ns, (cats input.ns).nextId⟩]) := by
  have wf := h.wellFormed input.ns
  have entered : ((cats input.ns).count.add
      (input.describe (cats input.ns).nextId now)).WellFormed input.ns :=
    (wf.count room).add rfl absent (wf.records_nextId room) (by
      show 1 ≤ (cats input.ns).nextId.number.toNat ∧
        (cats input.ns).nextId.number.toNat ≤ (cats input.ns).lastId + 1
      rw [Catalogue.nextId_toNat room]
      omega)
  have known := h.toCatalogued.confined own reaches entered holds confined
  refine ⟨known.onClient rfl h.staged, fun ref m found => ?_⟩
  obtain ⟨other, before⟩ := Cache.get?_of_invalidate found
  rw [Catalogues.records_enter, if_neg fun same => other (List.mem_singleton.mpr same)]
  exact h.cached ref m before

/-- **An entry** finds its series, enters it, or fails. -/
theorem Curated.createOne (h : Curated servers cats given site)
    (own : site.client.connections = some connections) (now : UInt64) (chance : LockChance)
    (input : SeriesInput) :
    let outcome := site.outcome (createOne connections now chance input)
    ∃ cats', Curated servers cats' given outcome.state ∧
      outcome.state.client.connections = some connections ∧
      Issues cats cats' (newRef input outcome.answer) := by
  intro outcome
  unfold outcome
  obtain ⟨c, node, reaches⟩ | nowhere := reaches_or_unreachable site connections input.ns
  · obtain ⟨unlocked, holds⟩ := h.here own reaches
    have wf := h.wellFormed input.ns
    have result := reaches.createOne holds wf unlocked now chance
    generalize site.outcome (Remote.createOne connections now chance input) = outcome at result
    cases result with
    | found named => exact ⟨cats, h, own, .refl cats⟩
    | @created ks absent room holds' confined =>
      exact ⟨cats.enter input now, h.enter own reaches absent room holds' confined, own,
        .entered input now room⟩
    | @refused ks text absent full same =>
      have kept := h.toCatalogued.confined own reaches wf (holds.congr fun k _ => same k)
        fun k _ => same k
      rw [Function.update_eq_self] at kept
      exact ⟨cats, ⟨kept, h.cached⟩, own, .refl cats⟩
  · obtain ⟨e, failed, _⟩ := nowhere.ask (.get (Key.name input.ns input.name)) wordOrNothing
    unfold Remote.createOne lookupName
    rw [Site.outcome_bind, Site.outcome_bind, failed]
    exact ⟨cats, h, own, .refl cats⟩

/-- **A batch** is worked off entry by entry, up to the first that fails. -/
theorem Curated.createFrom (h : Curated servers cats given site)
    (own : site.client.connections = some connections) (now : UInt64) (chances : LockChances)
    {whole batch : CreateBatch} (named : ∀ entry ∈ batch, whole.nsOf entry.1 = entry.2.ns)
    (i : Nat) :
    let outcome := site.outcome (createFrom connections now chances i batch)
    ∃ cats' refs, Curated servers cats' given outcome.state ∧ Issues cats cats' refs ∧
      ∀ rows, outcome.answer = .ok rows →
        (rows.filter (·.isNew)).map (fun row => ⟨whole.nsOf row.mark, row.id⟩) = refs := by
  intro outcome
  unfold outcome
  induction batch generalizing site cats i with
  | nil =>
    refine ⟨cats, [], h, .refl cats, fun rows answered => ?_⟩
    obtain rfl := Except.ok.inj answered
    rfl
  | cons entry rest ih =>
    obtain ⟨mark, input⟩ := entry
    obtain ⟨mid, kept, own', first⟩ := h.createOne own now (chances i) input
    unfold Remote.createFrom
    rw [Site.outcome_bind]
    cases answer : (site.outcome (Remote.createOne connections now (chances i) input)).answer with
    | error e =>
      rw [Outcome.andThen_eq_of_error answer]
      exact ⟨mid, _, kept, first, nofun⟩
    | ok found =>
      obtain ⟨id, isNew⟩ := found
      rw [Outcome.andThen_eq_of_ok answer]
      rw [answer] at first
      obtain ⟨last, refs, kept', others, told⟩ := ih kept own'
        (fun entry inside => named entry (List.mem_cons_of_mem _ inside)) (i + 1)
      dsimp only
      rw [Site.outcome_bind]
      refine ⟨last, newRef input (.ok (id, isNew)) ++ refs, ?_⟩
      cases later :
        ((site.outcome (Remote.createOne connections now (chances i) input)).state.outcome
          (Remote.createFrom connections now chances (i + 1) rest)).answer with
      | error e =>
        rw [Outcome.andThen_eq_of_error later]
        exact ⟨kept', first.trans others, nofun⟩
      | ok rows =>
        rw [Outcome.andThen_eq_of_ok later]
        refine ⟨kept', first.trans others, fun all answered => ?_⟩
        obtain rfl := Except.ok.inj answered
        rw [← told rows later]
        cases isNew with
        | false => rfl
        | true =>
          have ns : whole.nsOf mark = input.ns := named (mark, input) List.mem_cons_self
          rw [newRef, ← ns]
          rfl

/-! ## Deleting -/

/-- Some series were taken out, and the others stayed. -/
structure Drops (cats cats' : Catalogues) (gone : SeriesRef → Prop) : Prop where
  lastId : ∀ ns, (cats' ns).lastId = (cats ns).lastId
  absent : ∀ ref, gone ref → ¬ cats'.Has ref
  kept : ∀ ref, ¬ gone ref → (cats' ref.ns).records ref.id = (cats ref.ns).records ref.id

/-- What is left was there before. -/
theorem Drops.left {gone : SeriesRef → Prop} (h : Drops cats cats' gone) {ref : SeriesRef}
    (has : cats'.Has ref) : cats.Has ref ∧ ¬ gone ref := by
  have stays : ¬ gone ref := fun left => h.absent ref left has
  obtain ⟨m, record⟩ := has
  exact ⟨⟨m, (h.kept ref stays).symm.trans record⟩, stays⟩

theorem Drops.trans {gone gone' all : SeriesRef → Prop} (h : Drops cats cats' gone)
    (h' : Drops cats' cats'' gone') (either : ∀ ref, all ref ↔ gone ref ∨ gone' ref) :
    Drops cats cats'' all where
  lastId := fun ns => (h'.lastId ns).trans (h.lastId ns)
  absent := by
    intro ref left has
    obtain ⟨between, stays⟩ := h'.left has
    exact ((either ref).mp left).elim (fun left => h.absent ref left between) stays
  kept := by
    intro ref stays
    rw [either, not_or] at stays
    exact (h'.kept ref stays.2).trans (h.kept ref stays.1)

/-- Descriptors can be removed: their namespaces have servers, and nothing else has their ids or
names. -/
def AllRemovable (cats : Catalogues) (metas : List SeriesMetadata) : Prop :=
  ∀ m ∈ metas, 0 < (cats m.ns).lastId ∧ (cats m.ns).Admits m

/-- The descriptors of one namespace are taken out. -/
theorem Catalogue.removeAll_drops (cats : Catalogues) {metas : List SeriesMetadata}
    (belong : ∀ m ∈ metas, m.ns = ns) :
    Drops cats (Function.update cats ns ((cats ns).removeAll metas))
      fun ref => ∃ m ∈ metas, m.ref = ref where
  lastId := by
    intro ns'
    by_cases same : ns' = ns
    · subst same
      rw [Function.update_self, Catalogue.lastId_removeAll]
    · rw [Function.update_of_ne same]
  absent := by
    rintro ref ⟨m, hm, rfl⟩ ⟨m', record⟩
    rw [show m.ref.ns = ns from belong m hm, Function.update_self, Catalogue.records_removeAll,
      if_pos ⟨m, hm, rfl⟩] at record
    cases record
  kept := by
    rintro ⟨ns', id⟩ stays
    by_cases same : ns' = ns
    · subst same
      rw [Function.update_self, Catalogue.records_removeAll, if_neg]
      rintro ⟨m, hm, rfl⟩
      refine stays ⟨m, hm, ?_⟩
      rw [SeriesMetadata.ref, belong m hm]
    · rw [Function.update_of_ne same]

/-- Descriptors are removed from one namespace after the other. -/
theorem Catalogued.executeRemovals (h : Catalogued servers cats given site)
    (own : site.client.connections = some connections) {metas : List SeriesMetadata}
    (removable : AllRemovable cats metas) {namespaces : List Namespace}
    (owned : ∀ ns ∈ namespaces, ∃ m ∈ metas, m.ns = ns) :
    ∃ cats' left, site.outcome (executeRemovals connections metas namespaces) = .succeed () left ∧
      Catalogued servers cats' given left ∧ left.client = site.client ∧
      Drops cats cats' fun ref => ref.ns ∈ namespaces ∧ ∃ m ∈ metas, m.ref = ref := by
  induction namespaces generalizing site cats with
  | nil => exact ⟨cats, site, rfl, h, rfl, fun _ => rfl, fun _ none => absurd none.1 nofun,
      fun _ _ => rfl⟩
  | cons ns rest ih =>
    let chosen := metas.filter (·.ns = ns)
    have belong : ∀ m ∈ chosen, m.ns = ns := fun m hm => by simpa using (List.mem_filter.mp hm).2
    have admits : ∀ m ∈ chosen, (cats ns).Admits m := fun m hm => by
      have admitted := (removable m (List.mem_filter.mp hm).1).2
      rwa [belong m hm] at admitted
    obtain ⟨first, hfirst, rfl⟩ := owned ns List.mem_cons_self
    obtain ⟨others, c, node, same, reaches⟩ := h.reached first.ns (removable first hfirst).1
    obtain rfl := Option.some.inj (own.symm.trans same)
    obtain ⟨ks, hks, confined, run⟩ := reaches.executeRemoval (h.here own reaches).2 belong admits
    have after := h.confined own reaches ((h.wellFormed first.ns).removeAll admits) hks confined
    have dropped := Catalogue.removeAll_drops cats belong
    have fewer : ∀ ns' id m', (Function.update cats first.ns
        ((cats first.ns).removeAll chosen) ns').records id = some m' →
        (cats ns').records id = some m' := by
      intro ns' id m' record
      have has : Catalogues.Has _ ⟨ns', id⟩ := ⟨m', record⟩
      exact (dropped.kept ⟨ns', id⟩ (dropped.left has).2).symm.trans record
    obtain ⟨cats', left, removed, kept, client, drops⟩ := ih after own
      (fun m hm => ⟨by rw [dropped.lastId]; exact (removable m hm).1,
        (removable m hm).2.fewer (fewer m.ns)⟩)
      (fun ns' hns' => owned ns' (List.mem_cons_of_mem _ hns'))
    refine ⟨cats', left, ?_, kept, client, dropped.trans drops fun ref => ?_⟩
    · unfold Remote.executeRemovals
      rw [Site.outcome_bind, run, Outcome.andThen_succeed, removed]
    · rw [List.mem_cons, or_and_right]
      refine or_congr_left ⟨?_, ?_⟩
      · rintro ⟨same, m, hm, rfl⟩
        exact ⟨m, List.mem_filter.mpr ⟨hm, decide_eq_true same⟩, rfl⟩
      · rintro ⟨m, hm, rfl⟩
        exact ⟨belong m hm, m, (List.mem_filter.mp hm).1, rfl⟩

/-- What is loaded is in the catalogue. -/
theorem Catalogued.record_of_loaded (h : Catalogued servers cats given site)
    (own : site.client.connections = some connections) {ref : SeriesRef} {m : SeriesMetadata}
    (loaded : (site.outcome (loadMetadata connections ref)).answer = .ok (some m)) :
    (cats ref.ns).records ref.id = some m := by
  obtain ⟨c, node, reaches⟩ | nowhere := reaches_or_unreachable site connections ref.ns
  · obtain ⟨ns, id⟩ := ref
    rw [reaches.loadMetadata (h.here own reaches).2] at loaded
    exact Except.ok.inj loaded
  · obtain ⟨e, failed, _⟩ := nowhere.ask (.get (Key.descriptor ref)) textOrNothing
    unfold loadMetadata at loaded
    rw [Site.outcome_bind, failed] at loaded
    cases loaded

/-- A batch that is there is loaded. -/
theorem Catalogued.loadBatch (h : Catalogued servers cats given site)
    (own : site.client.connections = some connections) {refs : List SeriesRef}
    (there : ∀ ref ∈ refs, cats.Has ref) :
    ∃ metas, site.outcome (loadBatch connections refs) = .succeed metas site := by
  induction refs with
  | nil => exact ⟨[], rfl⟩
  | cons ref rest ih =>
    obtain ⟨m, record⟩ := there ref List.mem_cons_self
    obtain ⟨metas, loaded⟩ := ih fun ref inside => there ref (List.mem_cons_of_mem _ inside)
    have given := (h.wellFormed ref.ns).counted ref.id m record
    obtain ⟨others, c, node, same, reaches⟩ := h.reached ref.ns (by omega)
    obtain rfl := Option.some.inj (own.symm.trans same)
    have first : site.outcome (loadMetadata connections ref) = .succeed (some m) site := by
      rw [← record]
      exact reaches.loadMetadata (h.here own reaches).2 ref.id
    have ns : m.ns = ref.ns := congrArg SeriesRef.ns (h.described record)
    refine ⟨m :: metas, ?_⟩
    unfold Remote.loadBatch
    rw [Site.outcome_bind, first, Outcome.andThen_succeed]
    dsimp only
    rw [if_neg (not_not.mpr ns), Site.outcome_bind, loaded]
    rfl

/-- **A batch that was loaded is deleted.** -/
theorem Curated.delete_loaded (h : Curated servers cats given site)
    (own : site.client.connections = some connections) {refs : List SeriesRef}
    {metas : List SeriesMetadata}
    (loaded : site.outcome (Remote.loadBatch connections refs) = .succeed metas site) :
    (∀ ref ∈ refs, cats.Has ref) ∧ ∃ cats' left, site.outcome (delete refs) = .succeed () left ∧
      Curated servers cats' given left ∧ Drops cats cats' (· ∈ refs) := by
  have found := loadBatch_ok (congrArg Outcome.answer loaded)
  have records : List.Forall₂ (fun ref m => (cats ref.ns).records ref.id = some m) refs metas :=
    found.imp fun ref m both => h.record_of_loaded own both.2
  have removable : AllRemovable cats metas := by
    intro m hm
    obtain ⟨ref, _, record⟩ := exists_left_of_forall₂ records hm
    obtain rfl := h.described record
    have given := (h.wellFormed m.ns).counted m.id m record
    exact ⟨by omega, (h.wellFormed m.ns).admits record⟩
  have owned : ∀ ns ∈ (metas.map (·.ns)).eraseDups, ∃ m ∈ metas, m.ns = ns := fun ns hns =>
    List.mem_map.mp (List.mem_eraseDups.mp hns)
  obtain ⟨cats', left, removed, kept, client, drops⟩ :=
    h.toCatalogued.executeRemovals own removable owned
  have all : ∀ ref, (ref.ns ∈ (metas.map (·.ns)).eraseDups ∧ ∃ m ∈ metas, m.ref = ref) ↔
      ref ∈ refs := by
    intro ref
    constructor
    · rintro ⟨_, m, hm, rfl⟩
      obtain ⟨ref, href, record⟩ := exists_left_of_forall₂ records hm
      rwa [h.described record]
    · intro href
      obtain ⟨m, hm, record⟩ := exists_left_of_forall₂ records.flip href
      obtain rfl := h.described record
      exact ⟨List.mem_eraseDups.mpr (List.mem_map_of_mem hm), m, hm, rfl⟩
  refine ⟨fun ref href => ?_, cats', left.invalidate (metas.map (·.ref)), ?_,
    ⟨kept.onClient rfl kept.staged, fun ref m inside => ?_⟩, ?_⟩
  · obtain ⟨m, _, record⟩ := exists_left_of_forall₂ records.flip href
    exact ⟨m, record⟩
  · unfold Remote.delete
    rw [Site.outcome_bind, Site.outcome_connected own, Outcome.andThen_succeed, Site.outcome_bind,
      loaded, Outcome.andThen_succeed, Site.outcome_bind, removed, Outcome.andThen_succeed,
      Site.outcome_invalidate]
  · obtain ⟨outside, before⟩ := Cache.get?_of_invalidate inside
    rw [client] at before
    refine (drops.kept ref fun gone => outside ?_).trans (h.cached ref m before)
    obtain ⟨_, m', hm', same⟩ := gone
    exact List.mem_map.mpr ⟨m', hm', same⟩
  · rwa [funext fun ref => propext (all ref)] at drops

/-- **A deletion** fails and changes nothing, or drops its batch. -/
theorem Curated.delete_cases (h : Curated servers cats given site) (refs : List SeriesRef) :
    (∃ e, site.outcome (delete refs) = .fail e site) ∨
      (∀ ref ∈ refs, cats.Has ref) ∧ ∃ cats' left, site.outcome (delete refs) = .succeed () left ∧
        Curated servers cats' given left ∧ Drops cats cats' (· ∈ refs) := by
  cases own : site.client.connections with
  | none =>
    unfold Remote.delete
    rw [Site.outcome_bind, Site.outcome_connected_none own]
    exact Or.inl ⟨_, rfl⟩
  | some connections =>
    have unchanged := loadBatch_unchanged site connections refs site rfl
    cases loaded : (site.outcome (Remote.loadBatch connections refs)).answer with
    | error e =>
      unfold Remote.delete
      rw [Site.outcome_bind, Site.outcome_connected own, Outcome.andThen_succeed,
        Site.outcome_bind, Outcome.andThen_eq_of_error loaded, unchanged]
      exact Or.inl ⟨e, rfl⟩
    | ok metas =>
      have all := Outcome.eq_succeed loaded
      rw [unchanged] at all
      exact Or.inr (h.delete_loaded own all)

/-! ## Access -/

/-- **What a write or a read finds**: no server, no series, an expired one that is dropped, or a
live one. -/
theorem Curated.guarded_cases (h : Curated servers cats given site) {α : Type} (now : UInt64)
    (ref : SeriesRef) (act : SeriesMetadata → Task α) :
    ((cats ref.ns).lastId = 0 ∧ ∃ e, Missed ref.ns e ∧
      site.outcome (guarded now ref act) = .fail e site) ∨
    (¬ cats.Has ref ∧ site.outcome (guarded now ref act) = .fail .metadataNotFound site) ∨
    (∃ m cats' left, (cats ref.ns).records ref.id = some m ∧ m.isExpired now = true ∧
      site.outcome (guarded now ref act) = .fail .seriesExpired left ∧
      Curated servers cats' given left ∧ Drops cats cats' (· ∈ [ref])) ∨
    ∃ connections c node m, (cats ref.ns).records ref.id = some m ∧ m.isExpired now = false ∧
      site.client.connections = some connections ∧ Reaches site connections ref.ns c node ∧
      Curated servers cats given (site.remember ref (some m)) ∧
      site.outcome (guarded now ref act) = (site.remember ref (some m)).outcome (act m) := by
  unfold guarded access
  rw [Site.outcome_bind, Site.outcome_bind]
  cases own : site.client.connections with
  | none =>
    rw [Site.outcome_connected_none own]
    refine Or.inl ⟨Nat.eq_zero_of_not_pos fun some => ?_, _, Or.inl rfl, rfl⟩
    obtain ⟨_, _, _, connected, _⟩ := h.reached ref.ns some
    cases own.symm.trans connected
  | some connections =>
    rw [Site.outcome_connected own, Outcome.andThen_succeed, Site.outcome_bind]
    obtain ⟨unused, e, missed, failed⟩ | ⟨⟨c, node, reaches⟩, looked⟩ := h.cachedMetadata own ref
    · rw [failed]
      exact Or.inl ⟨unused, e, missed, rfl⟩
    · rw [looked, Outcome.andThen_succeed, Site.outcome_pure, Outcome.andThen_succeed]
      have kept := h.remember ref
      cases record : (cats ref.ns).records ref.id with
      | none =>
        refine Or.inr (Or.inl ⟨?_, rfl⟩)
        rintro ⟨m, found⟩
        cases record.symm.trans found
      | some m =>
        rw [record] at kept
        have ns : m.ns = ref.ns := congrArg SeriesRef.ns (h.described record)
        unfold Access.ofMetadata
        dsimp only
        rw [if_neg (not_not.mpr ns)]
        cases expired : m.isExpired now with
        | false =>
          exact Or.inr (Or.inr (Or.inr ⟨connections, c, node, m, rfl, expired, rfl, reaches, kept,
            rfl⟩))
        | true =>
          have there : ∀ ref' ∈ [ref], cats.Has ref' := List.forall_mem_singleton.mpr ⟨m, record⟩
          obtain ⟨metas, loaded⟩ := kept.toCatalogued.loadBatch own there
          obtain ⟨_, cats', left, deleted, kept', drops⟩ := kept.delete_loaded own loaded
          refine Or.inr (Or.inr (Or.inl ⟨m, cats', left, rfl, expired, ?_, kept', drops⟩))
          show (site.remember ref (some m)).outcome
            (delete [ref] >>= fun _ => throw .seriesExpired) = _
          rw [Site.outcome_bind, deleted, Outcome.andThen_succeed]
          rfl

end Remote

end SeriesStorage
