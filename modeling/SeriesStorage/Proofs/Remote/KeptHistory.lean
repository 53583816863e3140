import SeriesStorage.Proofs.Remote.CatalogueChanges

/-!
# The history of a lone client

The counters of the catalogues that a lone client keeps tell which ids were given.  A visit that
does not clear the servers is a step of their register (`Curated.step`), and so all visits are a
history (`Curated.history`).
-/

namespace SeriesStorage

namespace Remote

open Server (Network Node)

variable {servers : Nat → Prop} {cats cats' : Catalogues}
  {given : SeriesRef → AcceptedPoint → Prop} {site : Site Network}

/-- What the catalogues say about series, where these points were handed in. -/
def Catalogues.registered (cats : Catalogues) (given : SeriesRef → AcceptedPoint → Prop) :
    Register SeriesRef where
  has := cats.Has
  spent := fun ref => 1 ≤ ref.id.number.toNat ∧ ref.id.number.toNat ≤ (cats ref.ns).lastId
  given := given

theorem Catalogued.spent (h : Catalogued servers cats given site) (ref : SeriesRef) (has : cats.Has ref) :
    1 ≤ ref.id.number.toNat ∧ ref.id.number.toNat ≤ (cats ref.ns).lastId := by
  obtain ⟨m, record⟩ := has
  exact (h.wellFormed ref.ns).counted ref.id m record

/-- A client that has not done anything keeps catalogues without series on servers without keys. -/
theorem Curated.fresh (options : Options) {net : Network}
    (empty : ∀ (i : Nat) node, net.nodes[i]? = some node → node.keyspace = .empty) :
    Curated (fun _ => True) (fun _ => .empty) (fun _ _ => False) ⟨.ofOptions options, net⟩ where
  wellFormed := Catalogue.wellFormed_empty
  held := fun ns i node found _ => by
    rw [empty i node found]
    exact ⟨fun _ => rfl, holds_empty ns⟩
  reached := fun _ none => absurd none (Nat.lt_irrefl 0)
  routed := fun _ _ _ _ _ => trivial
  stored := fun i node found _ => by
    rw [empty i node found]
    exact holdsGiven_empty
  staged := nofun
  cached := nofun

/-! ## Steps -/

/-- A creation gives ids that are new, and tells them unless it fails. -/
theorem Issues.step {refs : List SeriesRef} (issues : Issues cats cats' refs)
    (known : ∀ ref, cats.Has ref → (cats.registered given).spent ref) {time : Instant}
    {chances : LockChances} {batch : CreateBatch} {answer : Except Error Answer} {e : TraceEntry}
    (entry : e = (⟨time, .create chances batch⟩, answer))
    (told : issuedBy e = refs ∨ issuedBy e = [] ∧ conceals e = true) :
    Step id (cats.registered given)
      (cats'.registered ((cats.registered given).after e).given) e := by
  have all : issuedBy e ⊆ refs := by
    rcases told with same | ⟨none, _⟩
    · exact same ▸ List.Subset.refl refs
    · exact none ▸ List.nil_subset refs
  refine .creation entry known ?_ (fun ref inside => ?_)
    (fun ref spent => ⟨spent.1, Nat.le_trans spent.2 (issues.grown ref.ns)⟩)
    (fun ref spent absent has => ?_) (fun tells ref has => ?_) rfl
  · rw [List.map_id]
    rcases told with same | ⟨none, _⟩
    · exact same ▸ issues.nodup
    · exact none ▸ List.nodup_nil
  · obtain ⟨above, within⟩ := issues.fresh ref (all inside)
    exact ⟨fun spent => absurd spent.2 (Nat.not_le.mpr above), Nat.one_le_of_lt above, within⟩
  · have issued := (issues.appears ref has).resolve_left absent
    exact absurd spent.2 (Nat.not_le.mpr (issues.fresh ref issued).1)
  · rcases told with same | ⟨_, hidden⟩
    · exact same ▸ issues.appears ref has
    · exact absurd (hidden.symm.trans tells) nofun

/-- Series are dropped. -/
theorem Drops.step {refs : List SeriesRef} (drops : Drops cats cats' (· ∈ refs))
    (known : ∀ ref, cats.Has ref → (cats.registered given).spent ref) {e : TraceEntry}
    (issues : issuedBy e = []) (there : ∀ ref ∈ refs, cats.Has ref)
    (removes : ∀ ref, removes ref e = true → ref ∈ refs)
    (uses : ∀ ref, Uses e.1 ref → cats.Has ref ∧ e.2 = .error .seriesExpired) :
    Step id (cats.registered given)
      (cats'.registered ((cats.registered given).after e).given) e := by
  refine .removal refs known issues there removes uses (fun ref spent => ?_)
    (fun ref has => drops.left has) rfl
  exact ⟨spent.1, (drops.lastId ref.ns).symm ▸ spent.2⟩

theorem Missed.touches_eq_false {ns : Namespace} {e : Error} (missed : Missed ns e)
    (ref : SeriesRef) (v : Visit) : touches ref (v, .error e) = false := by
  refine Bool.eq_false_iff.mpr fun touched => ?_
  obtain ⟨_, _, rfl⟩ := touches_error touched
  rcases missed with same | same | same <;> cases same

/-- What a visit leaves, as a step from what was kept. -/
def Steps (servers : Nat → Prop) (cats : Catalogues) (given : SeriesRef → AcceptedPoint → Prop)
    (e : TraceEntry) (left : Site Network) : Prop :=
  ∃ cats', Curated servers cats' ((cats.registered given).after e).given left ∧
    Step id (cats.registered given) (cats'.registered ((cats.registered given).after e).given) e

theorem Curated.after (h : Curated servers cats given site) (e : TraceEntry) :
    Curated servers cats ((cats.registered given).after e).given site := h.mono fun _ _ => Or.inl

/-- **A write or a read** is a step if it is one where a live series is found. -/
theorem Curated.steps_guarded (h : Curated servers cats given site) {v : Visit} {ref : SeriesRef}
    (uses : Uses v ref) {act : SeriesMetadata → Task Answer}
    (live : ∀ connections c node m found, m.ref = ref →
      found.client.connections = some connections → Reaches found connections ref.ns c node →
      Curated servers cats given found →
      let outcome := found.outcome (act m)
      Curated servers cats ((cats.registered given).after (v, outcome.answer)).given outcome.state ∧
        outcome.answer ≠ .error .seriesExpired ∧ ∀ points, outcome.answer = .ok (.points points) →
          ∀ p ∈ points, ∃ q, given ref q ∧ p.ShowsGiven q) :
    let outcome := site.outcome (guarded v.time.seconds ref act)
    Steps servers cats given (v, outcome.answer) outcome.state := by
  intro outcome
  unfold outcome
  obtain ⟨unused, e, missed, failed⟩ | ⟨absent, failed⟩ |
    ⟨m, cats', left, record, _, failed, kept, drops⟩ |
    ⟨connections, c, node, m, record, _, own, reaches, kept, ran⟩ :=
    h.guarded_cases v.time.seconds ref act
  · rw [failed]
    refine ⟨cats, h.after _, .use (e := (v, .error e)) uses h.spent ?_
      (Or.inr ⟨missed.touches_eq_false ref v, fun spent => ?_⟩) nofun⟩
    · rcases missed with rfl | rfl | rfl <;> exact nofun
    · have : 1 ≤ ref.id.number.toNat ∧ ref.id.number.toNat ≤ (cats ref.ns).lastId := spent
      omega
  · rw [failed]
    exact ⟨cats, h.after _, .missing (e := (v, .error .metadataNotFound)) uses h.spent rfl⟩
  · have has : cats.Has ref := ⟨m, record⟩
    rw [failed]
    refine ⟨cats', kept.mono fun _ _ => Or.inl, drops.step (e := (v, .error .seriesExpired)) h.spent
      uses.issuedBy_eq (List.forall_mem_singleton.mpr has)
      (fun ref' removed => List.mem_singleton.mpr (uses.removes removed).1) fun ref' uses' => ?_⟩
    obtain rfl := uses.unique uses'
    exact ⟨has, rfl⟩
  · obtain ⟨after, lives, shown⟩ := live connections c node m (site.remember ref (some m))
      (h.described record) own (reaches.remember ref (some m)) kept
    rw [ran]
    exact ⟨cats, after, .use (e := (v, ((site.remember ref (some m)).outcome (act m)).answer)) uses
      h.spent lives (Or.inl ⟨m, record⟩) shown⟩

/-- **Points are written** to a live series, or the write fails before anything is sent. -/
theorem Curated.after_append (h : Curated servers cats given site) {connections : Connections}
    {c : Connection} {node : Node} {m : SeriesMetadata} {ref : SeriesRef} (same : m.ref = ref)
    (own : site.client.connections = some connections)
    (reaches : Reaches site connections ref.ns c node) (time : Instant) (req : RequestId)
    (draws : Draws) (times : List UInt64) (values : List Binary64) :
    let outcome := site.outcome
      ((fun _ => Answer.done) <$> append ref.ns req m draws times values)
    Curated servers cats ((cats.registered given).after
        (⟨time, .write ref req draws times values⟩, outcome.answer)).given outcome.state ∧
      outcome.answer ≠ .error .seriesExpired ∧ ∀ points, outcome.answer ≠ .ok (.points points) := by
  intro outcome
  unfold outcome
  rw [Site.outcome_map]
  subst same
  -- whatever is sent or staged was handed in with this entry
  have stores : ∀ e : TraceEntry, e.1 = ⟨time, .write m.ref req draws times values⟩ →
      touches m.ref e = true → Curated servers cats ((cats.registered given).after e).given
        (site.outcome (append m.ref.ns req m draws times values)).state := by
    rintro ⟨_, answer⟩ rfl touched
    refine Preserves.curated_append m.ref.ns req draws (fun p inside => Or.inr ?_) site (h.after _)
    simpa [handedTo, touched] using inside
  obtain ⟨time', full⟩ | ⟨accepted, _⟩ | ⟨expected, stored, miscounted⟩ :=
    reaches.append_given own (h.sourced own reaches) req m draws times values
  · rw [full]
    exact ⟨h.after _, nofun, nofun⟩
  · rw [Outcome.answer_map, accepted]
    exact ⟨stores _ rfl (decide_eq_true rfl), nofun, nofun⟩
  · rw [Outcome.answer_map, miscounted]
    exact ⟨stores _ rfl (decide_eq_true rfl), nofun, nofun⟩

/-- **Points are read** from a live series. -/
theorem Curated.after_fetch (h : Curated servers cats given site) {connections : Connections}
    {c : Connection} {node : Node} {ref : SeriesRef}
    (own : site.client.connections = some connections)
    (reaches : Reaches site connections ref.ns c node) (window : Window) :
    let outcome := site.outcome (Answer.points <$> fetch ref window)
    outcome.state = site ∧ outcome.answer ≠ .error .seriesExpired ∧
      ∀ points, outcome.answer = .ok (.points points) →
        ∀ p ∈ points, ∃ q, given ref q ∧ p.ShowsGiven q := by
  intro outcome
  unfold outcome
  obtain ⟨answer, ran, lives, shown⟩ :=
    reaches.fetch_given own (h.sourced own reaches) window
  rw [Site.outcome_map, ran]
  cases answer with
  | error e =>
    refine ⟨rfl, fun expired => lives ?_, nofun⟩
    rw [Except.error.inj expired]
  | ok found =>
    refine ⟨rfl, nofun, fun points same => ?_⟩
    obtain rfl := Answer.points.inj (Except.ok.inj same)
    exact shown found rfl

/-- **A creation** gives ids that are new, also if it fails on its way. -/
theorem Curated.steps_create (h : Curated servers cats given site) (time : Instant) (chances : LockChances)
    {batch : CreateBatch} (marked : (batch.map (·.1)).Nodup) :
    let outcome := (site.outcome (create time.seconds chances batch)).map Answer.created
    Steps servers cats given (⟨time, .create chances batch⟩, outcome.answer) outcome.state := by
  intro outcome
  unfold outcome create
  rw [Site.outcome_bind]
  cases own : site.client.connections with
  | none =>
    rw [Site.outcome_connected_none own]
    exact ⟨cats, h.after _, (Issues.refl cats).step h.spent rfl (Or.inl rfl)⟩
  | some connections =>
    rw [Site.outcome_connected own, Outcome.andThen_succeed]
    have named : ∀ entry ∈ batch, batch.nsOf entry.1 = entry.2.ns := fun entry inside =>
      CreateBatch.nsOf_of_mem marked inside
    obtain ⟨cats', refs, kept, issues, told⟩ := h.createFrom own time.seconds chances named 0
    refine ⟨cats', kept.mono fun _ _ => Or.inl, issues.step h.spent rfl ?_⟩
    rw [Outcome.answer_map]
    cases answer : (site.outcome
        (Remote.createFrom connections time.seconds chances 0 batch)).answer with
    | error e => exact Or.inr ⟨rfl, rfl⟩
    | ok rows => exact Or.inl (told rows answer)

/-- **One visit** that does not clear the servers is a step. -/
theorem Curated.step (h : Curated servers cats given site) (v : Visit) (marked : v.call.Marked)
    (keeps : v.call ≠ .clear) (anywhere : site.client.connections = none → ∀ i, servers i) :
    Steps servers cats given (v, (site.visit v).answer) (site.visit v).state := by
  have quiet : ∀ {α : Type} (task : Task α) (f : α → Answer), Preserves (Curated servers cats given) task →
      Curated servers cats given (site.outcome (task >>= fun a => pure (f a))).state := fun task f kept =>
    Preserves.bind kept (fun _ => Preserves.pure _) site h
  obtain ⟨time, call⟩ := v
  cases call with
  | clear => exact absurd rfl keeps
  | connect =>
    have visited : site.visit ⟨time, .connect⟩ =
        (site.outcome Remote.connect).map fun _ => Answer.done :=
      Site.outcome_map site Remote.connect _
    rw [visited]
    exact ⟨cats, (h.connect anywhere).after _, .quiet h.spent rfl (fun _ => rfl) fun _ => id⟩
  | flush req =>
    exact ⟨cats, (quiet _ _ (Preserves.curated_flush req)).after _,
      .quiet h.spent rfl (fun _ => rfl) fun _ => id⟩
  | search query =>
    exact ⟨cats, (quiet _ _ (Preserves.curated_search query)).after _,
      .quiet h.spent rfl (fun _ => rfl) fun _ => id⟩
  | create chances batch =>
    have visited : site.visit ⟨time, .create chances batch⟩ =
        (site.outcome (create time.seconds chances batch)).map Answer.created := by
      rw [← Site.outcome_map, ← bind_pure_comp]
      rfl
    rw [visited]
    exact h.steps_create time chances marked
  | delete refs =>
    have visited : site.visit ⟨time, .delete refs⟩ =
        (site.outcome (delete refs)).map fun _ => Answer.done := by
      rw [← Site.outcome_map, ← bind_pure_comp]
      rfl
    rw [visited]
    obtain ⟨e, failed⟩ | ⟨there, cats', left, deleted, kept, drops⟩ := h.delete_cases refs
    · rw [failed]
      exact ⟨cats, h.after _, .quiet h.spent rfl (fun _ => rfl) fun _ => id⟩
    · rw [deleted]
      refine ⟨cats', kept.mono fun _ _ => Or.inl, drops.step h.spent rfl there
        (fun ref removed => ?_) fun _ => False.elim⟩
      simpa [removes] using removed
  | write ref req draws times values =>
    rw [Site.visit_write]
    refine h.steps_guarded (v := ⟨time, .write ref req draws times values⟩) rfl
      fun connections c node m found same own reaches kept => ?_
    obtain ⟨after, lives, none⟩ := kept.after_append same own reaches time req draws times values
    exact ⟨after, lives, fun points shown => absurd shown (none points)⟩
  | read ref window =>
    rw [Site.visit_read]
    refine h.steps_guarded (v := ⟨time, .read ref window⟩) rfl
      fun connections c node m found same own reaches kept => ?_
    obtain ⟨unchanged, lives, shown⟩ := kept.after_fetch own reaches window
    refine ⟨?_, lives, shown⟩
    rw [unchanged]
    exact kept.after _

/-- **All visits** that do not clear the servers are a history. -/
theorem Curated.history (h : Curated (fun _ => True) cats given site) (vs : List Visit)
    (marked : ∀ v ∈ vs, v.call.Marked) (keeps : ∀ v ∈ vs, v.call ≠ .clear) :
    ∃ cats' given', History id (cats.registered given) (site.visits vs).1
      (cats'.registered given') ∧ Curated (fun _ => True) cats' given' (site.visits vs).2 := by
  induction vs generalizing site cats given with
  | nil => exact ⟨cats, given, .nil _, h⟩
  | cons v rest ih =>
    obtain ⟨mid, kept, step⟩ := h.step v (marked v List.mem_cons_self) (keeps v List.mem_cons_self)
      fun _ _ => trivial
    obtain ⟨last, given', later, kept'⟩ := ih kept
      (fun v hv => marked v (List.mem_cons_of_mem _ hv))
      (fun v hv => keeps v (List.mem_cons_of_mem _ hv))
    exact ⟨last, given', .cons step later, kept'⟩

end Remote

end SeriesStorage
