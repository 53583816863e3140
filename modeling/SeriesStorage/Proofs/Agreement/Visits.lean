import SeriesStorage.Proofs.Agreement.Calls

/-!
# Both kinds of backends agree

Whatever is asked of a store in memory and of a client that has servers to itself, both answer the
same (`visits_agree`): the same ids and flags, the same errors, and the same points up to the order
of points with equal timestamps and up to the payloads of NaNs.

The calls keep to one namespace, and a series is written directly and read for at most as many
buckets as a read may visit (`SameCall`).  A server is disturbed if a command of it fails or if it
lacks a distinct member for a point (`isDisturbed`); random choices may differ as long as it is not.
-/

namespace SeriesStorage

/-! ## What is asked and answered -/

/-- The same call on two backends, within one namespace.  Random choices may differ; timestamps are
whole numbers that a double holds exactly. -/
inductive SameCall (ns : Namespace) : Call → Call → Prop
  | create (chances chances' : LockChances) {batch : CreateBatch} :
      (∀ entry ∈ batch, entry.2.ns = ns) →
      SameCall ns (.create chances batch) (.create chances' batch)
  | search {query : Search} : query.ns = ns → SameCall ns (.search query) (.search query)
  | delete {refs : List SeriesRef} : (∀ ref ∈ refs, ref.ns = ns) →
      SameCall ns (.delete refs) (.delete refs)
  | clear : SameCall ns .clear .clear
  | write (id : SeriesId) {req : RequestId} (draws draws' : Draws) {times : List UInt64}
      (values : List Binary64) : req.isEmpty = true →
      (∀ time ∈ times, time.toNat ≤ 0x20000000000000) →
      SameCall ns (.write ⟨ns, id⟩ req draws times values) (.write ⟨ns, id⟩ req draws' times values)
  | read (id : SeriesId) {window : Window} :
      (bucketCount window.first window.last).toNat ≤ maxReadBuckets →
      SameCall ns (.read ⟨ns, id⟩ window) (.read ⟨ns, id⟩ window)

/-- The same visit, at the same instant. -/
structure SameVisit (ns : Namespace) (v w : Visit) : Prop where
  time : v.time = w.time
  call : SameCall ns v.call w.call

/-- A point with its value without the payload of a NaN. -/
def Point.canonical (p : Point) : Point := ⟨p.time, p.value.canonical⟩

/-- The same answer: rows of a creation in any order, points with equal timestamps in any order and
NaNs with any payload. -/
inductive SameAnswer : Except Error Answer → Except Error Answer → Prop
  | failed (e : Error) : SameAnswer (.error e) (.error e)
  | done : SameAnswer (.ok .done) (.ok .done)
  | created {rows rows' : List Created} : rows.Perm rows' →
      SameAnswer (.ok (.created rows)) (.ok (.created rows'))
  | found (refs : List SeriesRef) : SameAnswer (.ok (.found refs)) (.ok (.found refs))
  | points {points points' : List Point} : points.map (·.time) = points'.map (·.time) →
      (points.map Point.canonical).Perm (points'.map Point.canonical) →
      SameAnswer (.ok (.points points)) (.ok (.points points'))

/-- Whether a command failed, or a point lacked a distinct member. -/
def isDisturbed : Except Error Answer → Bool
  | .error (.redis _) => true
  | .error (.keySpaceExhausted _) => true
  | .error (.internal (.writeCount _ _)) => true
  | _ => false

/-! ## Points that are shown -/

namespace Remote

theorem pointsOfWindow_readBack (window : Window) (accepted : List AcceptedPoint) :
    pointsOfWindow window (readBack accepted) =
      (pointsOfWindow window accepted).map Point.canonical := by
  unfold pointsOfWindow readBack
  rw [List.map_map, List.filter_map, List.filter_map, List.map_map]
  rfl

/-- What shows accepted points, and what shows them as they are read back, is the same answer. -/
theorem sameAnswer_of_shows {window : Window} {accepted : List AcceptedPoint}
    {answer answer' : Except Error Answer} (h : Shows window accepted answer)
    (h' : Shows window (readBack accepted) answer') : SameAnswer answer answer' := by
  unfold Shows at h'
  rw [pointsOfWindow_readBack] at h'
  obtain ⟨nothing, rfl⟩ | ⟨points, rfl, some, perm, sorted⟩ := h
  · obtain ⟨_, rfl⟩ | ⟨points', rfl, some', perm', _⟩ := h'
    · exact .failed _
    · rw [nothing] at perm'
      exact absurd (List.perm_nil.mp perm') some'
  · obtain ⟨nothing, rfl⟩ | ⟨points', rfl, _, perm', sorted'⟩ := h'
    · rw [List.map_eq_nil_iff.mp nothing] at perm
      exact absurd (List.perm_nil.mp perm) some
    · refine .points ?_ ?_
      · have times := perm'.map (·.time)
        rw [List.map_map] at times
        exact List.Perm.eq_of_pairwise (fun _ _ _ _ le ge => UInt64.le_antisymm le ge)
          (List.pairwise_map.mpr sorted) (List.pairwise_map.mpr sorted')
          ((perm.map (·.time)).trans times.symm)
      · have shown := (perm'.map Point.canonical).symm
        rw [List.map_map] at shown
        refine (perm.map _).trans (List.Perm.trans (List.Perm.of_eq ?_) shown)
        refine List.map_congr_left fun p _ => ?_
        simp [Point.canonical, Binary64.canonical_canonical]

open Memory (Store)
open Server (Network)

variable {connections : Connections} {c : Connection} {ns : Namespace} {s : Store}
  {site : Site Network}

/-! ## One visit -/

/-- The server was disturbed, or both outcomes are the same and both sides agree afterwards. -/
def Corresponds (connections : Connections) (c : Connection) (ns : Namespace)
    (ours : Outcome Store Answer) (theirs : Outcome (Site Network) Answer) : Prop :=
  isDisturbed theirs.answer = true ∨
    (SameAnswer ours.answer theirs.answer ∧ Agrees connections c ns ours.state theirs.state)

namespace Agrees

/-- What is done with a live series corresponds, and so does the whole call. -/
theorem guarded (h : Agrees connections c ns s site) (now : UInt64) (id : SeriesId)
    {act : Outcome Store Answer} {task : SeriesMetadata → Task Answer}
    (live : ∀ m site', s.records.get? id = some m → Agrees connections c ns s site' →
      Corresponds connections c ns act (site'.outcome (task m))) :
    Corresponds connections c ns (s.guarded now ⟨ns, id⟩ act)
      (site.outcome (guarded now ⟨ns, id⟩ task)) := by
  obtain ⟨site', accessed, h'⟩ := h.access now id
  unfold Remote.guarded Memory.Store.guarded
  rw [Site.outcome_bind, accessed, Outcome.andThen_succeed]
  cases found : s.access now ⟨ns, id⟩ with
  | live m => exact live m site' (Access.ofMetadata_eq_live_iff.mp found).1 h'
  | unknown => exact Or.inr ⟨.failed _, h'⟩
  | expired m =>
    have within : ∀ ref ∈ [(⟨ns, id⟩ : SeriesRef)], ref.ns = ns := by simp
    dsimp only
    rw [Site.outcome_bind]
    obtain ⟨left, removed, removed', agrees⟩ | ⟨refused, refused'⟩ := h'.delete within
    · rw [removed, removed']
      exact Or.inr ⟨.failed _, agrees⟩
    · rw [refused, refused']
      exact Or.inr ⟨.failed _, h'⟩

variable {time : Instant}

theorem visit_create (h : Agrees connections c ns s site) (chances chances' : LockChances)
    {batch : CreateBatch} (within : ∀ entry ∈ batch, entry.2.ns = ns) :
    Corresponds connections c ns (s.visit ⟨time, .create chances batch⟩)
      (site.visit ⟨time, .create chances' batch⟩) := by
  obtain ⟨rows, all, s', created, inserts, perm⟩ :=
    h.only.toIndexed.linked.create time.seconds batch
  have ours : s.visit ⟨time, .create chances batch⟩ = .succeed (.created rows) s' := by
    show (s.create time.seconds batch).map Answer.created = _
    rw [created]
    rfl
  have theirs : site.visit ⟨time, .create chances' batch⟩ = (site.outcome
      (Remote.createFrom connections time.seconds chances' 0 batch)).map .created := by
    show site.outcome (Answer.created <$> create time.seconds chances' batch) = _
    unfold create
    rw [Site.outcome_map, Site.outcome_bind, Site.outcome_connected h.connected,
      Outcome.andThen_succeed]
  rw [ours, theirs]
  obtain ⟨text, refused⟩ | ⟨site', ran, agrees⟩ := createFrom inserts h within chances' 0
  · refine Or.inl ?_
    rw [Outcome.answer_map, refused]
    rfl
  · rw [ran]
    exact Or.inr ⟨.created perm, agrees⟩

theorem visit_search (h : Agrees connections c ns s site) {query : Search} (hns : query.ns = ns) :
    Corresponds connections c ns (s.visit ⟨time, .search query⟩)
      (site.visit ⟨time, .search query⟩) := by
  obtain ⟨site', ran, agrees⟩ := h.search hns
  have theirs : site.visit ⟨time, .search query⟩ =
      (site.outcome (Remote.search query)).map .found :=
    site.outcome_map (Remote.search query) Answer.found
  rw [theirs, ran]
  refine Or.inr ⟨?_, agrees⟩
  show SameAnswer ((s.search query).map .found) ((s.search query).map .found)
  cases s.search query with
  | error e => exact .failed e
  | ok refs => exact .found refs

theorem visit_delete (h : Agrees connections c ns s site) {refs : List SeriesRef}
    (within : ∀ ref ∈ refs, ref.ns = ns) :
    Corresponds connections c ns (s.visit ⟨time, .delete refs⟩)
      (site.visit ⟨time, .delete refs⟩) := by
  have ours : s.visit ⟨time, .delete refs⟩ = (s.delete refs).map fun _ => .done := rfl
  have theirs : site.visit ⟨time, .delete refs⟩ =
      (site.outcome (Remote.delete refs)).map fun _ => .done :=
    site.outcome_map (Remote.delete refs) fun _ => Answer.done
  rw [ours, theirs]
  obtain ⟨left, removed, removed', agrees⟩ | ⟨refused, refused'⟩ := h.delete within
  · rw [removed, removed']
    exact Or.inr ⟨.done, agrees⟩
  · rw [refused, refused']
    exact Or.inr ⟨.failed _, h⟩

theorem visit_clear (h : Agrees connections c ns s site) :
    Corresponds connections c ns (s.visit ⟨time, .clear⟩) (site.visit ⟨time, .clear⟩) := by
  obtain ⟨site', ran, agrees⟩ := h.clear
  have theirs : site.visit ⟨time, .clear⟩ = (site.outcome Remote.clear).map fun _ => .done :=
    site.outcome_map Remote.clear fun _ => Answer.done
  rw [theirs, ran]
  exact Or.inr ⟨.done, agrees⟩

theorem visit_write (h : Agrees connections c ns s site) (id : SeriesId) {req : RequestId}
    (direct : req.isEmpty = true) (draws draws' : Draws) {times : List UInt64}
    (exact : ∀ time ∈ times, time.toNat ≤ 0x20000000000000) (values : List Binary64) :
    Corresponds connections c ns (s.visit ⟨time, .write ⟨ns, id⟩ req draws times values⟩)
      (site.visit ⟨time, .write ⟨ns, id⟩ req draws' times values⟩) := by
  rw [Memory.Store.visit_write, Site.visit_write]
  refine h.guarded time.seconds id fun m site' record h' => ?_
  rw [Site.outcome_map]
  obtain ⟨lacking, exhausted⟩ | ⟨expected, stored, miscounted⟩ | ⟨left, ran, agrees⟩ :=
    h'.append record direct draws draws' exact values
  · refine Or.inl ?_
    rw [Outcome.answer_map, exhausted]
    rfl
  · refine Or.inl ?_
    rw [Outcome.answer_map, miscounted]
    rfl
  · rw [ran]
    exact Or.inr ⟨.done, agrees⟩

theorem visit_read (h : Agrees connections c ns s site) (id : SeriesId) {window : Window}
    (narrow : (bucketCount window.first window.last).toNat ≤ maxReadBuckets) :
    Corresponds connections c ns (s.visit ⟨time, .read ⟨ns, id⟩ window⟩)
      (site.visit ⟨time, .read ⟨ns, id⟩ window⟩) := by
  rw [Memory.Store.visit_read, Site.visit_read]
  refine h.guarded time.seconds id fun m site' record h' => ?_
  obtain ⟨accepted, answer, ran, ours, theirs⟩ := h'.fetch record narrow
  rw [Site.outcome_map, ran]
  exact Or.inr ⟨sameAnswer_of_shows ours theirs, h'⟩

/-- **One visit.** -/
theorem visit (h : Agrees connections c ns s site) {v w : Visit} (same : SameVisit ns v w) :
    Corresponds connections c ns (s.visit v) (site.visit w) := by
  obtain ⟨time, call⟩ := v
  obtain ⟨time', call'⟩ := w
  obtain ⟨rfl, same⟩ := same
  cases same with
  | create chances chances' within => exact h.visit_create chances chances' within
  | search within => exact h.visit_search within
  | delete within => exact h.visit_delete within
  | clear => exact h.visit_clear
  | write id draws draws' values direct exact =>
    exact h.visit_write id direct draws draws' exact values
  | read id narrow => exact h.visit_read id narrow

/-- **All visits**, as long as the server is not disturbed. -/
theorem visits (h : Agrees connections c ns s site) {vs ws : List Visit}
    (same : List.Forall₂ (SameVisit ns) vs ws)
    (calm : ∀ e ∈ (site.visits ws).1, isDisturbed e.2 = false) :
    List.Forall₂ (fun e e' => SameAnswer e.2 e'.2) (s.visits vs).1 (site.visits ws).1 := by
  induction same generalizing s site with
  | nil => exact .nil
  | @cons v w vs ws first _ ih =>
    obtain disturbed | ⟨answer, agrees⟩ := h.visit first
    · rw [calm _ List.mem_cons_self] at disturbed
      cases disturbed
    · exact .cons answer (ih agrees fun e he => calm e (List.mem_cons_of_mem _ he))

end Agrees

/-- A client that has connected has done so on the network as well. -/
theorem opened_connected {options : Options} {stage : Server.Stage} (calm : stage.Calm)
    {time : Instant} {now : Site Server.Stage} (connected :
      (⟨.ofOptions options, stage⟩ : Site Server.Stage).visit ⟨time, .connect⟩ =
        .succeed .done now) :
    let site : Site Network := ⟨.ofOptions options, stage.network⟩
    now.world.Calm ∧ now.onNetwork = (site.outcome connect).state ∧
      ∃ connections, Opened site now.onNetwork connections := by
  intro network
  let site : Site Server.Stage := ⟨.ofOptions options, stage⟩
  obtain ⟨onNetwork, calm'⟩ := site.outcome_network calm (Remote.perform time.seconds .connect)
  have opening : network.outcome (Remote.perform time.seconds .connect) =
      (network.outcome connect).map fun _ => .done :=
    Site.outcome_map network connect fun _ => Answer.done
  change site.outcome (Remote.perform time.seconds .connect) = .succeed .done now at connected
  change _ = network.outcome (Remote.perform time.seconds .connect) at onNetwork
  rw [connected, opening] at onNetwork
  rw [connected] at calm'
  have after : now.onNetwork = (network.outcome connect).state := congrArg Outcome.state onNetwork
  have ok : (network.outcome connect).answer = .ok () := by
    have answered := congrArg Outcome.answer onNetwork
    change Except.ok Answer.done =
      (network.outcome connect).answer.map fun _ => Answer.done at answered
    cases answer : (network.outcome connect).answer with
    | error e =>
      rw [answer] at answered
      cases answered
    | ok u => rfl
  have fresh : network.client.connections = none := rfl
  obtain ⟨connections, opened⟩ := connect_opened fresh ok
  rw [← after] at opened
  exact ⟨calm', after, connections, opened⟩

/-- A client that has connected to empty servers agrees with an empty store. -/
theorem agrees_connected {options : Options} {stage : Server.Stage} (calm : stage.Calm)
    (empty : ∀ r ∈ stage.servers, r.keyspace = .empty)
    (served : ∃ entry ∈ options.connections, entry.1 = ns ∨ entry.1 = defaultNamespace)
    {time : Instant} {now : Site Server.Stage} (connected :
      (⟨.ofOptions options, stage⟩ : Site Server.Stage).visit ⟨time, .connect⟩ =
        .succeed .done now) :
    now.world.Calm ∧ ∃ connections c, Agrees connections c ns .empty now.onNetwork := by
  obtain ⟨calm', _, connections, opened⟩ := opened_connected calm connected
  obtain ⟨c, agrees⟩ := agrees_opened opened served
    (fun _ _ found => Server.Stage.keyspace_network empty found) fun _ => rfl
  exact ⟨calm', connections, c, agrees⟩

end Remote

/-! ## Any visits -/

open Remote in
/-- **The backends agree.**  Take a store in memory that is empty at first, and a client that has
connected to empty servers, which nobody else uses and which do what they are told.  Make the same
visits to both, within a namespace that has a connection.  Then both answer the same, as long as no
command fails and no point lacks a distinct member. -/
theorem visits_agree (options : Remote.Options) (stage : Server.Stage) (ns : Namespace)
    (start first : Instant) (vs ws : List Visit) (calm : stage.Calm)
    (empty : ∀ r ∈ stage.servers, r.keyspace = .empty)
    (served : ∃ entry ∈ options.connections, entry.1 = ns ∨ entry.1 = defaultNamespace)
    (connected : ((Deployment.lone (.remote (.ofOptions options)) stage start).visit
      ⟨first, .connect⟩).answer = .ok .done)
    (same : List.Forall₂ (SameVisit ns) vs ws) :
    let ours := ((Deployment.ofBackends [.memory .empty] start).visits vs).1
    let theirs := (((Deployment.lone (.remote (.ofOptions options)) stage start).visit
      ⟨first, .connect⟩).state.visits ws).1
    (∀ e ∈ theirs, isDisturbed e.2 = false) →
      List.Forall₂ (fun e e' => SameAnswer e.2 e'.2) ours theirs := by
  let site : Site Server.Stage := ⟨.ofOptions options, stage⟩
  have visited : (Deployment.lone (.remote (.ofOptions options)) stage start).visit
      ⟨first, .connect⟩ = (site.visit ⟨first, .connect⟩).mapState (Deployment.ofSite first) :=
    Deployment.visit_ofSite site start ⟨first, .connect⟩
  rw [visited] at connected ⊢
  have succeeded : site.visit ⟨first, .connect⟩ =
      .succeed .done (site.visit ⟨first, .connect⟩).state := Outcome.eq_succeed connected
  rw [succeeded]
  obtain ⟨calm', connections, c, agrees⟩ := agrees_connected calm empty served succeeded
  generalize (site.visit ⟨first, .connect⟩).state = now at agrees calm'
  obtain ⟨_, run⟩ := Deployment.visits_lone_memory .empty ⟨[], [], []⟩ start vs
  change (Deployment.ofBackends [.memory .empty] start).visits vs = _ at run
  obtain ⟨_, run'⟩ := Deployment.visits_ofSite now first ws
  obtain ⟨trace, _⟩ := now.visits_network calm' ws
  intro ours theirs undisturbed
  have theirs_eq : theirs = (now.onNetwork.visits ws).1 :=
    (congrArg Prod.fst run').trans trace
  rw [theirs_eq] at undisturbed ⊢
  have ours_eq : ours = (Memory.Store.empty.visits vs).1 := congrArg Prod.fst run
  rw [ours_eq]
  exact agrees.visits same undisturbed

/-- One server for one namespace. -/
def loneServer : Server.Stage := ⟨[.withPassword ""], [⟨"a", 1, 0⟩], []⟩

def loneOptions : Remote.Options := { connections := [(⟨0⟩, ⟨"a", 1, "", 0, .server⟩)] }

/-- A series is written, read, found, and found expired; its points are of two days, and a value is
a NaN with a payload. -/
def mixedVisits (draws : Draws) : List Visit :=
  let ref : SeriesRef := ⟨⟨0⟩, ⟨1⟩⟩
  [⟨⟨0⟩, .create (fun _ => ⟨"token", 0⟩) [(⟨7⟩, ⟨⟨0⟩, "load", ["a"], some 5⟩)]⟩,
    ⟨⟨1000⟩, .write ref .empty draws [86400005] [.infinity]⟩,
    ⟨⟨1000⟩, .write ref .empty draws [5] [⟨0xfff8000000000001⟩]⟩,
    ⟨⟨2000⟩, .read ref ⟨0, 100000000⟩⟩,
    ⟨⟨3000⟩, .search (.byName ⟨0⟩ "load")⟩,
    ⟨⟨9000⟩, .read ref ⟨0, 100000000⟩⟩,
    ⟨⟨9000⟩, .delete [ref]⟩,
    ⟨⟨9000⟩, .clear⟩]

theorem sameVisit_mixed (draws draws' : Draws) :
    List.Forall₂ (SameVisit ⟨0⟩) (mixedVisits draws) (mixedVisits draws') := by
  have late : ∀ time ∈ [(86400005 : UInt64)], time.toNat ≤ 0x20000000000000 :=
    List.forall_mem_singleton.mpr (by decide)
  have early : ∀ time ∈ [(5 : UInt64)], time.toNat ≤ 0x20000000000000 :=
    List.forall_mem_singleton.mpr (by decide)
  refine .cons ⟨rfl, .create _ _ (by decide)⟩ ?_
  refine .cons ⟨rfl, .write _ _ _ _ rfl late⟩ ?_
  refine .cons ⟨rfl, .write _ _ _ _ rfl early⟩ ?_
  refine .cons ⟨rfl, .read _ (by decide)⟩ ?_
  refine .cons ⟨rfl, .search rfl⟩ ?_
  refine .cons ⟨rfl, .read _ (by decide)⟩ ?_
  refine .cons ⟨rfl, .delete (by decide)⟩ ?_
  exact .cons ⟨rfl, .clear⟩ .nil

/-- Both answer the same to visits of all kinds, with different paddings. -/
theorem visits_agree_mixed :
    List.Forall₂ (fun e e' => SameAnswer e.2 e'.2)
      ((Deployment.ofBackends [.memory .empty] ⟨0⟩).visits
        (mixedVisits fun _ _ => ⟨⟨0x3fa999999999999a⟩, by decide, by decide⟩)).1
      (((Deployment.lone (.remote (.ofOptions loneOptions)) loneServer ⟨0⟩).visit
        ⟨⟨0⟩, .connect⟩).state.visits (mixedVisits fun _ _ => .zero)).1 := by
  obtain ⟨calm, empty⟩ :=
    Server.Stage.calm_started (show loneServer.servers = [""].map .withPassword from rfl)
  have undisturbed : ((((Deployment.lone (.remote (.ofOptions loneOptions)) loneServer ⟨0⟩).visit
      ⟨⟨0⟩, .connect⟩).state.visits (mixedVisits fun _ _ => .zero)).1.map (·.2)).all
        (fun answer => !isDisturbed answer) = true := by decide +kernel
  refine visits_agree loneOptions loneServer ⟨0⟩ ⟨0⟩ ⟨0⟩ _ _ calm empty
    ⟨_, List.mem_cons_self, Or.inl rfl⟩ (by decide +kernel) (sameVisit_mixed _ _) fun e he => ?_
  simpa using List.all_eq_true.mp undisturbed e.2 (List.mem_map_of_mem he)

end SeriesStorage
