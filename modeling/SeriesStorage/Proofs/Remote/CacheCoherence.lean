import SeriesStorage.Proofs.Remote.CachedRecords
import SeriesStorage.Proofs.Remote.Flush
import SeriesStorage.Proofs.Remote.WithoutPoints

/-!
# Cache coherence

A cached descriptor should be matched by the record of its series on the server of its namespace.
Where commands may be refused this is lost in one way only: a visit that removes series fails after
it has removed the record of one, before the cache has forgotten it (`Strands`).  Deletions, also
those of expired series, and clears can do that, since they forget cached descriptors last, and only
if nothing failed.

* `visit_intact`: what one visit leaves.
* `visits_cached`: every cached descriptor is matched, but for stranded ones, after any visits.
-/

namespace SeriesStorage

namespace Remote

open Server (Attempt Attempts Command Keyspace Rehearsal Reply Request Stage)

variable {stale gone : SeriesRef → Prop} {connections : Connections}

/-! ## Requests -/

/-- Servers that were sent a request have moved. -/
theorem moved_of_served {stage : Stage} {server : Nat} {request : Request}
    {result : Except Fault (List Reply) × Stage}
    (served : Stage.Served stage server request result) (undisturbed : stage.Undisturbed)
    (h : ∀ command ∈ request.commands, ∀ required ks reply ks',
      Attempt required command ks reply ks' → Leaves gone ks ks') :
    result.2.Undisturbed ∧ Moved gone stage result.2 := by
  have one : ∀ r r' : Rehearsal, stage.servers[server]? = some r →
      Leaves gone r.keyspace r'.keyspace → ∀ log,
      Moved gone stage { stage.update server fun _ => r' with log } := by
    intro r r' found leaves log i
    dsimp only
    rw [Stage.getElem?_update]
    split
    · next here =>
      subst here
      exact Or.inr ⟨r, r', found, by rw [found]; rfl, leaves⟩
    · exact Or.inl rfl
  cases served with
  | missing none => exact ⟨undisturbed, fun i => Or.inl rfl⟩
  | @refused r r' _ _ found same _ quiet _ =>
    exact ⟨undisturbed.update server quiet _, one r r' found (by rw [same]; exact .refl _ _) _⟩
  | @attempted r r' replies found _ quiet attempts =>
    refine ⟨undisturbed.update server quiet _, one r r' found ?_ _⟩
    exact attempts.preserves (P := Leaves gone r.keyspace)
      (fun command inside ks reply ks' attempt leaves =>
        leaves.trans (h command inside _ ks reply ks' attempt)) (.refl _ _)

namespace Preserves

theorem intact_request (server : Nat) (r : Request)
    (h : ∀ command ∈ r.commands, ∀ required ks reply ks',
      Attempt required command ks reply ks' → Leaves gone ks ks') :
    Preserves (Intact stale gone) (request server r) := by
  intro site intact
  obtain ⟨undisturbed, moved⟩ :=
    moved_of_served (Stage.served intact.undisturbed server r) intact.undisturbed h
  rw [Site.outcome_request]
  exact intact.moved undisturbed moved rfl rfl fun _ _ found => found

theorem intact_quiet (server : Nat) (r : Request) (h : ∀ command ∈ r.commands, Quiet command) :
    Preserves (Intact stale gone) (request server r) :=
  intact_request server r fun command inside _ _ _ _ attempt => (h command inside).leaves attempt

theorem intact_keyless (server : Nat) (r : Request)
    (h : ∀ command ∈ r.commands, ∀ key, ¬ command.Changes key) :
    Preserves (Intact stale gone) (request server r) :=
  intact_quiet server r fun command inside => quiet_of_keyless (h command inside)

/-- Commands that change keys of points only. -/
theorem intact_points (server : Nat) (r : Request) (h : ∀ command ∈ r.commands, OnPoints command) :
    Preserves (Intact stale gone) (request server r) :=
  intact_quiet server r fun command inside => (h command inside).quiet

end Preserves

/-! ## Looking up -/

/-- Between calls of a client with these connections. -/
def Ready (stale : SeriesRef → Prop) (connections : Connections) (site : Site Stage) : Prop :=
  Intact stale Nobody site ∧ site.client.connections = some connections

/-- A descriptor that is loaded is the record of its series, before and after. -/
theorem leads_loadMetadata (ref : SeriesRef) (first : Site Stage) :
    Leads (fun site => Ready stale connections site ∧ site = first) (loadMetadata connections ref)
      fun answer site => Ready stale connections site ∧
        ∀ m, answer = .ok (some m) → Matched first ref m ∧ Matched site ref m := by
  have asked : Leads (fun site => Ready stale connections site ∧ site = first)
      (ask connections ref.ns (.get (Key.descriptor ref)) textOrNothing) fun answer site =>
        Ready stale connections site ∧ ∀ text, answer = .ok (some text) →
          ∀ m, SeriesMetadata.decode text = .ok m → Matched first ref m ∧ Matched site ref m := by
    rintro site ⟨⟨intact, own⟩, rfl⟩
    obtain ⟨c, r, route, found⟩ | unserved :=
      served_or_unserved site.world connections ref.ns
    · have h := OnServer.askText (Key.descriptor ref) (P := fun client ks _ =>
          client = site.client ∧ ks = r.keyspace)
        (Q := fun answer client ks _ => client = site.client ∧ ks = r.keyspace ∧
          ∀ text, answer = .ok (some text) →
            r.keyspace.string? (Key.descriptor ref) = .ok (some text)) route
        (fun client ks set answer hP there _ => ⟨hP.1, hP.2, fun text ok => hP.2 ▸ there _ ok⟩)
        site (.start_self intact.undisturbed found ⟨rfl, rfl⟩)
      have moved : Moved Nobody site.world _ := h.moved found fun client ks _ hP => by
        rw [hP.2.1]
        exact .refl _ _
      obtain ⟨r', set, found', _, _, client, same, texts⟩ := h.here
      have own' := (congrArg Client.connections client).trans own
      refine ⟨⟨intact.moved h.undisturbed moved (by rw [client]) (by rw [client])
        (by rw [client]; exact fun _ _ found => found), own'⟩, fun text ok m decoded => ?_⟩
      obtain ⟨given, filed⟩ := intact.filed r (List.mem_of_getElem? found) ref.ns
      have record := filed.holdsRecord (texts text ok) decoded
      exact ⟨⟨r.keyspace, ⟨connections, c, r, own, route, found, rfl⟩, record⟩,
        ⟨r.keyspace, ⟨connections, c, r', own', route, found', same⟩, record⟩⟩
    · obtain ⟨e, failed⟩ := unserved.ask (.get (Key.descriptor ref)) textOrNothing
      rw [failed]
      exact ⟨⟨intact, own⟩, fun text ok => by cases ok⟩
  refine asked.bind (fun e site h => ⟨h.1, fun m ok => by cases ok⟩) fun text => ?_
  cases text with
  | none => exact Leads.pure fun site h => ⟨h.1, fun m ok => by cases ok⟩
  | some text =>
    dsimp only
    split
    · next m decoded =>
      refine Leads.pure fun site h => ⟨h.1, fun m' ok => ?_⟩
      obtain rfl := Option.some.inj (Except.ok.inj ok)
      exact h.2 text rfl m decoded
    · exact Leads.throw fun site h => ⟨h.1, fun m ok => by cases ok⟩

/-- What is known of a descriptor may be put in front of the cache. -/
theorem Ready.remember {site : Site Stage} {ref : SeriesRef} {m : SeriesMetadata}
    (ready : Ready stale connections site) (known : stale ref ∨ Matched site ref m) :
    Ready stale connections (site.remember ref (some m)) := by
  obtain ⟨intact, own⟩ := ready
  have matched : ∀ ref' m', Matched site ref' m' → Matched (site.remember ref (some m)) ref' m' :=
    fun _ _ h => h
  refine ⟨⟨intact.undisturbed, intact.filed, intact.staged, fun ref' m' found => ?_⟩, own⟩
  rcases Cache.get?_of_insert found with ⟨rfl, rfl⟩ | before
  · exact known.imp_right fun h => Or.inl (matched _ _ h)
  · exact (intact.cached ref' m' before).imp_right
      (Or.imp (matched _ _) fun none => none.1.elim)

/-- A descriptor that is cached or loaded is the record of its series, unless it is stale. -/
theorem leads_cachedMetadata (ref : SeriesRef) (first : Site Stage) :
    Leads (fun site => Ready stale connections site ∧ site = first)
      (cachedMetadata connections ref) fun answer site => Ready stale connections site ∧
        ∀ m, answer = .ok (some m) → stale ref ∨ Matched first ref m := by
  rintro site ⟨ready, rfl⟩
  unfold cachedMetadata
  rw [Site.outcome_bind, Site.outcome_get, Outcome.andThen_succeed]
  cases cached : site.client.cache.get? ref with
  | some m =>
    have known := (ready.1.cached ref m cached).imp_right (Or.resolve_right · fun none => none.1)
    dsimp only
    rw [Site.outcome_bind, Site.outcome_modify, Outcome.andThen_succeed]
    refine ⟨ready.remember known, fun m' ok => ?_⟩
    obtain rfl := Option.some.inj (Except.ok.inj ok)
    exact known
  | none =>
    refine ((leads_loadMetadata ref site).bind (Q := fun answer after =>
      Ready stale connections after ∧
        ∀ m, answer = .ok (some m) → stale ref ∨ Matched site ref m)
      (fun e after h => ⟨h.1, fun m ok => by cases ok⟩) fun found => ?_) site ⟨ready, rfl⟩
    intro after h
    cases found with
    | none => exact ⟨h.1, fun m ok => by cases ok⟩
    | some m =>
      dsimp only
      rw [Site.outcome_bind, Site.outcome_modify, Outcome.andThen_succeed]
      refine ⟨h.1.remember (Or.inr (h.2 m rfl).2), fun m' ok => ?_⟩
      obtain rfl := Option.some.inj (Except.ok.inj ok)
      exact Or.inr (h.2 m rfl).1

/-- What an access finds live is on its server, unless it is stale. -/
theorem leads_access (now : UInt64) (ref : SeriesRef) (first : Site Stage) :
    Leads (fun site => Intact stale Nobody site ∧ site = first) (access now ref)
      fun answer site => Intact stale Nobody site ∧
        ∀ m, answer = .ok (.live m) → stale ref ∨ Matched first ref m := by
  unfold access
  refine Leads.connected_bind (fun site h _ => ⟨h.1, fun m ok => by cases ok⟩)
    fun connections => ?_
  refine Leads.bind (((leads_cachedMetadata ref first).weaken fun site h =>
    ⟨⟨h.1.1, h.2⟩, h.1.2⟩)) (fun e site h => ⟨h.1.1, fun m ok => by cases ok⟩)
    fun found => Leads.pure fun site h => ⟨h.1.1, fun m ok => ?_⟩
  exact h.2 m (congrArg _ (Access.ofMetadata_eq_live_iff.mp (Except.ok.inj ok)).1)

/-! ## Calls that remove nothing -/

theorem preserves_search (query : Search) : Preserves (Intact stale Nobody) (search query) :=
  Preserves.search_connected Preserves.intact_keyless
    (fun _ ref site ready => (leads_cachedMetadata ref site site ⟨ready, rfl⟩).1) query

theorem preserves_createOne (now : UInt64) (chance : LockChance) (input : SeriesInput) :
    Preserves (Intact stale Nobody) (createOne connections now chance input) := by
  intro site intact
  obtain ⟨c, r, route, found⟩ | unserved :=
    served_or_unserved site.world connections input.ns
  · obtain ⟨given, filed⟩ := intact.filed r (List.mem_of_getElem? found) input.ns
    have tried := OnServer.createOne now site.client route filed chance site
      (.start_self intact.undisturbed found ⟨rfl, rfl, rfl⟩)
    have moved : Moved Nobody site.world _ := tried.moved found fun client ks set tried =>
      tried.leaves filed
    obtain ⟨_, _, _, _, _, created⟩ := tried.here
    have client := created.forgets
    exact intact.moved tried.undisturbed moved client.pending client.connections client.cache
  · obtain ⟨e, failed⟩ := unserved.createOne now chance
    rw [failed]
    exact intact

theorem preserves_create (now : UInt64) (chances : LockChances) (batch : CreateBatch) :
    Preserves (Intact stale Nobody) (create now chances batch) :=
  Preserves.createEach (fun _ => preserves_createOne now) chances batch

theorem preserves_append (ns : Namespace) (req : RequestId) (m : SeriesMetadata) (draws : Draws)
    (times : List UInt64) (values : List Binary64) :
    Preserves (Intact stale Nobody) (append ns req m draws times values) :=
  Preserves.append Preserves.intact_points (fun _ => stagePoints_onPoints)
    fun _ onPoints _ intact =>
      intact.forget (intact.staged.stage req ns onPoints) rfl fun _ _ found => found

theorem preserves_fetch (ref : SeriesRef) (window : Window) :
    Preserves (Intact stale Nobody) (fetch ref window) :=
  Preserves.fetch Preserves.intact_keyless ref window

theorem preserves_flush (req : RequestId) : Preserves (Intact stale Nobody) (flush req) :=
  Preserves.flush Preserves.intact_points (fun _ intact => intact.staged)
    (fun req _ intact => intact.forget (intact.staged.remove req) rfl fun _ _ found => found) req

/-- Connecting changes no keys, and before it nothing is cached that is not stale. -/
theorem preserves_connect : Preserves (Intact stale Nobody) connect := by
  intro site intact
  cases own : site.client.connections with
  | some connections =>
    rw [outcome_connect own]
    exact Preserves.pingAll Preserves.intact_keyless connections site intact
  | none =>
    have unmatched : ∀ ref m, ¬ Matched site ref m := by
      rintro ref m ⟨ks, ⟨connections, c, r, some_own, _⟩, _⟩
      rw [own] at some_own
      cases some_own
    have kept : Preserves (fun s : Site Stage => Intact stale Nobody s ∧
        ∀ ref m, s.client.cache.get? ref = some m → stale ref) connect :=
      Preserves.connect (fun _ _ _ h => h)
        (fun server r keyless s h => ⟨Preserves.intact_keyless server r keyless s h.1, h.2⟩)
        fun connections s h => ⟨⟨h.1.undisturbed, h.1.filed, h.1.staged,
          fun ref m found => Or.inl (h.2 ref m found)⟩, h.2⟩
    refine (kept site ⟨intact, fun ref m found => ?_⟩).1
    exact (intact.cached ref m found).resolve_right fun h =>
      h.elim (unmatched ref m) fun gone => gone.1

/-! ## Calls that remove series -/

/-- What a call leaves that may lose records of some series, but only if it fails. -/
def Settled {α : Type} (stale removed : SeriesRef → Prop) (answer : Except Error α)
    (site : Site Stage) : Prop :=
  Intact stale (fun ref => answer.isOk = false ∧ removed ref) site

section Settled

variable {removed : SeriesRef → Prop} {site : Site Stage} {α : Type}

theorem Intact.settled (h : Intact stale Nobody site) (answer : Except Error α) :
    Settled stale removed answer site :=
  h.mono (fun _ => id) fun _ nobody => nobody.elim

theorem Intact.failed (h : Intact stale removed site) (e : Error) :
    Settled stale removed (.error e : Except Error α) site :=
  h.mono (fun _ => id) fun _ gone => ⟨rfl, gone⟩

theorem Settled.succeeded {a : α} (h : Settled stale removed (.ok a) site) :
    Intact stale Nobody site :=
  h.mono (fun _ => id) fun _ gone => by cases gone.1

theorem Settled.map {β : Type} {answer : Except Error α} (h : Settled stale removed answer site)
    (f : α → β) : Settled stale removed (answer.map f) site := by
  cases answer <;> exact h

end Settled

/-- The descriptors that are loaded for a batch are those of its series. -/
theorem leads_loadBatch (refs : List SeriesRef) :
    Leads (Ready stale connections) (loadBatch connections refs) fun answer site =>
      Ready stale connections site ∧ ∀ metas, answer = .ok metas → metas.map (·.ref) = refs := by
  induction refs with
  | nil =>
    refine Leads.pure fun site ready => ⟨ready, fun metas ok => ?_⟩
    obtain rfl := Except.ok.inj ok
    rfl
  | cons ref rest ih =>
    refine Leads.bind (R := fun answer site => Ready stale connections site ∧
      ∀ m, answer = .ok (some m) → Matched site ref m) (fun site ready => ?_)
      (fun e site h => ⟨h.1, fun _ ok => by cases ok⟩) fun found => ?_
    · have loaded := leads_loadMetadata ref site site ⟨ready, rfl⟩
      exact ⟨loaded.1, fun m ok => (loaded.2 m ok).2⟩
    cases found with
    | none => exact Leads.throw fun site h => ⟨h.1, fun _ ok => by cases ok⟩
    | some m =>
      dsimp only
      split
      · exact Leads.throw fun site h => ⟨h.1, fun _ ok => by cases ok⟩
      · intro site h
        obtain ⟨ks, _, _, _, _, same⟩ := h.2 m rfl
        refine (ih.bind (Q := fun answer site => Ready stale connections site ∧
          ∀ metas : List SeriesMetadata, answer = .ok metas → metas.map (·.ref) = ref :: rest)
          (fun e site h => ⟨h.1, fun _ ok => by cases ok⟩) fun others =>
            Leads.pure fun site h => ⟨h.1, fun metas ok => ?_⟩) site h.1
        obtain rfl := Except.ok.inj ok
        rw [List.map_cons, same, h.2 others rfl]

/-- Removing loses no records but those of the series that are removed. -/
theorem preserves_executeRemovals (metas : List SeriesMetadata) (namespaces : List Namespace) :
    Preserves (Intact stale fun ref => ref ∈ metas.map (·.ref))
      (executeRemovals connections metas namespaces) :=
  Preserves.executeRemovals Preserves.intact_request
    (fun _ hm _ removes _ _ _ _ attempt =>
      leaves_removal removes (List.mem_map_of_mem hm) attempt) connections namespaces

/-- The cache forgets the removed series last, and only if nothing failed. -/
theorem leads_delete (refs : List SeriesRef) :
    Leads (Intact stale Nobody) (delete refs) (Settled stale (· ∈ refs)) := by
  refine Leads.connected_bind (fun _ intact _ => intact.settled _) fun connections => ?_
  refine (leads_loadBatch refs).bind (fun e site h => h.1.1.settled _) fun metas => ?_
  rintro site ⟨⟨intact, own⟩, same⟩
  obtain rfl := same metas rfl
  have removed : Leads (Intact stale (· ∈ metas.map (·.ref)))
      (executeRemovals connections metas (metas.map (·.ns)).eraseDups) fun _ =>
        Intact stale (· ∈ metas.map (·.ref)) := preserves_executeRemovals metas _
  refine removed.bind (Q := Settled stale _) (fun e site h => h.failed e)
    (fun _ => Leads.changes fun site h => ?_) site
    (intact.mono (fun _ => id) fun _ nobody => nobody.elim)
  have older : ∀ ref m, (site.client.cache.invalidate (metas.map (·.ref))).get? ref = some m →
      ref ∉ metas.map (·.ref) ∧ site.client.cache.get? ref = some m :=
    fun ref m found => Cache.get?_of_invalidate found
  have forgot : Intact stale _ { site with client := { site.client with
      cache := site.client.cache.invalidate (metas.map (·.ref)) } } :=
    h.forget h.staged rfl fun ref m found => (older ref m found).2
  refine Intact.settled ⟨forgot.undisturbed, forgot.filed, forgot.staged, fun ref m found => ?_⟩ _
  exact (forgot.cached ref m found).imp_right (Or.imp_right fun gone =>
    absurd gone.1 (older ref m found).1)

/-- An access removes a series only if it finds it expired. -/
theorem guarded_settled {α : Type} {site : Site Stage} (intact : Intact stale Nobody site)
    (now : UInt64) (ref : SeriesRef) {act : SeriesMetadata → Task α}
    (h : ∀ m, Preserves (Intact stale Nobody) (act m)) :
    Settled stale (fun ref' => ref' = ref ∧
        ∃ m, (site.outcome (access now ref)).answer = .ok (.expired m))
      (site.outcome (guarded now ref act)).answer (site.outcome (guarded now ref act)).state := by
  have found := (leads_access now ref site site ⟨intact, rfl⟩).1
  unfold guarded
  rw [Site.outcome_bind]
  cases answer : (site.outcome (access now ref)).answer with
  | error e =>
    rw [Outcome.andThen_eq_of_error answer]
    exact found.settled _
  | ok accessed =>
    rw [Outcome.andThen_eq_of_ok answer]
    cases accessed with
    | live m => exact (h m _ found).settled _
    | unknown => exact found.settled _
    | expired m =>
      refine ((leads_delete [ref]).bind (Q := Settled stale fun ref' => ref' = ref ∧
        ∃ m', (.ok (.expired m) : Except Error Access) = .ok (.expired m')) (fun e site h => ?_)
        fun _ => Leads.throw fun site h => h.succeeded.settled _) _ found
      exact Intact.mono h (fun _ => id) fun ref' gone =>
        ⟨gone.1, List.mem_singleton.mp gone.2, m, rfl⟩

/-- Clearing forgets everything, unless it fails on the way. -/
theorem leads_clear : Leads (Intact stale Nobody) clear (Settled stale fun _ => True) := by
  have flushed : ∀ server,
      Preserves (Intact stale fun _ => True) (request server (.single .flush)) := fun server =>
    Preserves.intact_request server _ <|
      List.forall_mem_singleton.mpr fun _ _ _ _ attempt => leaves_flush attempt
  refine Leads.connected_bind (fun _ intact _ => intact.settled _) fun connections => ?_
  refine Leads.bind (R := fun _ => Intact stale fun _ => True)
    (fun site h => Preserves.flushServers flushed connections _ site
      (h.1.mono (fun _ => id) fun _ _ => trivial))
    (fun e site h => h.failed e) fun _ => Leads.changes fun site h => ?_
  have forgotten : ∀ ref m, site.client.cache.clear.get? ref ≠ some m := fun ref m found => by
    rw [Cache.get?_clear] at found
    cases found
  have cleared : Intact stale Nobody { site with client := { site.client with
      pending := .empty, cache := site.client.cache.clear } } :=
    ⟨h.undisturbed, h.filed, pointsOnly_empty, fun ref m found => absurd found (forgotten ref m)⟩
  exact cleared.settled _

/-! ## Visits -/

/-- The series that a visit is about to remove: those of a batch that is deleted, all where
everything is cleared, and one that is found expired. -/
def Removes (site : Site Stage) (v : Visit) (ref : SeriesRef) : Prop :=
  match v.call with
  | .delete refs => ref ∈ refs
  | .clear => True
  | .write ref' _ _ _ _ | .read ref' _ => ref = ref' ∧
      ∃ m, (site.outcome (access v.time.seconds ref')).answer = .ok (.expired m)
  | _ => False

/-- A visit fails after it has removed the record of a series, before the cache has forgotten it. -/
structure Strands (site : Site Stage) (v : Visit) (ref : SeriesRef) : Prop where
  failed : (site.visit v).answer.isOk = false
  removes : Removes site v ref
  cached : ∃ m, (site.visit v).state.client.cache.get? ref = some m
  lost : Lost (site.visit v).state ref

theorem visit_settled {site : Site Stage} (intact : Intact stale Nobody site) (v : Visit) :
    Settled stale (Removes site v) (site.visit v).answer (site.visit v).state := by
  have answered : ∀ {α : Type} (task : Task α) (f : α → Answer) (removed : SeriesRef → Prop),
      Settled stale removed (site.outcome task).answer (site.outcome task).state →
      Settled stale removed (site.outcome (task >>= fun a => Pure.pure (f a))).answer
        (site.outcome (task >>= fun a => Pure.pure (f a))).state := by
    intro α task f removed settled
    rw [bind_pure_comp, Site.outcome_map]
    exact settled.map f
  obtain ⟨time, call⟩ := v
  cases call with
  | connect => exact answered _ _ _ ((preserves_connect site intact).settled _)
  | create chances batch =>
    exact answered _ _ _ ((preserves_create _ chances batch site intact).settled _)
  | search query => exact answered _ _ _ ((preserves_search query site intact).settled _)
  | delete refs => exact answered _ _ _ (leads_delete refs site intact)
  | clear => exact answered _ _ _ (leads_clear site intact)
  | write ref req draws times values =>
    exact answered _ _ _ (guarded_settled intact _ ref fun m => preserves_append _ req m _ _ _)
  | flush req => exact answered _ _ _ ((preserves_flush req site intact).settled _)
  | read ref window =>
    exact answered _ _ _ (guarded_settled intact _ ref fun _ => preserves_fetch ref window)

/-- What a visit leaves. -/
theorem visit_intact {site : Site Stage} (intact : Intact stale Nobody site) (v : Visit) :
    Intact (fun ref => stale ref ∨ Strands site v ref) Nobody (site.visit v).state := by
  have settled := visit_settled intact v
  refine ⟨settled.undisturbed, settled.filed, settled.staged, fun ref m found => ?_⟩
  rcases settled.cached ref m found with old | matched | ⟨⟨failed, removes⟩, lost⟩
  · exact Or.inl (Or.inl old)
  · exact Or.inr (Or.inl matched)
  · exact Or.inl (Or.inr ⟨failed, removes, ⟨m, found⟩, lost⟩)

/-! ## Runs -/

/-- The series whose descriptors some visits have stranded. -/
def Stranded (site : Site Stage) (vs : List Visit) (ref : SeriesRef) : Prop :=
  ∃ before v after, vs = before ++ v :: after ∧ Strands (site.visits before).2 v ref

theorem Stranded.mono {site : Site Stage} {before : List Visit} {ref : SeriesRef}
    (h : Stranded site before ref) (after : List Visit) : Stranded site (before ++ after) ref := by
  obtain ⟨first, v, rest, rfl, strands⟩ := h
  exact ⟨first, v, rest ++ after, by simp, strands⟩

/-- Descriptors become stale only if they are stranded. -/
theorem visits_intact {site : Site Stage} (intact : Intact stale Nobody site) (vs : List Visit) :
    Intact (fun ref => stale ref ∨ Stranded site vs ref) Nobody (site.visits vs).2 := by
  induction vs generalizing site stale with
  | nil => exact intact.mono (fun _ => Or.inl) fun _ => id
  | cons v rest ih =>
    refine (ih (visit_intact intact v)).mono ?_ fun _ => id
    rintro ref ((old | now) | ⟨before, v', after, rfl, later⟩)
    · exact Or.inl old
    · exact Or.inr ⟨[], v, rest, rfl, now⟩
    · exact Or.inr ⟨v :: before, v', after, rfl, later⟩

/-- Every cached descriptor is matched by the record of its series. -/
def CacheMatched (site : Site Stage) : Prop :=
  ∀ ref m, site.client.cache.get? ref = some m → Matched site ref m

/-- A visit that writes points to a series or reads some. -/
def Uses (v : Visit) (ref : SeriesRef) : Prop :=
  match v.call with
  | .write ref' _ _ _ _ | .read ref' _ => ref' = ref
  | _ => False

/-- Only what is found live is written or read. -/
theorem guarded_ok {α : Type} {site : Site Stage} {now : UInt64} {ref : SeriesRef}
    {act : SeriesMetadata → Task α} (h : (site.outcome (guarded now ref act)).answer.isOk) :
    ∃ m, (site.outcome (access now ref)).answer = .ok (.live m) := by
  unfold guarded at h
  rw [Site.outcome_bind] at h
  cases answer : (site.outcome (access now ref)).answer with
  | error e =>
    rw [Outcome.andThen_eq_of_error answer] at h
    cases h
  | ok accessed =>
    rw [Outcome.andThen_eq_of_ok answer] at h
    cases accessed with
    | live m => exact ⟨m, rfl⟩
    | unknown => cases h
    | expired m =>
      rw [Site.outcome_bind] at h
      cases deleted : ((site.outcome (access now ref)).state.outcome (delete [ref])).answer with
      | error e =>
        rw [Outcome.andThen_eq_of_error deleted] at h
        cases h
      | ok u =>
        rw [Outcome.andThen_eq_of_ok deleted] at h
        cases h

theorem Uses.live {site : Site Stage} {v : Visit} {ref : SeriesRef} (uses : Uses v ref)
    (h : (site.visit v).answer.isOk) :
    ∃ m, (site.outcome (access v.time.seconds ref)).answer = .ok (.live m) := by
  obtain ⟨time, call⟩ := v
  cases call with
  | write ref' req draws times values =>
    obtain rfl : ref' = ref := uses
    rw [Site.visit_write] at h
    exact guarded_ok h
  | read ref' window =>
    obtain rfl : ref' = ref := uses
    rw [Site.visit_read] at h
    exact guarded_ok h
  | _ => cases uses

/-- **What the cache holds is on the servers**, but for descriptors that failed visits have
stranded.  So the cache is matched all the time exactly if no visit strands a descriptor, and what is
written or read has a record or is stranded. -/
theorem visits_cached (options : Options) (stage : Stage) (undisturbed : stage.Undisturbed)
    (empty : ∀ r ∈ stage.servers, r.keyspace = .empty) (vs : List Visit) :
    let start : Site Stage := ⟨.ofOptions options, stage⟩
    let now := (start.visits vs).2
    (∀ ref m, now.client.cache.get? ref = some m → Stranded start vs ref ∨ Matched now ref m) ∧
      ((∀ before after, vs = before ++ after → CacheMatched (start.visits before).2) ↔
        ∀ ref, ¬ Stranded start vs ref) ∧
      ∀ v ref, Uses v ref → (now.visit v).answer.isOk →
        Stranded start vs ref ∨ ∃ m, Matched now ref m := by
  intro start now
  have fresh : Intact Nobody Nobody start := by
    refine ⟨undisturbed, fun r inside ns => ⟨0, ?_⟩, pointsOnly_empty, fun ref m found => ?_⟩
    · rw [empty r inside]
      exact filed_empty ns
    · cases found
  have intact : ∀ before, Intact (Stranded start before) Nobody (start.visits before).2 :=
    fun before => (visits_intact fresh before).mono
      (fun _ h => h.resolve_left id) fun _ => id
  have cached : ∀ before ref m, (start.visits before).2.client.cache.get? ref = some m →
      Stranded start before ref ∨ Matched (start.visits before).2 ref m := fun before ref m found =>
    ((intact before).cached ref m found).imp_right (Or.resolve_right · fun none => none.1)
  refine ⟨cached vs, ⟨fun matched ref stranded => ?_, fun none before after same ref m found => ?_⟩,
    fun v ref uses accepted => ?_⟩
  · obtain ⟨before, v, after, rfl, strands⟩ := stranded
    obtain ⟨m, found⟩ := strands.cached
    have after_visit := matched (before ++ [v]) after (by simp) ref m
    rw [Site.visits_append] at after_visit
    exact strands.lost.not_matched m (after_visit found)
  · refine (cached before ref m found).resolve_left fun stranded => none ref ?_
    rw [same]
    exact stranded.mono after
  · obtain ⟨m, live⟩ := uses.live accepted
    exact ((leads_access v.time.seconds ref now now ⟨intact vs, rfl⟩).2 m live).imp_right
      fun matched => ⟨m, matched⟩

/-! ## A deletion that strands a descriptor -/

/-- A server that refuses to take a member out of a set once. -/
def keepingTag : Stage := ⟨[{ Server.Rehearsal.withPassword "" with
  faults := [⟨"SREM", 0, "ERR"⟩] }], [⟨"a", 1, 0⟩], []⟩

def oneNamespace : Options := { connections := [(⟨0⟩, ⟨"a", 1, "", 0, .server⟩)] }

/-- A point of the tagged series. -/
def writeTagged (time : UInt64) : Visit :=
  ⟨⟨0⟩, .write ⟨⟨0⟩, ⟨1⟩⟩ ⟨""⟩ (fun _ _ => .zero) [time] [.ofUInt64 3]⟩

/-- A tagged series is created, written to, and deleted. -/
def deleteTagged : List Visit :=
  [⟨⟨0⟩, .connect⟩,
    ⟨⟨0⟩, .create (fun _ => ⟨"token", 0⟩) [(⟨1⟩, ⟨⟨0⟩, "load", ["a"], none⟩)]⟩,
    writeTagged 5, ⟨⟨0⟩, .delete [⟨⟨0⟩, ⟨1⟩⟩]⟩]

def taggedSite : Site Stage := ⟨.ofOptions oneNamespace, keepingTag⟩

/-- The deletion fails, and a write is accepted though the record has gone. -/
theorem not_cacheMatched_deleteTagged :
    ¬ CacheMatched (taggedSite.visits deleteTagged).2 ∧
      Lost (taggedSite.visits deleteTagged).2 ⟨⟨0⟩, ⟨1⟩⟩ ∧
      ((taggedSite.visits deleteTagged).2.visit (writeTagged 6)).answer = .ok .done := by
  have gone : ∀ r ∈ (taggedSite.visits deleteTagged).2.world.servers,
      r.keyspace.get? (Key.descriptor ⟨⟨0⟩, ⟨1⟩⟩) = none := by decide +kernel
  have cached : (taggedSite.visits deleteTagged).2.client.cache.get? ⟨⟨0⟩, ⟨1⟩⟩ =
      some ⟨⟨1⟩, ⟨0⟩, "load", ["a"], none⟩ := by decide +kernel
  have accepted : ((taggedSite.visits deleteTagged).2.visit (writeTagged 6)).answer =
      .ok .done := by decide +kernel
  generalize (taggedSite.visits deleteTagged).2 = site at gone cached accepted ⊢
  have lost : Lost site ⟨⟨0⟩, ⟨1⟩⟩ := by
    rintro ks ⟨_, _, r, _, _, found, rfl⟩
    exact gone r (List.mem_of_getElem? found)
  exact ⟨fun matched => lost.not_matched _ (matched _ _ cached), lost, accepted⟩

/-- Before the deletion the descriptor is cached and matched, or stranded. -/
theorem visits_cached_deleteTagged :
    let start : Site Stage := ⟨.ofOptions oneNamespace, keepingTag⟩
    let now := (start.visits (deleteTagged.take 3)).2
    now.client.cache.get? ⟨⟨0⟩, ⟨1⟩⟩ = some ⟨⟨1⟩, ⟨0⟩, "load", ["a"], none⟩ ∧
      (Stranded start (deleteTagged.take 3) ⟨⟨0⟩, ⟨1⟩⟩ ∨
        Matched now ⟨⟨0⟩, ⟨1⟩⟩ ⟨⟨1⟩, ⟨0⟩, "load", ["a"], none⟩) := by
  have undisturbed : keepingTag.Undisturbed := by
    intro r inside
    obtain rfl := List.mem_singleton.mp inside
    rfl
  have empty : ∀ r ∈ keepingTag.servers, r.keyspace = .empty := by
    intro r inside
    obtain rfl := List.mem_singleton.mp inside
    rfl
  have cached : ((⟨.ofOptions oneNamespace, keepingTag⟩ : Site Stage).visits
      (deleteTagged.take 3)).2.client.cache.get? ⟨⟨0⟩, ⟨1⟩⟩ =
        some ⟨⟨1⟩, ⟨0⟩, "load", ["a"], none⟩ := by decide +kernel
  exact ⟨cached, (visits_cached oneNamespace keepingTag undisturbed empty _).1 _ _ cached⟩

end Remote

end SeriesStorage
