import SeriesStorage.Proofs.Remote.RepeatedCreation

/-!
# Creations that fail

A creation batch leaves every name with a record exactly if of every name that it set it set the
record as well, and then the batch can be repeated, and what it answers can be written to
(`create_left`).  Over a connection without transactions, or where a transaction has a single command
refused, a name may be left without a record: such a name is found by every later creation and
refused by every write.
-/

namespace SeriesStorage

namespace Remote

open Server (Keyspace Rehearsal Stage texts)

/-! ## Tasks that miss no record -/

/-- A task that does not fail for want of a record. -/
def Finds {α : Type} (task : Task α) : Prop :=
  ∀ site : Site Stage, (site.outcome task).answer ≠ .error .metadataNotFound

namespace Finds

variable {α β : Type}

theorem pure (a : α) : Finds (Pure.pure a : Task α) := fun _ failed => by cases failed

theorem throw {e : Error} (other : e ≠ .metadataNotFound) :
    Finds (MonadExcept.throw e : Task α) :=
  fun _ failed => other (Except.error.inj failed)

theorem ofExcept {result : Except Error α} (other : result ≠ .error .metadataNotFound) :
    Finds (Task.ofExcept result) := by
  intro site
  rwa [Site.outcome_ofExcept]

theorem orFault (result : Except Fault α) : Finds (Remote.orFault result) := by
  intro site
  rw [Site.outcome_orFault]
  cases result <;> exact fun failed => by cases failed

theorem request (server : Nat) (r : Server.Request) : Finds (Remote.request server r) :=
  fun _ failed => by cases failed

theorem bind {task : Task α} {f : α → Task β} (h : Finds task) (hf : ∀ a, Finds (f a)) :
    Finds (task >>= f) := by
  intro site
  rw [Site.outcome_bind]
  cases answer : (site.outcome task).answer with
  | ok a =>
    rw [Outcome.andThen_eq_of_ok answer]
    exact hf a _
  | error e =>
    rw [Outcome.andThen_eq_of_error answer]
    exact fun failed => h site (answer.trans (congrArg _ (Except.error.inj failed)))

theorem connected : Finds connected := by
  intro site
  cases own : site.client.connections with
  | none =>
    rw [Site.outcome_connected_none own]
    exact fun failed => by cases failed
  | some connections =>
    rw [Site.outcome_connected own]
    exact fun failed => by cases failed

theorem execute (connections : Connections) (ns : Namespace) (commands : List StagedCommand) :
    Finds (Remote.execute connections ns commands) := by
  have singly : ∀ (server : Nat) (commands : List StagedCommand),
      Finds (executeSingly server commands) := by
    intro server commands
    induction commands with
    | nil => exact pure _
    | cons staged rest ih =>
      exact bind (request _ _) fun _ => bind (orFault _) fun _ => bind (orFault _) fun _ =>
        bind (orFault _) fun _ => bind ih fun _ => pure _
  have route : connections.route ns ≠ .error .metadataNotFound := by
    unfold Connections.route
    split
    · exact fun failed => by cases failed
    · split <;> exact fun failed => by cases failed
  rw [execute_eq]
  split
  · exact pure _
  · refine bind (ofExcept route) fun connection => bind ?_ fun stored => ?_
    · unfold sendAll
      split
      · exact bind (request _ _) fun _ => bind (orFault _) fun _ => orFault _
      · exact singly _ _
    · unfold checkCount
      split
      · exact throw fun same => by cases same
      · exact pure _

theorem append (ns : Namespace) (req : RequestId) (m : SeriesMetadata) (draws : Draws)
    (times : List UInt64) (values : List Binary64) :
    Finds (Remote.append ns req m draws times values) := by
  have staged : stagePoints m draws times values ≠ .error .metadataNotFound := by
    unfold stagePoints
    obtain ⟨points, encoded, _⟩ | ⟨time, refused⟩ := encodePoints_spec draws 0 [] (times.zip values)
    · rw [encoded]
      exact fun failed => by cases failed
    · rw [refused]
      exact fun failed => by cases failed
  refine bind connected fun connections => bind (ofExcept staged) fun commands => ?_
  split
  · exact execute _ _ _
  · exact fun _ failed => by cases failed

theorem executeRemovals (connections : Connections) (metas : List SeriesMetadata)
    (namespaces : List Namespace) : Finds (Remote.executeRemovals connections metas namespaces) := by
  induction namespaces with
  | nil => exact pure _
  | cons ns rest ih => exact bind (execute _ _ _) fun _ => ih

end Finds

/-! ## Writing to a series with a record -/

/-- The record of a series is there, and what the cache has of it is of its namespace. -/
structure Known (ref : SeriesRef) (site : Site Stage) : Prop where
  undisturbed : site.world.Undisturbed
  record : ∃ m, Matched site ref m
  cached : ∀ m, site.client.cache.get? ref = some m → m.ns = ref.ns

variable {ref : SeriesRef} {connections : Connections}

/-- A client that knows a series, with its connections. -/
def KnownOver (connections : Connections) (ref : SeriesRef) (site : Site Stage) : Prop :=
  Known ref site ∧ site.client.connections = some connections

/-- A descriptor of the namespace was found, unless something else went wrong. -/
structure Found {α : Type} (ref : SeriesRef) (describes : α → SeriesMetadata → Prop)
    (answer : Except Error (Option α)) : Prop where
  other : answer ≠ .error .metadataNotFound
  found : ∀ found, answer = .ok found → ∃ a m, found = some a ∧ describes a m ∧ m.ns = ref.ns

theorem leads_askDescriptor : Leads (KnownOver connections ref)
    (ask connections ref.ns (.get (Key.descriptor ref)) textOrNothing) fun answer site =>
      KnownOver connections ref site ∧
        Found ref (fun text m => SeriesMetadata.decode text = .ok m) answer := by
  rintro site ⟨known, own⟩
  obtain ⟨m, ks, ⟨others, c, r, own', route, found, rfl⟩, text, there, decoded, same⟩ :=
    known.record
  obtain rfl := Option.some.inj (own'.symm.trans own)
  have asked := OnServer.askText (Key.descriptor ref) (P := fun client ks _ =>
      client = site.client ∧ ks = r.keyspace)
    (Q := fun answer client ks _ => client = site.client ∧ ks = r.keyspace ∧
      (∀ found, answer = .ok found → found = some text) ∧
      ∀ e, answer = .error e → ∃ fault, e = .redis fault) route
    (fun client ks set answer hP read failed => ⟨hP.1, hP.2, fun found ok =>
      Except.ok.inj ((read found ok).symm.trans (hP.2 ▸ there)), failed⟩)
    site (.start_self known.undisturbed found ⟨rfl, rfl⟩)
  obtain ⟨r', set, found', _, _, client, kept, read, failed⟩ := asked.here
  have own'' := (congrArg Client.connections client).trans own
  refine ⟨⟨⟨asked.undisturbed, ⟨m, r.keyspace, ⟨others, c, r', own'', route, found', kept⟩, text,
    there, decoded, same⟩, by rw [client]; exact known.cached⟩, own''⟩, fun missed => ?_,
    fun found ok => ⟨text, m, read found ok, decoded, congrArg SeriesRef.ns same⟩⟩
  obtain ⟨fault, other⟩ := failed _ missed
  cases other

theorem leads_loadMetadata_known : Leads (KnownOver connections ref)
    (loadMetadata connections ref) fun answer site =>
      KnownOver connections ref site ∧ Found ref Eq answer := by
  refine leads_askDescriptor.bind (fun e site h => ⟨h.1, fun same => h.2.other ?_, fun _ ok => by
    cases ok⟩) fun text => ?_
  · rw [Except.error.inj same]
  · intro site h
    obtain ⟨text', m, rfl, decoded, ns⟩ := h.2.found text rfl
    dsimp only
    rw [decoded]
    refine ⟨h.1, (fun same => by cases same), fun found ok => ?_⟩
    obtain rfl := Except.ok.inj ok
    exact ⟨m, m, rfl, rfl, ns⟩

/-- What was found may be put in front of the cache. -/
theorem KnownOver.remember {site : Site Stage} (h : KnownOver connections ref site)
    {m : SeriesMetadata} (ns : m.ns = ref.ns) :
    KnownOver connections ref (site.remember ref (some m)) := by
  refine ⟨⟨h.1.undisturbed, h.1.record, fun m' cached => ?_⟩, h.2⟩
  rcases Cache.get?_of_insert cached with ⟨_, rfl⟩ | before
  · exact ns
  · exact h.1.cached m' before

theorem leads_cachedMetadata_known : Leads (KnownOver connections ref)
    (cachedMetadata connections ref) fun answer site =>
      KnownOver connections ref site ∧ Found ref Eq answer := by
  intro site known
  have remembered : ∀ (site : Site Stage) m, KnownOver connections ref site → m.ns = ref.ns →
      KnownOver connections ref (site.remember ref (some m)) ∧
        Found ref Eq (.ok (some m)) := fun site m known ns =>
    ⟨known.remember ns, (fun same => by cases same), fun found ok =>
      ⟨m, m, (Except.ok.inj ok).symm, rfl, ns⟩⟩
  unfold cachedMetadata
  rw [Site.outcome_bind, Site.outcome_get, Outcome.andThen_succeed]
  cases cached : site.client.cache.get? ref with
  | some m => exact remembered site m known (known.1.cached m cached)
  | none =>
    refine leads_loadMetadata_known.bind (Q := fun answer site =>
      KnownOver connections ref site ∧ Found ref Eq answer) (fun e site h => h)
      (fun found => ?_) site known
    intro after h
    obtain ⟨m, _, rfl, rfl, ns⟩ := h.2.found found rfl
    exact remembered after m h.1 ns

/-- A series with a record can be deleted as far as its record is concerned. -/
theorem leads_delete_known : Leads (Known ref) (delete [ref]) fun answer _ =>
    answer ≠ .error .metadataNotFound := by
  refine Leads.connected_bind (fun _ _ _ failed => by cases failed) fun connections => ?_
  have loaded : Leads (KnownOver connections ref) (loadBatch connections [ref]) fun answer _ =>
      answer ≠ .error .metadataNotFound := by
    refine leads_loadMetadata_known.bind (fun e site h same => h.2.other ?_) fun found => ?_
    · rw [Except.error.inj same]
    · intro site h
      obtain ⟨m, _, rfl, rfl, ns⟩ := h.2.found found rfl
      dsimp only
      rw [if_neg (by simp [ns])]
      exact fun failed => by cases failed
  refine loaded.bind (fun e site other same => other (by rw [Except.error.inj same]))
    fun metas => ?_
  intro site _
  exact Finds.bind (Finds.executeRemovals _ _ _) (fun _ _ failed => by cases failed) site

/-- **A series with a record is known to writes**, whatever is refused. -/
theorem Known.write {site : Site Stage} (known : Known ref site) (now : UInt64) (req : RequestId)
    (draws : Draws) (times : List UInt64) (values : List Binary64) :
    (site.outcome (write now ref req draws times values)).answer ≠ .error .metadataNotFound := by
  have accessed : Leads (Known ref) (access now ref) fun answer site => Known ref site ∧
      answer ≠ .error .metadataNotFound ∧ answer ≠ .ok .unknown := by
    refine Leads.connected_bind (fun site known _ => ⟨known, (fun failed => by cases failed),
      fun failed => by cases failed⟩) fun connections => ?_
    refine leads_cachedMetadata_known.bind (fun e site h => ⟨h.1.1, fun same => h.2.other ?_,
      fun same => by cases same⟩) fun found => ?_
    · rw [Except.error.inj same]
    · refine Leads.pure fun site h => ⟨h.1.1, (fun same => by cases same), fun same => ?_⟩
      obtain ⟨m, _, rfl, rfl, ns⟩ := h.2.found found rfl
      have unknown := Except.ok.inj same
      simp only [Access.ofMetadata, ns, ne_eq, not_true_eq_false, if_false] at unknown
      split at unknown <;> cases unknown
  have written : Leads (Known ref) (Remote.write now ref req draws times values) fun answer _ =>
      answer ≠ .error .metadataNotFound := by
    refine accessed.bind (fun e site h same => h.2.1 (by rw [Except.error.inj same])) fun found => ?_
    intro site h
    cases found with
    | live m => exact Finds.append _ _ _ _ _ _ site
    | unknown => exact absurd rfl h.2.2
    | expired m =>
      exact (leads_delete_known.bind (Q := fun answer _ => answer ≠ .error .metadataNotFound)
        (fun e site other same => other (by rw [Except.error.inj same])) fun _ =>
          Leads.throw fun _ _ failed => by cases failed) site h.1
  exact written site known

/-! ## What a creation leaves -/

/-- Commands work again and creation locks are free; otherwise keys are as they were left. -/
structure Resumes (left again : Stage) : Prop where
  calm : again.Calm
  unlocked : ∀ r ∈ again.servers, ∀ ns, Unlocked r.keyspace ns
  same : ∀ (i : Nat) (r : Rehearsal), again.servers[i]? = some r →
    ∃ r' : Rehearsal, left.servers[i]? = some r' ∧ ApartFromLocks r'.keyspace r.keyspace

theorem outcome_create {σ : Type} [World σ] {site : Site σ} {connections : Connections}
    (own : site.client.connections = some connections) (now : UInt64) (chances : LockChances)
    (batch : CreateBatch) :
    site.outcome (create now chances batch) =
      site.outcome (createFrom connections now chances 0 batch) := by
  unfold create
  rw [Site.outcome_bind, Site.outcome_connected own, Outcome.andThen_succeed]

/-- A batch enters its series completely, or not at all, or fails with half of one. -/
theorem leads_create (start : Site Stage) (now : UInt64) (chances : LockChances)
    (batch : CreateBatch) :
    Leads (fun site => EnteredFully start site ∧ site = start) (create now chances batch)
      (EnteredOrHalf start) := by
  refine Leads.connected_bind (fun site h _ => Or.inl h.1) fun connections => ?_
  rintro site ⟨⟨entered, rfl⟩, own⟩
  exact leads_createFrom own now chances 0 batch site entered

/-- A batch succeeds where nothing is refused, and what it answers is known to writes. -/
theorem create_resumed {site : Site Stage} {batch : CreateBatch}
    (usable : ∀ r ∈ site.world.servers, Usable r.keyspace)
    (own : site.client.connections = some connections)
    (cached : ∀ ref m, site.client.cache.get? ref = some m → m.ns = ref.ns) (calm : site.world.Calm)
    (unlocked : ∀ r ∈ site.world.servers, ∀ ns, Unlocked r.keyspace ns)
    (room : ∀ entry ∈ batch, Room connections site.world entry.2.ns batch.length) (now : UInt64)
    (chances : LockChances) :
    let repeated := site.outcome (create now chances batch)
    ∃ rows, repeated.answer = .ok rows ∧ List.Forall₂ (fun entry row => row.mark = entry.1 ∧
      Known ⟨entry.2.ns, row.id⟩ repeated.state) batch rows := by
  have repeatable : Repeatable connections (batch.map (·.2.ns)) batch.length site := by
    refine ⟨calm, own, usable, unlocked, fun ns inside => ?_⟩
    obtain ⟨entry, hentry, rfl⟩ := List.mem_map.mp inside
    exact room entry hentry
  obtain ⟨rows, answer, calm', records⟩ := repeatable.createFrom
    (fun entry hentry => List.mem_map_of_mem hentry) now chances 0
  have entered := leads_createFrom own now chances 0 batch site
    (.refl (fun r inside => (calm r inside).interventions) usable)
  rw [answer] at entered
  have kept := (entered.resolve_right fun half => by cases half.1).cache
  dsimp only
  rw [outcome_create own]
  refine ⟨rows, answer, records.imp fun entry row record => ⟨record.1, ?_⟩⟩
  exact ⟨fun r inside => (calm' r inside).interventions, record.2,
    fun m found => cached _ m (kept _ m found)⟩

/-- **What a creation leaves**, whatever is refused: all names have records exactly if of every name
that was set the record was set.  Then the call succeeds once nothing is refused any more and the
locks are free, and no write misses a series that it answers. -/
theorem create_left (site : Site Stage) (undisturbed : site.world.Undisturbed)
    (usable : ∀ r ∈ site.world.servers, Usable r.keyspace) (now : UInt64) (chances : LockChances)
    (batch : CreateBatch) :
    let left := (site.outcome (create now chances batch)).state
    let completed := Completed (texts (site.sent (create now chances batch)))
    ((∀ r ∈ left.world.servers, ∀ ns, NamesRefer r.keyspace ns) ↔ completed) ∧
      (completed → ∀ connections, site.client.connections = some connections →
        (∀ ref m, site.client.cache.get? ref = some m → m.ns = ref.ns) →
        ∀ again, Resumes left.world again →
          (∀ entry ∈ batch, Room connections again entry.2.ns batch.length) →
          ∀ now' chances', let repeated :=
              (⟨left.client, again⟩ : Site Stage).outcome (create now' chances' batch)
            ∃ rows, repeated.answer = .ok rows ∧ List.Forall₂ (fun entry row =>
              row.mark = entry.1 ∧ ∀ later req draws times values, (repeated.state.outcome
                (write later ⟨entry.2.ns, row.id⟩ req draws times values)).answer ≠
                  .error .metadataNotFound) batch rows) := by
  intro left completed
  have entered := leads_create site now chances batch site ⟨.refl undisturbed usable, rfl⟩
  have grown : texts left.world.log =
      texts site.world.log ++ texts (site.sent (create now chances batch)) := by
    rw [← Server.texts_append, ← Site.log_outcome]
  rcases entered with full | ⟨_, half⟩
  · obtain ⟨set, log, complete, _⟩ := full.set
    obtain rfl := List.append_cancel_left (grown.symm.trans log)
    refine ⟨⟨fun _ => complete, fun _ r inside => (full.usable r inside).names⟩,
      fun _ connections own cached again resumes room now' chances' => ?_⟩
    have usable' : ∀ r ∈ again.servers, Usable r.keyspace := fun r inside => by
      obtain ⟨i, there⟩ := List.mem_iff_getElem?.mp inside
      obtain ⟨r', before, same⟩ := resumes.same i r there
      exact (full.usable r' (List.mem_of_getElem? before)).apartFromLocks same
    obtain ⟨rows, answer, known⟩ := @create_resumed connections ⟨left.client, again⟩ batch usable'
      (full.connections.trans own) (fun ref m found => cached ref m (full.cache ref m found))
      resumes.calm resumes.unlocked room now' chances'
    exact ⟨rows, answer, known.imp fun entry row h =>
      ⟨h.1, fun later req draws times values => h.2.write later req draws times values⟩⟩
  · obtain ⟨set, log, incomplete⟩ := half.set
    obtain rfl := List.append_cancel_left (grown.symm.trans log)
    obtain ⟨r, inside, ns, dangling⟩ := half.dangling
    exact ⟨⟨fun refer => absurd (refer r inside ns) dangling,
      fun complete => absurd complete incomplete⟩, fun complete => absurd complete incomplete⟩

/-! ## A name without a record -/

/-- A client that is connected to a server for which a fault is prepared. -/
def refusing (kind : ConnectionKind) (fault : Server.PreparedFault) : Site Stage :=
  let server := { Rehearsal.withPassword "" with faults := [fault] }
  let site : Site Stage := ⟨.ofOptions { connections := [(⟨0⟩, ⟨"a", 1, "", 0, kind⟩)] },
    ⟨[server], [⟨"a", 1, 0⟩], []⟩⟩
  (site.outcome connect).state

/-- Creates one series, with one tag. -/
def createOneSeries : Task (List Created) :=
  create 0 (fun _ => ⟨"token", 0⟩) [(⟨1⟩, ⟨⟨0⟩, "load", ["a"], none⟩)]

/-- The registration is refused as a whole. -/
def transactionRefused : Site Stage := refusing .server ⟨"EXEC", 0, "ERR"⟩

/-- What a creation leaves that is refused as a whole. -/
def afterRefusal : Site Stage := (transactionRefused.outcome createOneSeries).state

/-- Only an id was given. -/
theorem servers_afterRefusal : afterRefusal.world.servers =
    [⟨"", ⟨[("id_0", { value := .string "1" })]⟩, [], []⟩] := by
  decide +kernel

/-- A transaction that is refused leaves no name, and the creation can be repeated. -/
theorem create_left_transactionRefused :
    (transactionRefused.outcome createOneSeries).answer = .error (.redis (.refused "ERR")) ∧
      (∀ r ∈ afterRefusal.world.servers, ∀ ns, NamesRefer r.keyspace ns) ∧
      ∃ rows, (afterRefusal.outcome createOneSeries).answer = .ok rows := by
  have undisturbed : ∀ r ∈ transactionRefused.world.servers, r.interventions = [] := by
    decide +kernel
  have empty : ∀ r ∈ transactionRefused.world.servers, r.keyspace = .empty := by decide +kernel
  have usable : ∀ r ∈ transactionRefused.world.servers, Usable r.keyspace := fun r inside => by
    rw [empty r inside]
    exact usable_of_holds fun ns => (orderly_empty ns).2
  have completed : Completed (texts (transactionRefused.sent createOneSeries)) := by
    rw [show texts (transactionRefused.sent createOneSeries) = [] by decide +kernel]
    exact completed_nil
  have own : transactionRefused.client.connections = some [(⟨0⟩, ⟨0, true⟩)] := by decide +kernel
  have uncached : transactionRefused.client.cache.entries = [] := by decide +kernel
  have left := create_left transactionRefused undisturbed usable 0 (fun _ => ⟨"token", 0⟩)
    [(⟨1⟩, ⟨⟨0⟩, "load", ["a"], none⟩)]
  refine ⟨by decide +kernel, left.1.mpr completed, ?_⟩
  have counter : Table.get? ⟨[("id_0", { value := .string "1" })]⟩ (Key.counter ⟨0⟩) =
      counterEntry 1 := by decide +kernel
  have resumes : Resumes afterRefusal.world afterRefusal.world := by
    refine ⟨fun r inside => ?_, fun r inside ns n => ?_, fun i r found => ⟨r, found, fun _ _ => rfl⟩⟩
    · rw [servers_afterRefusal] at inside
      obtain rfl := List.mem_singleton.mp inside
      exact ⟨rfl, rfl⟩
    · rw [servers_afterRefusal] at inside
      obtain rfl := List.mem_singleton.mp inside
      have apart : "id_0" ≠ Key.lock (Key.name ns n) :=
        @KeyName.text_ne (.counter ⟨0⟩) (.lock ns n) (by simp)
      show (Table.empty.insert "id_0" _).get? _ = none
      rw [Table.get?_insert, if_neg apart]
      rfl
  obtain ⟨rows, answer, _⟩ := left.2 completed _ own (fun ref m found => by
    simp [Cache.get?, uncached] at found) afterRefusal.world resumes (fun entry inside => by
      obtain rfl := List.mem_singleton.mp inside
      exact ⟨⟨0, true⟩, _, 1, rfl, by rw [servers_afterRefusal]; rfl, counter, by decide⟩) 0
    (fun _ => ⟨"token", 0⟩)
  exact ⟨rows, answer⟩

/-- The record is refused after the lock and the name were set, over a connection without
transactions. -/
def recordRefused : Site Stage := refusing .cluster ⟨"SET", 2, "ERR"⟩

/-- A name that holds an id which has no record. -/
def danglingName : Keyspace :=
  ⟨[("id_0", { value := .string "1" }), ("series_0_load", { value := .string "1" })]⟩

theorem not_namesRefer_danglingName : ¬ NamesRefer danglingName ⟨0⟩ := by
  intro refer
  obtain ⟨id, m, text, record, _⟩ := refer "load" { value := .string "1" } (by decide +kernel)
  have one : id = ⟨1⟩ := toString_id_inj.mp (textEntry_inj.mp text).symm
  obtain ⟨e, there⟩ := record.get?
  have missing : danglingName.get? (Key.descriptor ⟨⟨0⟩, ⟨1⟩⟩) = none := by decide +kernel
  rw [one, missing] at there
  cases there

/-- The name is left without a record: the repeated creation answers its id, and writes miss the
series. -/
theorem not_namesRefer_recordRefused :
    let left := (recordRefused.outcome createOneSeries).state
    (recordRefused.outcome createOneSeries).answer = .error (.redis (.refused "ERR")) ∧
      (¬ ∀ r ∈ left.world.servers, ∀ ns, NamesRefer r.keyspace ns) ∧
      (left.outcome createOneSeries).answer = .ok [⟨⟨1⟩, ⟨1⟩, false⟩] ∧
      ((left.outcome createOneSeries).state.outcome
        (write 0 ⟨⟨0⟩, ⟨1⟩⟩ ⟨""⟩ (fun _ _ => .zero) [5] [.ofUInt64 3])).answer =
          .error .metadataNotFound := by
  intro left
  have servers : left.world.servers = [⟨"", danglingName, [], []⟩] := by decide +kernel
  refine ⟨by decide +kernel, fun refer => ?_, by decide +kernel, by decide +kernel⟩
  rw [servers] at refer
  exact not_namesRefer_danglingName (refer _ List.mem_cons_self ⟨0⟩)

end Remote

end SeriesStorage
