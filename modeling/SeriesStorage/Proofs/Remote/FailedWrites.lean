import SeriesStorage.Proofs.Remote.AddedMembers
import SeriesStorage.Proofs.Remote.OwnSeries
import SeriesStorage.Proofs.Remote.TriedCreation

/-!
# Writes that fail

A write sends its batch in one transaction, and counts afterwards.  If some members were in their
sets already the count is wrong and the write fails, but the transaction has been applied: the points
of the batch whose places were free are stored.  A write that fails keeps the promise that nothing is
stored (`StoresNothing`) exactly if there are none (`visit_write_failed`).

* `Grown.shown`: what a series shows after some points of a batch were added.
* `leads_write`: what a write that fails leaves, also if commands are refused.
-/

namespace SeriesStorage

namespace Remote

open Server (Attempt Attempts Keyspace Rehearsal Stage)

/-! ## What a series shows -/

/-- What an entry shows to a read: its time and its value. -/
def shownBy (entry : String × Binary64) : UInt64 × Except Error Binary64 :=
  (keyTime entry.2, decodeMember entry.1)

/-- What the set of a bucket shows. -/
def shownAt (ks : Keyspace) (ref : SeriesRef) (bucket : UInt64) :
    List (UInt64 × Except Error Binary64) :=
  (entriesAt ks ref bucket).map shownBy

/-- What a point shows once it is stored. -/
def shownOf (p : UInt64 × Binary64) : UInt64 × Except Error Binary64 :=
  (storedTime p.1, .ok p.2.canonical)

/-- Nothing was stored: each bucket of a series shows what it showed before. -/
def StoresNothing (ref : SeriesRef) (before after : Keyspace) : Prop :=
  ∀ bucket, shownAt after ref bucket = shownAt before ref bucket

/-- The sets of a series, where there are any, hold only entries that writes leave. -/
def OwnEntries (ks : Keyspace) (ref : SeriesRef) : Prop :=
  ∀ bucket, ∀ entry ∈ entriesAt ks ref bucket, Written bucket entry

theorem OwnSets.ownEntries {ks : Keyspace} {ref : SeriesRef} (h : OwnSets ks ref) :
    OwnEntries ks ref := by
  intro bucket
  obtain ⟨scores, found, written⟩ := h bucket
  rwa [entriesAt_eq found]

/-- In a bucket the member tells what an entry shows, whatever its score. -/
theorem Written.shownBy_eq {bucket : UInt64} {entry entry' : String × Binary64}
    (h : Written bucket entry) (h' : Written bucket entry') (same : entry.1 = entry'.1) :
    shownBy entry = shownBy entry' := by
  obtain ⟨time, value, here, key, member⟩ := h
  obtain ⟨time', value', here', key', member'⟩ := h'
  have double := (member_inj key key' (here.trans here'.symm)
    (member.symm.trans (same.trans member'))).1
  refine Prod.ext ?_ (congrArg decodeMember same)
  show keyTime entry.2 = keyTime entry'.2
  rw [key.keyTime_eq, key'.keyTime_eq, double]

/-- Entries of a bucket with the same members show the same. -/
theorem map_shownBy_eq {bucket : UInt64} {entries entries' : List (String × Binary64)}
    (written : ∀ entry ∈ entries, Written bucket entry)
    (written' : ∀ entry ∈ entries', Written bucket entry)
    (members : entries.map (·.1) = entries'.map (·.1)) :
    entries.map shownBy = entries'.map shownBy := by
  induction entries generalizing entries' with
  | nil =>
    cases entries' with
    | nil => rfl
    | cons entry' rest' => cases members
  | cons entry rest ih =>
    cases entries' with
    | nil => cases members
    | cons entry' rest' =>
      obtain ⟨first, others⟩ := List.cons.inj members
      obtain ⟨here, later⟩ := List.forall_mem_cons.mp written
      obtain ⟨here', later'⟩ := List.forall_mem_cons.mp written'
      rw [List.map_cons, List.map_cons, here.shownBy_eq here' first, ih later later' others]

section Batches

variable {batch : List (UInt64 × Binary64)} {stored : List StoredPoint}

theorem written_entriesIn (encodes : List.Forall₂ Encodes batch stored) (bucket : UInt64) :
    ∀ entry ∈ entriesIn bucket stored, Written bucket entry := by
  intro entry inside
  obtain ⟨p, hp, rfl⟩ := List.mem_map.mp inside
  obtain ⟨hp, here⟩ := List.mem_filter.mp hp
  obtain ⟨q, _, score, key, rfl⟩ := exists_left_of_forall₂ encodes hp
  exact ⟨q.1, q.2, of_decide_eq_true here, key, rfl⟩

theorem map_shownBy_entriesIn (encodes : List.Forall₂ Encodes batch stored) (bucket : UInt64) :
    (entriesIn bucket stored).map shownBy = (inBucket bucket batch).map shownOf := by
  have stands := standsFor_entriesIn (encodes.imp fun _ _ h => h.of) bucket
  generalize inBucket bucket batch = points, entriesIn bucket stored = entries at stands ⊢
  induction stands with
  | nil => rfl
  | @cons p entry _ _ first _ ih =>
    rw [List.map_cons, List.map_cons, ih]
    congr 1
    exact Prod.ext first.score.keyTime_eq first.member

theorem exists_sublist_of_forall₂ {some : List StoredPoint}
    (encodes : List.Forall₂ Encodes batch stored) (part : some.Sublist stored) :
    ∃ points, points.Sublist batch ∧ List.Forall₂ Encodes points some := by
  induction encodes generalizing some with
  | nil =>
    obtain rfl := List.sublist_nil.mp part
    exact ⟨[], .slnil, .nil⟩
  | @cons q p _ _ first _ ih =>
    cases part with
    | cons _ part =>
      obtain ⟨points, sub, each⟩ := ih part
      exact ⟨points, sub.cons q, each⟩
    | cons_cons _ part =>
      obtain ⟨points, sub, each⟩ := ih part
      exact ⟨q :: points, sub.cons_cons q, .cons first each⟩

/-- **What added points show.**  They stand behind what a series showed before; that members of before
got other scores does not show. -/
theorem Grown.shown {ks last : Keyspace} {ref : SeriesRef} {added : List StoredPoint}
    (h : Grown ks last ref stored added) (own : OwnEntries ks ref)
    (encodes : List.Forall₂ Encodes batch stored) {points : List (UInt64 × Binary64)}
    (each : List.Forall₂ Encodes points added) (bucket : UInt64) :
    shownAt last ref bucket = shownAt ks ref bucket ++ (inBucket bucket points).map shownOf := by
  have members : (entriesAt last ref bucket).map (·.1) =
      (entriesAt ks ref bucket ++ entriesIn bucket added).map (·.1) := by
    rw [List.map_append, entriesIn, List.map_map]
    exact h.members bucket
  rw [shownAt, shownAt, ← map_shownBy_entriesIn each, ← List.map_append]
  refine @map_shownBy_eq bucket _ _ (fun entry inside => ?_) (fun entry inside => ?_) members
  · exact (h.entries bucket entry inside).elim (own bucket entry)
      (written_entriesIn encodes bucket entry)
  · exact (List.mem_append.mp inside).elim (own bucket entry)
      (written_entriesIn each bucket entry)

end Batches

/-! ## What a write that fails leaves -/

/-- The points of `added` are those of a batch that found their places free, and they are fewer. -/
def FoundFree (ref : SeriesRef) (before : Keyspace) (draws : Draws)
    (batch added : List (UInt64 × Binary64)) : Prop :=
  added.length < batch.length ∧ ∃ stored, encodePoints draws 0 [] batch = .ok stored ∧
    List.Forall₂ Encodes added (newPoints before ref stored)

/-- What a write of a batch leaves that failed with `e`, if the points of `added` were stored. -/
structure LeftOver (ref : SeriesRef) (before after : Keyspace) (draws : Draws) (e : Error)
    (batch added : List (UInt64 × Binary64)) : Prop where
  part : added.Sublist batch
  shown : ∀ bucket, shownAt after ref bucket =
    shownAt before ref bucket ++ (inBucket bucket added).map shownOf
  /-- The error says how many points were stored, unless a command was refused. -/
  told : (∃ time, e = .keySpaceExhausted time ∧ added = []) ∨
    (e = .internal (.writeCount batch.length added.length) ∧
      FoundFree ref before draws batch added) ∨
    ∃ fault, e = .redis fault

/-- Nothing was stored exactly if no points were. -/
theorem LeftOver.storesNothing_iff {ref : SeriesRef} {before after : Keyspace} {draws : Draws}
    {e : Error} {batch added : List (UInt64 × Binary64)}
    (h : LeftOver ref before after draws e batch added) :
    StoresNothing ref before after ↔ added = [] := by
  constructor
  · intro nothing
    refine List.eq_nil_iff_forall_not_mem.mpr fun p inside => ?_
    have shown := h.shown (bucketOf p.1)
    rw [nothing, List.self_eq_append_right, List.map_eq_nil_iff] at shown
    have here : p ∈ inBucket (bucketOf p.1) added :=
      List.mem_filter.mpr ⟨inside, decide_eq_true rfl⟩
    rw [shown] at here
    cases here
  · rintro rfl bucket
    exact (h.shown bucket).trans (List.append_nil _)

section Writing

variable {start : Site Stage} {password : String} {connections : Connections} {c : Connection}
  {ref : SeriesRef} {m : SeriesMetadata} {before : Keyspace} {now : UInt64}

/-- The answer is `a`, or that a command was refused. -/
def OrRefused {α : Type} (a : α) (answer : Except Error α) : Prop :=
  answer = .ok a ∨ ∃ fault, answer = .error (.redis fault)

/-- What a task finds at a server: from keys with `P` it comes to `a` and leaves keys with `R`,
unless a command is refused, which leaves such keys too. -/
def ComesTo {α : Type} (start : Site Stage) (server : Nat) (password : String)
    (P R : Client → Keyspace → Prop) (task : Task α) (a : α) : Prop :=
  Leads (OnServer start server password fun client ks _ => P client ks) task fun answer =>
    OnServer start server password fun client ks _ => R client ks ∧ OrRefused a answer

theorem ComesTo.bind {α β : Type} {start : Site Stage} {server : Nat} {password : String}
    {P R S : Client → Keyspace → Prop} {task : Task α} {f : α → Task β} {a : α} {b : β}
    (h : ComesTo start server password P R task a) (hf : ComesTo start server password R S (f a) b)
    (kept : ∀ client ks, R client ks → S client ks) :
    ComesTo start server password P S (task >>= f) b := by
  refine Leads.bind h (fun e site failed => ?_) fun found => ?_
  · refine failed.imp fun client ks set ⟨left, answer⟩ => ⟨kept client ks left, ?_⟩
    obtain ok | ⟨fault, refused⟩ := answer
    · cases ok
    · exact Or.inr ⟨fault, congrArg Except.error (Except.error.inj refused)⟩
  · refine OnServer.leads_of (φ := found = a) (fun client ks set ⟨_, answer⟩ => ?_) ?_
    · obtain ok | ⟨fault, refused⟩ := answer
      · exact Except.ok.inj ok
      · cases refused
    · rintro rfl
      exact hf.weaken fun site found => found.imp fun client ks set left => left.1

theorem ComesTo.pure {α : Type} {start : Site Stage} {server : Nat} {password : String}
    (P : Client → Keyspace → Prop) (a : α) :
    ComesTo start server password P P (Pure.pure a : Task α) a :=
  Leads.pure fun _ h => h.imp fun _ _ _ left => ⟨left, Or.inl rfl⟩

/-- What follows with the connections that a client is known to have. -/
theorem OnServer.connected_bind {α : Type} {server : Nat}
    {P : Client → Keyspace → List (String × String) → Prop} {f : Connections → Task α}
    {Q : Except Error α → Site Stage → Prop}
    (own : ∀ client ks set, P client ks set → client.connections = some connections)
    (h : Leads (OnServer start server password P) (f connections) Q) :
    Leads (OnServer start server password P) (connected >>= f) Q := by
  intro site here
  obtain ⟨_, _, _, _, _, hP⟩ := here.here
  rw [Site.outcome_bind, Site.outcome_connected (own _ _ _ hP), Outcome.andThen_succeed]
  exact h site here

/-- The keys are those of before, at a client that is connected and would find the series again. -/
structure Unmoved (connections : Connections) (before : Keyspace) (ref : SeriesRef)
    (m : SeriesMetadata) (client : Client) (ks : Keyspace) : Prop where
  connected : client.connections = some connections
  keys : ks = before
  finds : AccessFinds client.cache before ref m

/-- The record of a series is loaded. -/
theorem comesTo_loadMetadata (route : connections.route ref.ns = .ok c)
    (record : HoldsRecord before ref m) :
    ComesTo start c.server password (Unmoved connections before ref m)
      (Unmoved connections before ref m) (loadMetadata connections ref) (some m) := by
  obtain ⟨text, stored, decoded, _⟩ := record
  have asked : ComesTo start c.server password (Unmoved connections before ref m)
      (Unmoved connections before ref m)
      (ask connections ref.ns (.get (Key.descriptor ref)) textOrNothing) (some text) := by
    refine OnServer.askQuietly route (fun _ => rfl) fun client ks set reply ks' unmoved attempt => ?_
    obtain ⟨rfl, ⟨refusal, rfl⟩ | ⟨found, there, rfl⟩⟩ := attempt_get attempt
    · exact ⟨unmoved, Or.inr ⟨.refused refusal, rfl⟩⟩
    · rw [unmoved.keys] at there
      obtain rfl := Except.ok.inj (stored.symm.trans there)
      exact ⟨unmoved, Or.inl rfl⟩
  refine asked.bind ?_ fun _ _ => id
  dsimp only
  rw [decoded]
  exact ComesTo.pure _ _

/-- The client keeps the descriptor that it found. -/
theorem comesTo_remember (m : SeriesMetadata) :
    ComesTo start c.server password (Unmoved connections before ref m)
      (Unmoved connections before ref m)
      (do
        modify fun client => { client with cache := client.cache.insert ref m }
        return some m) (some m) := by
  have kept : ComesTo start c.server password (Unmoved connections before ref m)
      (Unmoved connections before ref m)
      (modify fun client => { client with cache := client.cache.insert ref m }) () := by
    refine Leads.changes fun site h => ?_
    exact h.onClient _ fun ks set unmoved =>
      ⟨⟨unmoved.connected, unmoved.keys, unmoved.finds.remember⟩, Or.inl rfl⟩
  exact kept.bind (ComesTo.pure _ _) fun _ _ => id

theorem comesTo_cachedMetadata (route : connections.route ref.ns = .ok c) :
    ComesTo start c.server password (Unmoved connections before ref m)
      (Unmoved connections before ref m) (cachedMetadata connections ref) (some m) := by
  refine Leads.get_bind fun client site h => ?_
  obtain ⟨h, rfl⟩ := h
  obtain ⟨_, _, _, _, _, unmoved⟩ := h.here
  obtain ⟨_, ⟨_, known⟩ | ⟨unknown, record⟩⟩ := unmoved.finds
  · rw [known]
    exact comesTo_remember m site h
  · rw [unknown]
    exact (comesTo_loadMetadata route record).bind (comesTo_remember m) (fun _ _ => id) site h

/-- An access goes on with the live series that it finds. -/
theorem comesTo_access (route : connections.route ref.ns = .ok c) (own : m.ns = ref.ns)
    (live : m.isExpired now = false) :
    ComesTo start c.server password (Unmoved connections before ref m)
      (Unmoved connections before ref m) (access now ref) (.live m) := by
  have accessed : (Access.ofMetadata (some m) ref.ns now) = .live m := by
    unfold Access.ofMetadata
    simp [own, live]
  refine OnServer.connected_bind (fun _ _ _ unmoved => unmoved.connected) ?_
  refine (comesTo_cachedMetadata route).bind ?_ fun _ _ => id
  rw [accessed]
  exact ComesTo.pure _ _

/-! ### Sending a batch -/

/-- The commands for a batch are sent together: some of its points are added, and unless a command is
refused it is counted how many, and these are the points that found their places free. -/
theorem leads_sendTogether {stored : List StoredPoint} (places : (stored.map placeOf).Nodup)
    (server : Nat) :
    Leads (OnServer start server password fun _ ks _ => ks = before)
      (executeTogether server (batchCommands m stored))
      fun answer => OnServer start server password fun _ ks _ =>
        ∃ added, added.Sublist stored ∧ Grown before ks m.ref stored added ∧
          (answer = .ok added.length ∧ added = newPoints before m.ref stored ∨
            ∃ fault, answer = .error (.redis fault)) := by
  unfold executeTogether
  rw [← bind_assoc]
  refine (OnServer.request (Q := fun answer _ ks _ =>
    ∃ added, added.Sublist stored ∧ Grown before ks m.ref stored added ∧
      ((∃ fault, answer = .error (.redis fault)) ∨
        ∃ replies, answer = .ok replies ∧ added = newPoints before m.ref stored ∧
          reportedTotal ((batchCommands m stored).zip replies) = .ok added.length))
      ?_ ?_).bind ?_ fun replies => ?_
  · rintro _ _ _ text rfl _
    exact ⟨[], List.nil_sublist _, grown_self _ _ _, Or.inl ⟨_, rfl⟩⟩
  · rintro _ _ _ replies ks' rfl attempts
    obtain ⟨added, part, grown, counted⟩ := attempts_batch places attempts
    refine ⟨added, part, grown, ?_⟩
    cases gathered : Server.gather replies with
    | error fault => exact Or.inl ⟨fault, rfl⟩
    | ok found => exact Or.inr ⟨found, rfl, counted found gathered⟩
  · refine fun e site h => h.imp fun _ ks _ ⟨added, part, grown, answer⟩ =>
      ⟨added, part, grown, ?_⟩
    obtain ⟨fault, refused⟩ | ⟨_, ok, _⟩ := answer
    · exact Or.inr ⟨fault, congrArg Except.error (Except.error.inj refused)⟩
    · cases ok
  · refine Leads.orFault fun site h => h.imp fun _ ks _ ⟨added, part, grown, answer⟩ =>
      ⟨added, part, grown, Or.inl ?_⟩
    obtain ⟨_, refused⟩ | ⟨_, ok, total⟩ := answer
    · cases refused
    · obtain rfl := Except.ok.inj ok
      rw [total.2]
      exact ⟨rfl, total.1⟩

/-- A batch is executed: some of its points are added, and the call fails with their number if these
are not all. -/
theorem leads_execute_batch {stored : List StoredPoint} (places : (stored.map placeOf).Nodup)
    (route : connections.route ref.ns = .ok c) (transactions : c.transactions = true) :
    Leads (OnServer start c.server password fun _ ks _ => ks = before)
      (execute connections ref.ns (batchCommands m stored))
      fun answer => OnServer start c.server password fun _ ks _ =>
        ∃ added, added.Sublist stored ∧ Grown before ks m.ref stored added ∧
          (answer = .error (.internal (.writeCount stored.length added.length)) ∧
              added.length < stored.length ∧ added = newPoints before m.ref stored ∨
            OrRefused () answer) := by
  rw [execute_eq]
  split
  · refine Leads.pure fun site h => h.imp fun _ ks _ same => ?_
    subst same
    exact ⟨[], List.nil_sublist _, grown_self _ _ _, Or.inr (Or.inl rfl)⟩
  · rw [route, show (Task.ofExcept (.ok c) : Task Connection) = Pure.pure c from rfl, pure_bind,
      sendAll, if_pos transactions]
    refine (leads_sendTogether places c.server).bind (fun e site h => ?_) fun counted => ?_
    · refine h.imp fun _ ks _ ⟨added, part, grown, answer⟩ => ⟨added, part, grown, Or.inr ?_⟩
      obtain ⟨ok, _⟩ | ⟨fault, refused⟩ := answer
      · cases ok
      · exact Or.inr ⟨fault, congrArg Except.error (Except.error.inj refused)⟩
    · unfold checkCount
      rw [expectedTotal_batch]
      split
      · next wrong =>
        refine Leads.throw fun site h => h.imp fun _ ks _ ⟨added, part, grown, answer⟩ =>
          ⟨added, part, grown, Or.inl ?_⟩
        obtain ⟨ok, free⟩ | ⟨fault, refused⟩ := answer
        · obtain rfl := Except.ok.inj ok
          exact ⟨rfl, Nat.lt_of_le_of_ne part.length_le wrong, free⟩
        · cases refused
      · refine Leads.pure fun site h => h.imp fun _ ks _ ⟨added, part, grown, _⟩ =>
          ⟨added, part, grown, Or.inr (Or.inl rfl)⟩

/-- A write that fails leaves what it added, as the error says. -/
theorem leads_append (route : connections.route m.ref.ns = .ok c)
    (transactions : c.transactions = true) (own : OwnEntries before m.ref) {req : RequestId}
    (direct : req.isEmpty = true) (draws : Draws) (times : List UInt64) (values : List Binary64) :
    Leads (OnServer start c.server password fun client ks _ =>
        Unmoved connections before m.ref m client ks)
      (append m.ref.ns req m draws times values) fun answer =>
        OnServer start c.server password fun _ ks _ => ∀ e, answer = .error e →
          ∃ added, LeftOver m.ref before ks draws e (times.zip values) added := by
  refine OnServer.connected_bind (fun _ _ _ unmoved => unmoved.connected) ?_
  have found : ∀ site, OnServer start c.server password
      (fun client ks _ => Unmoved connections before m.ref m client ks) site →
      OnServer start c.server password (fun _ ks _ => ks = before) site :=
    fun site h => h.imp fun _ _ _ unmoved => unmoved.keys
  rw [stagePoints_eq]
  obtain ⟨stored, encoded, encodes, places, _⟩ | ⟨time, full⟩ :=
    encodePoints_encodes draws 0 [] (times.zip values)
  · rw [encoded]
    show Leads _ (if req.isEmpty then _ else _) _
    rw [if_pos direct]
    intro site h
    refine (leads_execute_batch places route transactions site (found site h)).imp
      fun _ ks _ ⟨added, part, grown, answer⟩ e failed => ?_
    obtain ⟨points, sub, each⟩ := exists_sublist_of_forall₂ encodes part
    have size := encodes.length_eq
    have some := each.length_eq
    refine ⟨points, sub, grown.shown own encodes each, Or.inr ?_⟩
    obtain ⟨miscounted, fewer, free⟩ | ok | ⟨fault, refused⟩ := answer
    · rw [failed] at miscounted
      unfold FoundFree
      rw [size, some]
      rw [free] at each
      exact Or.inl ⟨Except.error.inj miscounted, fewer, stored, encoded, each⟩
    · rw [failed] at ok
      cases ok
    · rw [failed] at refused
      exact Or.inr ⟨fault, Except.error.inj refused⟩
  · rw [full]
    refine Leads.throw fun site h => (found site h).imp fun _ ks _ same e failed => ?_
    obtain rfl := Except.error.inj failed
    subst same
    exact ⟨[], List.nil_sublist _, fun _ => (List.append_nil _).symm, Or.inl ⟨time, rfl, rfl⟩⟩

/-- A write to a live series that is found: if it fails, it leaves what it added. -/
theorem leads_write (route : connections.route m.ref.ns = .ok c)
    (transactions : c.transactions = true) (own : OwnEntries before m.ref)
    (live : m.isExpired now = false) {req : RequestId} (direct : req.isEmpty = true)
    (draws : Draws) (times : List UInt64) (values : List Binary64) :
    Leads (OnServer start c.server password fun client ks _ =>
        Unmoved connections before m.ref m client ks)
      (write now m.ref req draws times values) fun answer =>
        OnServer start c.server password fun _ ks _ => ∀ e, answer = .error e →
          ∃ added, LeftOver m.ref before ks draws e (times.zip values) added := by
  unfold write guarded
  refine Leads.bind (comesTo_access route rfl live) (fun e site h => ?_) fun found => ?_
  · refine h.imp fun _ ks _ ⟨unmoved, answer⟩ e' failed => ?_
    obtain rfl := Except.error.inj failed
    obtain ok | ⟨fault, refused⟩ := answer
    · cases ok
    · obtain rfl := unmoved.keys
      refine ⟨[], List.nil_sublist _, fun _ => (List.append_nil _).symm, Or.inr (Or.inr ?_)⟩
      exact ⟨fault, Except.error.inj refused⟩
  · refine OnServer.leads_of (φ := found = .live m) (fun client ks set ⟨_, answer⟩ => ?_) ?_
    · obtain ok | ⟨fault, refused⟩ := answer
      · exact Except.ok.inj ok
      · cases refused
    · rintro rfl
      exact (leads_append route transactions own direct draws times values).weaken
        fun site h => h.imp fun _ _ _ left => left.1

end Writing

/-- The keys of a server. -/
def Site.keysAt (site : Site Stage) (server : Nat) : Keyspace :=
  ((site.world.servers[server]?).map (·.keyspace)).getD .empty

theorem Site.keysAt_eq {site : Site Stage} {server : Nat} {r : Rehearsal}
    (found : site.world.servers[server]? = some r) : site.keysAt server = r.keyspace := by
  unfold Site.keysAt
  rw [found]
  rfl

/-- **What a write that fails has stored.**  A series that is live and found, whose sets hold only
entries of this backend, gets a batch over a connection that takes transactions; commands may be
refused, and other keys may hold anything.  If the write fails, some points of the batch were stored
behind those of before; the write has stored nothing exactly if there are none.  For lack of a free
place in the batch there are none, and if the count is wrong they are the points that found their
places in the sets free, as many as the error says. -/
theorem visit_write_failed {site : Site Stage} (undisturbed : site.world.Undisturbed)
    {connections : Connections} (connected : site.client.connections = some connections)
    {m : SeriesMetadata} {c : Connection} (route : connections.route m.ref.ns = .ok c)
    (transactions : c.transactions = true) (reached : c.server < site.world.servers.length)
    (finds : AccessFinds site.client.cache (site.keysAt c.server) m.ref m)
    (own : OwnEntries (site.keysAt c.server) m.ref) {now : Instant}
    (live : m.isExpired now.seconds = false) {req : RequestId} (direct : req.isEmpty = true)
    (draws : Draws) (times : List UInt64) (values : List Binary64) :
    let write := site.visit ⟨now, .write m.ref req draws times values⟩
    let before := site.keysAt c.server
    let after := write.state.keysAt c.server
    ∀ e, write.answer = .error e →
      ∃ added, LeftOver m.ref before after draws e (times.zip values) added ∧
        (StoresNothing m.ref before after ↔ added = []) := by
  intro write before after e answer
  have found := List.getElem?_eq_getElem reached
  have keys : before = site.world.servers[c.server].keyspace := Site.keysAt_eq found
  have begun : OnServer site c.server site.world.servers[c.server].password
      (fun client ks _ => Unmoved connections before m.ref m client ks) site :=
    OnServer.start_self undisturbed found ⟨connected, keys.symm, finds⟩
  have left := leads_write route transactions own live direct draws times values site begun
  obtain ⟨r', _, found', _, _, failed⟩ := left.here
  have visited : write = (site.outcome (Remote.write now.seconds m.ref req draws times values)).map
      fun _ => .done := by
    rw [← Site.outcome_map]
    rfl
  have keys' : after = r'.keyspace := by
    refine Site.keysAt_eq ?_
    rw [visited, Outcome.state_map]
    exact found'
  rw [visited, Outcome.answer_map] at answer
  rw [keys']
  cases outcome : (site.outcome (Remote.write now.seconds m.ref req draws times values)).answer with
  | ok u =>
    rw [outcome] at answer
    cases answer
  | error e' =>
    rw [outcome] at answer
    obtain rfl := Except.error.inj answer
    obtain ⟨added, left⟩ := failed e' outcome
    exact ⟨added, left, left.storesNothing_iff⟩

/-! ## A write beside a point that is there -/

/-- A point at a time at which paddings do not show. -/
def heldPoint : StoredPoint :=
  encodeScored 9007199254740992 (paddedKey 9007199254740992 .zero) (.ofUInt64 3)

/-- A server with a series that holds this point. -/
def holdingOne : Site Stage :=
  Site.alone (seriesKeys ⟨⟨1⟩, ⟨0⟩, "load", [], none⟩ heldPoint.bucket
    [(heldPoint.member, heldPoint.score)])

/-- The same point is written again, and another one. -/
def writeAgain : Visit :=
  ⟨⟨0⟩, .write ⟨⟨0⟩, ⟨1⟩⟩ .empty (fun _ _ => .zero) [9007199254740992, 9007199254740994]
    [.ofUInt64 3, .ofUInt64 3]⟩

theorem writeAgain_answer :
    (holdingOne.visit writeAgain).answer = .error (.internal (.writeCount 2 1)) := by
  decide +kernel

/-- The write fails, and the other point is stored. -/
theorem not_storesNothing_writeAgain :
    (holdingOne.visit writeAgain).answer = .error (.internal (.writeCount 2 1)) ∧
      ¬ StoresNothing ⟨⟨0⟩, ⟨1⟩⟩ (holdingOne.keysAt 0)
        ((holdingOne.visit writeAgain).state.keysAt 0) := by
  refine ⟨writeAgain_answer, fun nothing => ?_⟩
  have same := congrArg List.length (nothing heldPoint.bucket)
  revert same
  decide +kernel

theorem visit_write_failed_writeAgain :
    ∃ added, LeftOver ⟨⟨0⟩, ⟨1⟩⟩ (holdingOne.keysAt 0)
        ((holdingOne.visit writeAgain).state.keysAt 0) (fun _ _ => .zero)
        (.internal (.writeCount 2 1))
        [(9007199254740992, .ofUInt64 3), (9007199254740994, .ofUInt64 3)] added ∧
      (StoresNothing ⟨⟨0⟩, ⟨1⟩⟩ (holdingOne.keysAt 0)
        ((holdingOne.visit writeAgain).state.keysAt 0) ↔ added = []) := by
  let m : SeriesMetadata := ⟨⟨1⟩, ⟨0⟩, "load", [], none⟩
  have own : OwnSets (holdingOne.keysAt 0) m.ref := by
    refine ownSets_seriesKeys m fun entry inside => ?_
    obtain rfl := List.mem_singleton.mp inside
    exact ⟨9007199254740992, .ofUInt64 3, rfl, isKeyOf_paddedKey _ .zero, rfl⟩
  exact @visit_write_failed holdingOne (fun r inside => (Site.calm_alone _ r inside).2) _ rfl m
    ⟨0, true⟩ (by decide) rfl (by decide) (accessFinds_seriesKeys m _ _ rfl) own.ownEntries ⟨0⟩ rfl
    .empty rfl (fun _ _ => .zero) [9007199254740992, 9007199254740994]
    [.ofUInt64 3, .ofUInt64 3] _ writeAgain_answer

end Remote

end SeriesStorage
