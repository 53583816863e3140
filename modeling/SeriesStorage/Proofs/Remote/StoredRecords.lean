import SeriesStorage.Proofs.Remote.BatchRemoval
import SeriesStorage.Proofs.Remote.TriedCreation

/-!
# Stored records

A creation that answers a new id has left the text of the new descriptor at its key, whatever was on
the server before and whatever else became of the creation (`OnServer.createOne_recorded`).  Whoever
asks for the descriptor then gets just that one, or the server refuses to answer
(`OnServer.loadMetadata`).

`created_reads_back` puts this together with what the text of a descriptor says: it is read back as
the descriptor, though it has no tags and no instant of expiry where there are none.
-/

namespace SeriesStorage

namespace SeriesMetadata

/-- What the text of a descriptor says is a record that has tags and an instant of expiry only if the
descriptor has. -/
theorem members_encode (m : SeriesMetadata) :
    ∃ members, Json.parse m.encode = .ok (.object members) ∧
      ("tags" ∈ members.map (·.1) ↔ m.tags ≠ []) ∧
      ("ttl_expire_at" ∈ members.map (·.1) ↔ m.expireAt ≠ none) := by
  refine ⟨_, Json.parse_toText m.plain_toJson, ?_⟩
  obtain ⟨id, ns, name, tags, expireAt⟩ := m
  cases tags <;> cases expireAt <;> simp

/-- Different descriptors have different texts. -/
theorem encode_inj {m m' : SeriesMetadata} (same : m.encode = m'.encode) : m = m' :=
  Except.ok.inj (m.decode_encode.symm.trans (same ▸ m'.decode_encode))

end SeriesMetadata

namespace Remote

open Server (Attempt Command Keyspace Network Rehearsal Reply Stage)

/-- If a creation answered a new id, the descriptor of the new series is at its key. -/
def Recorded (now : UInt64) (input : SeriesInput) (answer : Except Error (SeriesId × Bool))
    (ks : Keyspace) : Prop :=
  ∀ id, answer = .ok (id, true) →
    ks.get? (Key.descriptor ⟨input.ns, id⟩) = textEntry (some (input.describe id now).encode)

section Creating

variable {now : UInt64} {input : SeriesInput} {answer : Except Error (SeriesId × Bool)}
  {ks ks' : Keyspace}

theorem Recorded.of_error (e : Error) : Recorded now input (.error e) ks := nofun

theorem Recorded.of_found (id : SeriesId) : Recorded now input (.ok (id, false)) ks := nofun

/-- Locks do not matter. -/
theorem Recorded.aside (h : Recorded now input answer ks) (aside : Aside input.ns input.name ks ks') :
    Recorded now input answer ks' :=
  fun id new => (aside (.descriptor ⟨input.ns, id⟩) (by simp)).trans (h id new)

namespace OnServer

variable {start : Site Stage} {password : String} {connections : Connections} {c : Connection}

/-- A series that is entered as a whole is recorded. -/
theorem enter_recorded (route : connections.route input.ns = .ok c) (number : UInt64) :
    let m := input.describe ⟨number⟩ now
    Leads (OnServer start c.server password fun _ _ _ => True)
      (do
        Remote.execute connections input.ns (registration m)
        Remote.invalidate [m.ref]
        return (m.id, true))
      fun answer => OnServer start c.server password fun _ ks _ => Recorded now input answer ks := by
  intro m
  refine Leads.bind (@OnServer.execute _ _ _ _ _ _ route (registration m) ?_) ?_ fun _ => ?_
  · exact registration_unchecked m
  · exact fun e site h => h.imp fun _ _ _ _ => .of_error e
  · intro site h
    rw [Site.outcome_bind, Site.outcome_invalidate, Outcome.andThen_succeed]
    refine h.onClient _ ?_
    rintro last set ⟨_, _, n, replies, _, attempts, rfl, all⟩ id new
    obtain ⟨named, described, entered, full⟩ := entered attempts
    obtain ⟨complete, executed⟩ := all rfl
    obtain ⟨_, rfl⟩ := full complete executed
    obtain ⟨rfl, _⟩ := Prod.mk.inj (Except.ok.inj new)
    exact entered.descriptor

theorem createLocked_recorded (route : connections.route input.ns = .ok c) :
    Leads (OnServer start c.server password fun _ _ _ => True)
      (Remote.createLocked connections now input)
      fun answer => OnServer start c.server password fun _ ks _ => Recorded now input answer ks := by
  unfold Remote.createLocked
  refine (OnServer.lookupName (Q := fun _ _ _ _ => True) route fun _ _ _ _ _ _ => trivial).bind
    (fun e site h => h.imp fun _ _ _ _ => .of_error e) fun word => ?_
  cases word with
  | some id => exact Leads.pure fun site h => h.imp fun _ _ _ _ => .of_found id
  | none =>
    refine (OnServer.askQuietly (Q := fun _ _ _ _ => True) route ?_ fun _ _ _ _ _ _ _ =>
      trivial).bind (fun e site h => h.imp fun _ _ _ _ => .of_error e) (enter_recorded route)
    rintro (_ | _) <;> rfl

/-- **A creation that answers a new id has recorded the series**, whatever was there before. -/
theorem createOne_recorded (now : UInt64) (chance : LockChance)
    (route : connections.route input.ns = .ok c) :
    Leads (OnServer start c.server password fun _ _ _ => True)
      (Remote.createOne connections now chance input)
      fun answer => OnServer start c.server password fun _ ks _ => Recorded now input answer ks := by
  unfold Remote.createOne
  refine (OnServer.lookupName (Q := fun _ _ _ _ => True) route fun _ _ _ _ _ _ => trivial).bind
    (fun e site h => h.imp fun _ _ _ _ => .of_error e) fun word => ?_
  cases word with
  | some id => exact Leads.pure fun site h => h.imp fun _ _ _ _ => .of_found id
  | none =>
    refine OnServer.withLock route (P := fun _ _ _ => True) ?_ (createLocked_recorded route)
      fun e _ _ _ _ => .of_error e
    intro command reply client ks set ks' only attempt
    exact ⟨fun _ => trivial, fun answer recorded => recorded.aside (aside_attempt only attempt)⟩

/-- A descriptor that is at its key is loaded, unless the server refuses to answer. -/
theorem loadMetadata {ref : SeriesRef} {m : SeriesMetadata} (route : connections.route ref.ns = .ok c) :
    Leads (OnServer start c.server password fun _ ks _ =>
        ks.get? (Key.descriptor ref) = textEntry (some m.encode))
      (Remote.loadMetadata connections ref)
      fun answer _ => answer = .ok (some m) ∨ ∃ fault, answer = .error (.redis fault) := by
  unfold Remote.loadMetadata
  refine (askText (Q := fun answer _ _ _ => answer = .ok (some m.encode) ∨
    ∃ fault, answer = .error (.redis fault)) (Key.descriptor ref) route ?_).bind ?_ ?_
  · intro client ks set answer there found failed
    cases answer with
    | error e => exact Or.inr ((failed e rfl).imp fun fault same => congrArg Except.error same)
    | ok text =>
      have same := (found text rfl).symm.trans (string?_eq there)
      exact Or.inl (congrArg Except.ok (Except.ok.inj same))
  · rintro e site ⟨_, _, _, _, _, _, _, ok | ⟨fault, refused⟩⟩
    · cases ok
    · exact Or.inr ⟨fault, congrArg Except.error (Except.error.inj refused)⟩
  · rintro text site ⟨_, _, _, _, _, _, _, ok | ⟨fault, refused⟩⟩
    · obtain rfl := Except.ok.inj ok
      dsimp only
      rw [m.decode_encode]
      exact Or.inl rfl
    · cases refused

end OnServer

end Creating

/-! ## Reading back -/

section ReadingBack

variable {site : Site Stage} {connections : Connections} {now : UInt64} {chance : LockChance}
  {input : SeriesInput} {id : SeriesId}

/-- The server of a new series holds its descriptor. -/
theorem createOne_stores (alone : site.world.Undisturbed)
    (created : (site.outcome (createOne connections now chance input)).answer = .ok (id, true)) :
    let after := (site.outcome (createOne connections now chance input)).state
    ∃ c r, connections.route input.ns = .ok c ∧ after.world.servers[c.server]? = some r ∧
      OnServer site c.server r.password (fun _ ks _ =>
        ks.get? (Key.descriptor ⟨input.ns, id⟩) = textEntry (some (input.describe id now).encode))
        after := by
  rcases served_or_unserved site.world connections input.ns with ⟨c, r, route, found⟩ | unserved
  · have left := OnServer.createOne_recorded now chance route site
      (OnServer.start_self alone found trivial)
    rw [created] at left
    have recorded := left.imp fun _ _ _ recorded => recorded id rfl
    obtain ⟨r', _, there, same, _⟩ := recorded.here
    exact ⟨c, r', route, there, same.symm ▸ recorded⟩
  · obtain ⟨e, failed⟩ := unserved.createOne now chance
    rw [failed] at created
    cases created

/-- A descriptor is loaded from a server on which nothing is prepared. -/
theorem loadMetadata_calm {c : Connection} {r : Rehearsal} {ref : SeriesRef} {m : SeriesMetadata}
    (calm : site.world.Calm) (route : connections.route ref.ns = .ok c)
    (found : site.world.servers[c.server]? = some r) (own : m.ref = ref)
    (there : r.keyspace.get? (Key.descriptor ref) = textEntry (some m.encode)) :
    (site.outcome (loadMetadata connections ref)).answer = .ok (some m) := by
  have reaches : Reaches site.onNetwork connections ref.ns c r.node :=
    ⟨route, (site.world.getElem?_network c.server).trans (by rw [found]; rfl)⟩
  have registered : Registered site.onNetwork connections ref m :=
    ⟨c, r.node, reaches, m.encode, string?_eq there, m.decode_encode, own⟩
  have same := congrArg Outcome.answer (site.outcome_network calm (loadMetadata connections ref)).1
  rw [registered.loadMetadata] at same
  exact same

end ReadingBack

/-- **Stored descriptors are read back unchanged.**  The text of a descriptor is read as just that
descriptor, it has tags and an instant of expiry if and only if the descriptor has, and no other
descriptor has the same text.  So what is loaded for a series that was just created, on servers
with whatever contents, is its descriptor; only a refusal can prevent that, and where nothing is
prepared there is none. -/
theorem created_reads_back :
    (∀ m : SeriesMetadata, SeriesMetadata.decode m.encode = .ok m) ∧
    (∀ m : SeriesMetadata, ∃ members, Json.parse m.encode = .ok (.object members) ∧
      ("tags" ∈ members.map (·.1) ↔ m.tags ≠ []) ∧
      ("ttl_expire_at" ∈ members.map (·.1) ↔ m.expireAt ≠ none)) ∧
    (∀ m m' : SeriesMetadata, m.encode = m'.encode → m = m') ∧
    ∀ (site : Site Stage) (connections : Connections) (now : UInt64) (chance : LockChance)
      (input : SeriesInput) (id : SeriesId), site.world.Undisturbed →
      (site.outcome (createOne connections now chance input)).answer = .ok (id, true) →
      let after := (site.outcome (createOne connections now chance input)).state
      let loaded := (after.outcome (loadMetadata connections ⟨input.ns, id⟩)).answer
      (loaded = .ok (some (input.describe id now)) ∨ ∃ fault, loaded = .error (.redis fault)) ∧
      (site.world.Calm → loaded = .ok (some (input.describe id now))) := by
  refine ⟨SeriesMetadata.decode_encode, SeriesMetadata.members_encode,
    fun m m' => SeriesMetadata.encode_inj, ?_⟩
  intro site connections now chance input id alone created after loaded
  obtain ⟨c, r, route, found, stored⟩ := createOne_stores alone created
  refine ⟨@OnServer.loadMetadata _ _ _ _ ⟨input.ns, id⟩ _ route after stored, fun calm => ?_⟩
  obtain ⟨r', _, found', _, _, there⟩ := stored.here
  obtain rfl := Option.some.inj (found.symm.trans found')
  exact @loadMetadata_calm _ _ _ _ ⟨input.ns, id⟩ _ (site.outcome_network calm _).2 route found
    rfl there

/-- A name in several scripts with quotes, a backslash and control characters, tags that are empty
or repeated, and a negative namespace. -/
def strangeInput : SeriesInput := ⟨⟨-7⟩, "\"\\ü\n\t€😀", ["", "a", "", "a"], some 5⟩

/-- A connection to the only server of the stage, for a negative namespace. -/
def negativeNamespace : Connections := [(⟨-7⟩, ⟨0, false⟩)]

/-- What is stored for it is loaded as it was stored. -/
theorem created_reads_back_strange :
    let site : Site Stage := ⟨.ofOptions sharedOptions, sharedServer⟩
    let after := (site.outcome (createOne negativeNamespace 10 ⟨"token", 0⟩ strangeInput)).state
    (after.outcome (loadMetadata negativeNamespace ⟨⟨-7⟩, ⟨1⟩⟩)).answer =
      .ok (some ⟨⟨1⟩, ⟨-7⟩, "\"\\ü\n\t€😀", ["", "a", "", "a"], some 15⟩) := by
  have created : ((⟨.ofOptions sharedOptions, sharedServer⟩ : Site Stage).outcome
      (createOne negativeNamespace 10 ⟨"token", 0⟩ strangeInput)).answer = .ok (⟨1⟩, true) := by
    decide +kernel
  have calm : sharedServer.Calm :=
    (Stage.calm_started (show sharedServer.servers = [""].map .withPassword from rfl)).1
  exact (created_reads_back.2.2.2 _ _ _ _ _ _ (fun r inside => (calm r inside).interventions)
    created).2 calm

end Remote

end SeriesStorage
