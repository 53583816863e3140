import SeriesStorage.Proofs.Remote.Catalogue
import SeriesStorage.Proofs.Remote.Execution

/-!
# Creating a series

What looking up and creating do on a server whose keys hold a catalogue.

* `Reaches.lookupName`, `Reaches.loadMetadata`: names and descriptors are looked up.
* `Reaches.withLock`: a task that leaves the lock alone is run, and the lock is gone afterwards.
* `Reaches.createOne`: a series is found, or entered under the next id, or there is no next id and
  nothing changes.
-/

namespace SeriesStorage

namespace Remote

open Server (Command Keyspace Network Node Reply)

/-- Forgets what the cache says about series. -/
def Site.invalidate {σ : Type} (site : Site σ) (refs : List SeriesRef) : Site σ :=
  { site with client := { site.client with cache := site.client.cache.invalidate refs } }

@[simp] theorem Site.outcome_invalidate {σ : Type} [World σ] (site : Site σ)
    (refs : List SeriesRef) :
    site.outcome (Remote.invalidate refs) = .succeed () (site.invalidate refs) := rfl

/-- Keeps a descriptor that was found in the cache. -/
def Site.remember {σ : Type} (site : Site σ) (ref : SeriesRef) : Option SeriesMetadata → Site σ
  | none => site
  | some m => { site with client := { site.client with cache := site.client.cache.insert ref m } }

/-- Nobody expects a count of a registration. -/
theorem registration_unchecked (m : SeriesMetadata) :
    ∀ staged ∈ registration m, staged.expected = none := by
  simp [registration, StagedCommand.unchecked]

namespace Reaches

variable {site : Site Network} {connections : Connections} {ns : Namespace} {c : Connection}
  {node : Node} {cat : Catalogue}

/-! ## Looking up -/

/-- One command is asked that changes nothing. -/
theorem ask_unchanged {α : Type} (h : Reaches site connections ns c node) {command : Command}
    {read : Reply → Except Fault α} {reply : Reply} {a : α}
    (run : Server.exec node.password command node.keyspace = (.ok reply, node.keyspace))
    (answer : read reply = .ok a) :
    site.outcome (Remote.ask connections ns command read) = .succeed a site := by
  rw [h.ask command read run, answer, h.setKeys_self]
  rfl

theorem lookupName {n : String} {id : Option SeriesId} (h : Reaches site connections ns c node)
    (held : node.keyspace.get? (Key.name ns n) = textEntry (id.map toString)) :
    site.outcome (lookupName connections ns n) = .succeed id site := by
  obtain ⟨reply, run, answer⟩ := exec_get_id held
  unfold Remote.lookupName
  rw [Site.outcome_bind, h.ask_unchanged run answer, Outcome.andThen_succeed, Site.outcome_pure,
    Option.map_map]
  cases id <;> rfl

theorem lookupName_absent {n : String} (h : Reaches site connections ns c node)
    (absent : node.keyspace.get? (Key.name ns n) = none) :
    site.outcome (Remote.lookupName connections ns n) = .succeed none site :=
  @lookupName _ _ _ _ _ n none h absent

theorem loadMetadata (h : Reaches site connections ns c node) (holds : Holds node.keyspace ns cat)
    (id : SeriesId) :
    site.outcome (loadMetadata connections ⟨ns, id⟩) = .succeed (cat.records id) site := by
  obtain ⟨reply, run, answer⟩ := holds.get_descriptor id
  unfold Remote.loadMetadata
  rw [Site.outcome_bind, h.ask_unchanged run answer, Outcome.andThen_succeed]
  cases cat.records id with
  | none => rfl
  | some m =>
    simp only [Option.map_some, m.decode_encode]
    rfl

/-- A descriptor comes from the cache if it is there, and else from the catalogue. -/
theorem cachedMetadata (h : Reaches site connections ns c node)
    (holds : Holds node.keyspace ns cat) (id : SeriesId) :
    let found := (site.client.cache.get? ⟨ns, id⟩).or (cat.records id)
    site.outcome (cachedMetadata connections ⟨ns, id⟩) =
      .succeed found (site.remember ⟨ns, id⟩ found) := by
  unfold Remote.cachedMetadata
  rw [Site.outcome_bind, Site.outcome_get, Outcome.andThen_succeed]
  cases cached : site.client.cache.get? ⟨ns, id⟩ with
  | some m =>
    dsimp only
    rw [Site.outcome_bind, Site.outcome_modify, Outcome.andThen_succeed]
    rfl
  | none =>
    dsimp only
    rw [Site.outcome_bind, h.loadMetadata holds, Outcome.andThen_succeed]
    cases cat.records id with
    | none => rfl
    | some m =>
      dsimp only
      rw [Site.outcome_bind, Site.outcome_modify, Outcome.andThen_succeed]
      rfl

/-! ## The lock -/

/-- What a creation lock holds. -/
def lockEntry (token : String) (options : Options) : Server.Entry where
  value := .string token
  leaseMs := some (max options.lockLeaseMs 1)

theorem tryLock (h : Reaches site connections ns c node) {key : String}
    (free : node.keyspace.get? key = none) (token : String) (options : Options) :
    site.outcome (tryLock connections ns key token options) =
      .succeed true (site.setKeys c.server
        (node.keyspace.insert key (lockEntry token options))) := by
  unfold Remote.tryLock
  rw [h.ask _ _ (by simp only [Server.exec, Table.contains, free]; rfl)]
  rfl

/-- A free lock is obtained with the first attempt. -/
theorem obtain_free (h : Reaches site connections ns c node) {key : String}
    (free : node.keyspace.get? key = none) (token : String) (options : Options) (retries : Nat) :
    site.outcome (obtain connections ns key token options retries) =
      .succeed () (site.setKeys c.server
        (node.keyspace.insert key (lockEntry token options))) := by
  cases retries <;> unfold Remote.obtain <;>
    rw [Site.outcome_bind, h.tryLock free, Outcome.andThen_succeed] <;> rfl

theorem release (h : Reaches site connections ns c node) {key token : String} {options : Options}
    (held : node.keyspace.get? key = some (lockEntry token options)) :
    site.outcome (release connections ns key token) =
      .succeed true (site.setKeys c.server (node.keyspace.erase key)) := by
  have run : Server.exec node.password (.release key token) node.keyspace =
      (.ok (.integer 1), node.keyspace.erase key) := by
    simp only [Server.exec, Keyspace.string?, held, lockEntry, if_true]
  unfold Remote.release
  rw [h.ask _ _ run]
  rfl

/-- A task that leaves the lock alone is run while the lock is held, and the lock is gone
afterwards. -/
theorem withLock {α : Type} (h : Reaches site connections ns c node) {key : String}
    (free : node.keyspace.get? key = none) (chance : LockChance) (task : Task α)
    {inner : Outcome (Site Network) α} {node' : Node}
    (ran : (site.setKeys c.server (node.keyspace.insert key
      (lockEntry chance.token site.client.options))).outcome task = inner)
    (h' : Reaches inner.state connections ns c node')
    (held : node'.keyspace.get? key = some (lockEntry chance.token site.client.options)) :
    site.outcome (withLock connections ns key chance task) =
      .answered inner.answer (inner.state.setKeys c.server (node'.keyspace.erase key)) := by
  unfold Remote.withLock
  rw [Site.outcome_bind, Site.outcome_get, Outcome.andThen_succeed, Site.outcome_bind,
    h.obtain_free free, Outcome.andThen_succeed, Site.outcome_bind, Site.outcome_attempt, ran,
    Outcome.andThen_succeed, Site.outcome_bind, Site.outcome_attempt, h'.release held,
    Outcome.andThen_succeed, Site.outcome_ofExcept]
  rfl

/-! ## Creating -/

theorem invalidate (h : Reaches site connections ns c node) (refs : List SeriesRef) :
    Reaches (site.invalidate refs) connections ns c node := ⟨h.route, h.node⟩

theorem remember (h : Reaches site connections ns c node) (ref : SeriesRef)
    (found : Option SeriesMetadata) : Reaches (site.remember ref found) connections ns c node := by
  cases found <;> exact ⟨h.route, h.node⟩

/-- The descriptor that the next series of a catalogue gets. -/
def describeNext (cat : Catalogue) (input : SeriesInput) (now : UInt64) : SeriesMetadata :=
  input.describe cat.nextId now

/-- The holder of the lock enters a series under the id that the counter gives, if the commands of
the registration succeed. -/
theorem createLocked_runs {input : SeriesInput} {now : UInt64}
    (h : Reaches site connections input.ns c node)
    (absent : node.keyspace.get? (Key.name input.ns input.name) = none) {n : Int} {id : SeriesId}
    {counted last : Keyspace} {replies : List Reply}
    (run : Server.exec node.password (.increment (Key.counter input.ns)) node.keyspace =
      (.ok (.integer n), counted)) (given : UInt64.ofInt n = id.number)
    (runs : Server.Runs node.password ((registration (input.describe id now)).map (·.command))
      counted replies last) :
    site.outcome (Remote.createLocked connections now input) = .succeed (id, true)
      ((site.setKeys c.server last).invalidate [⟨input.ns, id⟩]) := by
  have entered := (h.setKeys counted).execute_unchecked runs (registration_unchecked _)
  rw [Site.setKeys_setKeys] at entered
  unfold Remote.createLocked
  rw [Site.outcome_bind, h.lookupName_absent absent, Outcome.andThen_succeed]
  dsimp only
  rw [Site.outcome_bind, h.ask _ _ run]
  show (Outcome.succeed (UInt64.ofInt n) _).andThen _ = _
  rw [given, Outcome.andThen_succeed, Site.outcome_bind, entered, Outcome.andThen_succeed,
    Site.outcome_bind, Site.outcome_invalidate, Outcome.andThen_succeed]
  rfl

/-- The holder of the lock enters a series under the next id. -/
theorem createLocked {input : SeriesInput} (h : Reaches site connections input.ns c node)
    (holds : Holds node.keyspace input.ns cat) (wf : cat.WellFormed input.ns)
    (absent : cat.names input.name = none) (room : cat.lastId < maxInt64) (now : UInt64) :
    ∃ ks, Holds ks input.ns (cat.count.add (describeNext cat input now)) ∧
      Confined input.ns node.keyspace ks ∧
      site.outcome (createLocked connections now input) = .succeed (cat.nextId, true)
        ((site.setKeys c.server ks).invalidate [(describeNext cat input now).ref]) := by
  obtain ⟨counted, run, hcounted, others⟩ := holds.increment node.password room
  have newId : cat.count.records (describeNext cat input now).id = none := wf.records_nextId room
  obtain ⟨replies, last, runs, hlast, confined⟩ :=
    hcounted.registration node.password (m := describeNext cat input now) rfl newId
  have missing : node.keyspace.get? (Key.name input.ns input.name) = none := by
    rw [holds.names, absent]
    rfl
  have given : UInt64.ofInt ((cat.lastId : Int) + 1) = cat.nextId.number := by
    have small : (((cat.lastId : Int) + 1) % 0x10000000000000000).toNat = cat.lastId + 1 := by
      have : maxInt64 = 0x7fffffffffffffff := rfl
      omega
    exact congrArg UInt64.ofNat small
  refine ⟨last, hlast, fun k hk => (confined k hk).trans (others k ?_),
    h.createLocked_runs missing run given runs⟩
  rintro rfl
  exact hk rfl

/-- When no id is left the holder of the lock changes nothing. -/
theorem createLocked_refused {input : SeriesInput} (h : Reaches site connections input.ns c node)
    (holds : Holds node.keyspace input.ns cat) (absent : cat.names input.name = none)
    (full : cat.lastId = maxInt64) (now : UInt64) :
    ∃ text, site.outcome (Remote.createLocked connections now input) =
      .fail (.redis (.refused text)) site := by
  obtain ⟨text, run⟩ := holds.increment_refused node.password full
  refine ⟨text, ?_⟩
  unfold Remote.createLocked
  rw [Site.outcome_bind, h.lookupName (holds.names input.name), Outcome.andThen_succeed, absent]
  dsimp only
  rw [Site.outcome_bind, h.ask_refused _ _ run, h.setKeys_self]
  rfl

end Reaches

/-- What finding or creating a series does on a server whose keys hold a catalogue. -/
inductive CreatesOne (site : Site Network) (c : Connection) (node : Node) (cat : Catalogue)
    (now : UInt64) (input : SeriesInput) : Outcome (Site Network) (SeriesId × Bool) → Prop
  | found {id : SeriesId} : cat.names input.name = some id →
      CreatesOne site c node cat now input (.succeed (id, false) site)
  | created {ks : Keyspace} : cat.names input.name = none → cat.lastId < maxInt64 →
      Holds ks input.ns (cat.count.add (input.describe cat.nextId now)) →
      Confined input.ns node.keyspace ks →
      CreatesOne site c node cat now input (.succeed (cat.nextId, true)
        ((site.setKeys c.server ks).invalidate [⟨input.ns, cat.nextId⟩]))
  | refused {ks : Keyspace} {text : String} : cat.names input.name = none →
      cat.lastId = maxInt64 → (∀ k : KeyName, ks.get? k.text = node.keyspace.get? k.text) →
      CreatesOne site c node cat now input
        (.fail (.redis (.refused text)) (site.setKeys c.server ks))

namespace Reaches

variable {site : Site Network} {connections : Connections} {c : Connection} {node : Node}
  {cat : Catalogue} {input : SeriesInput}

/-- A creation lock of which the key is free, held. -/
def lockedKeys (site : Site Network) (node : Node) (chance : LockChance) (input : SeriesInput) :
    Keyspace :=
  node.keyspace.insert (Key.lock (Key.name input.ns input.name))
    (lockEntry chance.token site.client.options)

theorem get?_lockedKeys (site : Site Network) (node : Node) (chance : LockChance)
    (input : SeriesInput) {k : KeyName} (hk : k ≠ .lock input.ns input.name) :
    (lockedKeys site node chance input).get? k.text = node.keyspace.get? k.text := by
  have apart : Key.lock (Key.name input.ns input.name) ≠ k.text :=
    KeyName.text_ne (k := .lock _ _) hk.symm
  rw [lockedKeys, Table.get?_insert, if_neg apart]

/-- Once the lock is released its key is as it was before, and so are the others if they were left
alone. -/
theorem get?_unlocked {before ks : Keyspace} {ns : Namespace} {n : String} {k : KeyName}
    (free : before.get? (Key.lock (Key.name ns n)) = none)
    (same : k ≠ .lock ns n → ks.get? k.text = before.get? k.text) :
    (ks.erase (Key.lock (Key.name ns n))).get? k.text = before.get? k.text := by
  rw [Table.get?_erase]
  split
  · next here => rw [← here, free]
  · next apart =>
    refine same ?_
    rintro rfl
    exact apart rfl

/-- A name that is not there is registered by the holder of its lock. -/
theorem createOne_absent (h : Reaches site connections input.ns c node)
    (absent : node.keyspace.get? (Key.name input.ns input.name) = none)
    (free : node.keyspace.get? (Key.lock (Key.name input.ns input.name)) = none) {now : UInt64}
    {chance : LockChance} {inner : Outcome (Site Network) (SeriesId × Bool)} {ks : Keyspace}
    (ran : (site.setKeys c.server (lockedKeys site node chance input)).outcome
      (Remote.createLocked connections now input) = inner)
    (reaches : Reaches inner.state connections input.ns c { node with keyspace := ks })
    (held : ks.get? (Key.lock (Key.name input.ns input.name)) =
      some (lockEntry chance.token site.client.options)) :
    site.outcome (createOne connections now chance input) = .answered inner.answer
      (inner.state.setKeys c.server (ks.erase (Key.lock (Key.name input.ns input.name)))) := by
  unfold Remote.createOne
  rw [Site.outcome_bind, h.lookupName_absent absent, Outcome.andThen_succeed]
  exact h.withLock free chance _ ran reaches held

/-- **A series is found or created.** -/
theorem createOne (h : Reaches site connections input.ns c node)
    (holds : Holds node.keyspace input.ns cat) (wf : cat.WellFormed input.ns)
    (unlocked : Unlocked node.keyspace input.ns) (now : UInt64) (chance : LockChance) :
    CreatesOne site c node cat now input
      (site.outcome (createOne connections now chance input)) := by
  have named := holds.names input.name
  cases absent : cat.names input.name with
  | some id =>
    unfold Remote.createOne
    rw [Site.outcome_bind, h.lookupName named, Outcome.andThen_succeed, absent]
    exact .found absent
  | none =>
    rw [absent] at named
    have free := unlocked input.name
    let locked := lockedKeys site node chance input
    have hlocked := h.setKeys locked
    have others : ∀ k : KeyName, k ≠ .lock input.ns input.name →
        locked.get? k.text = node.keyspace.get? k.text := fun _ => get?_lockedKeys _ _ _ _
    have held : locked.get? (Key.lock (Key.name input.ns input.name)) =
        some (lockEntry chance.token site.client.options) := by
      simp only [locked, lockedKeys, Table.get?_insert, if_true]
    have holds' : Holds locked input.ns cat := holds.congr fun k hk => others k (by
      rintro rfl
      exact hk)
    rcases Nat.lt_or_eq_of_le wf.bounded with room | full
    · obtain ⟨ks, hks, confined, ran⟩ := hlocked.createLocked holds' wf absent room now
      rw [Site.setKeys_setKeys] at ran
      have still := (confined (.lock input.ns input.name) (by exact id)).trans held
      rw [h.createOne_absent named free ran ((h.setKeys ks).invalidate _) still]
      have left : ((site.setKeys c.server ks).setKeys c.server
          (ks.erase (Key.lock (Key.name input.ns input.name)))).invalidate
            [⟨input.ns, cat.nextId⟩] = (site.setKeys c.server
              (ks.erase (Key.lock (Key.name input.ns input.name)))).invalidate
                [⟨input.ns, cat.nextId⟩] := by
        rw [Site.setKeys_setKeys]
      have result := @CreatesOne.created site c node _ now _
        (ks.erase (Key.lock (Key.name input.ns input.name))) absent room
        (hks.congr fun k hk => ?_) fun k hk => get?_unlocked free fun apart => ?_
      · rw [← left] at result
        exact result
      · have apart : Key.lock (Key.name input.ns input.name) ≠ k.text :=
          KeyName.text_ne (k := .lock _ _) (by
            rintro rfl
            exact hk)
        rw [Table.get?_erase, if_neg apart]
      · exact (confined k hk).trans (others k apart)
    · obtain ⟨text, ran⟩ := hlocked.createLocked_refused holds' absent full now
      rw [h.createOne_absent named free ran hlocked held]
      have result := @CreatesOne.refused site c node _ now _ _ text absent full fun k =>
        get?_unlocked free (others k)
      rw [← Site.setKeys_setKeys site c.server locked] at result
      exact result

end Reaches

end Remote

end SeriesStorage
