import SeriesStorage.Proofs.Remote.Creation
import SeriesStorage.Proofs.Remote.Filing
import SeriesStorage.Proofs.Remote.Leads

/-!
# Creating where commands may be refused

What finding or creating one series can do to a server on which any command may be refused
(`CreateTried`): the name was there, or nothing is entered, or a registration under the next id was
tried, with whatever part of it was executed.  The lock may stay behind.
-/

namespace SeriesStorage

namespace Remote

open Server (Attempt Attempts Command Keyspace LogEntry Reply Stage)

/-! ## Looking up -/

/-- What looking up a name can answer. -/
inductive LookedUp (ks : Keyspace) (key : String) : Except Error (Option SeriesId) → Prop
  | failed (e : Error) : LookedUp ks key (.error e)
  | absent : ks.get? key = none → LookedUp ks key (.ok none)
  | found {text : String} {id : SeriesId} : ks.string? key = .ok (some text) →
      word? text = some id.number → LookedUp ks key (.ok (some id))

theorem string?_congr {ks ks' : Keyspace} {key : String} (h : ks'.get? key = ks.get? key) :
    ks'.string? key = ks.string? key := by
  unfold Keyspace.string?
  rw [h]

theorem string?_eq_none {ks : Keyspace} {key : String} (h : ks.string? key = .ok none) :
    ks.get? key = none := by
  unfold Keyspace.string? at h
  split at h
  · assumption
  · cases h
  · cases h

/-- An attempt to read a text changes nothing, and unless it is refused it answers what is there. -/
theorem attempt_get {required key : String} {ks ks' : Keyspace} {reply : Except String Reply}
    (attempt : Attempt required (.get key) ks reply ks') :
    ks' = ks ∧ ((∃ text, reply = .error text) ∨
      ∃ found, ks.string? key = .ok found ∧ reply = .ok (found.elim .nothing .text)) := by
  cases attempt with
  | refused text => exact ⟨rfl, Or.inl ⟨text, rfl⟩⟩
  | executed run =>
    simp only [Server.exec] at run
    split at run
    · cases run
    · next missing =>
      obtain ⟨answer, rfl⟩ := Prod.mk.inj run
      exact ⟨rfl, Or.inr ⟨none, missing, answer.symm⟩⟩
    · next text found =>
      obtain ⟨answer, rfl⟩ := Prod.mk.inj run
      exact ⟨rfl, Or.inr ⟨some text, found, answer.symm⟩⟩

theorem lookedUp {required key : String} {ks ks' : Keyspace} {reply : Except String Reply}
    (attempt : Attempt required (.get key) ks reply ks') :
    ks' = ks ∧ LookedUp ks key (((reply.mapError .refused >>= wordOrNothing).mapError .redis).map
      (Option.map SeriesId.mk)) := by
  obtain ⟨rfl, ⟨text, rfl⟩ | ⟨found, there, rfl⟩⟩ := attempt_get attempt
  · exact ⟨rfl, .failed _⟩
  · refine ⟨rfl, ?_⟩
    cases found with
    | none => exact .absent (string?_eq_none there)
    | some text =>
      show LookedUp _ key (((wordOrNothing (.text text)).mapError Error.redis).map
        (Option.map SeriesId.mk))
      unfold wordOrNothing
      dsimp only
      cases read : word? text with
      | none => exact .failed _
      | some n => exact .found there read

namespace OnServer

variable {start : Site Stage} {password : String} {connections : Connections} {ns : Namespace}
  {c : Connection} {P : Client → Keyspace → List (String × String) → Prop}

/-- One command is asked that sets no text. -/
theorem askQuietly {α : Type} (route : connections.route ns = .ok c) {command : Command}
    {read : Reply → Except Fault α}
    {Q : Except Error α → Client → Keyspace → List (String × String) → Prop}
    (quiet : ∀ reply, (LogEntry.command command reply).text? = none)
    (h : ∀ client ks set reply ks', P client ks set → Attempt password command ks reply ks' →
      Q ((reply.mapError .refused >>= read).mapError .redis) client ks' set) :
    Leads (OnServer start c.server password P) (Remote.ask connections ns command read)
      fun answer => OnServer start c.server password (Q answer) := by
  refine ask route fun client ks set reply ks' hP attempt => ?_
  rw [quiet, Option.toList_none, List.append_nil]
  exact h client ks set reply ks' hP attempt

theorem lookupName (route : connections.route ns = .ok c) {n : String}
    {Q : Except Error (Option SeriesId) → Client → Keyspace → List (String × String) → Prop}
    (h : ∀ client ks set answer, P client ks set → LookedUp ks (Key.name ns n) answer →
      Q answer client ks set) :
    Leads (OnServer start c.server password P) (Remote.lookupName connections ns n)
      fun answer => OnServer start c.server password (Q answer) := by
  refine (askQuietly (Q := fun answer => Q (answer.map (Option.map SeriesId.mk))) route
    (fun _ => rfl) ?_).bind (fun e site h => h) fun word => Leads.pure fun site h => h
  intro client ks set reply ks' hP attempt
  obtain ⟨rfl, answer⟩ := lookedUp attempt
  exact h client ks' set _ hP answer

/-- A text that is asked for is what is there. -/
theorem askText (key : String) (route : connections.route ns = .ok c)
    {Q : Except Error (Option String) → Client → Keyspace → List (String × String) → Prop}
    (h : ∀ client ks set answer, P client ks set →
      (∀ found, answer = .ok found → ks.string? key = .ok found) →
      (∀ e, answer = .error e → ∃ fault, e = .redis fault) → Q answer client ks set) :
    Leads (OnServer start c.server password P)
      (Remote.ask connections ns (.get key) textOrNothing)
      fun answer => OnServer start c.server password (Q answer) := by
  refine askQuietly route (fun _ => rfl) fun client ks set reply ks' hP attempt => ?_
  obtain ⟨rfl, ⟨text, rfl⟩ | ⟨found, there, rfl⟩⟩ := attempt_get attempt
  · refine h client ks' set _ hP (fun found ok => by cases ok) fun e failed => ?_
    obtain rfl := Except.error.inj failed
    exact ⟨_, rfl⟩
  · refine h client ks' set _ hP (fun found' ok => ?_) fun e failed => ?_
    · cases found <;>
      · obtain rfl := Except.ok.inj ok
        exact there
    · cases found <;> cases failed

/-! ## The lock -/

theorem obtain (route : connections.route ns = .ok c) {key token : String} {options : Options}
    (kept : ∀ client ks set reply ks', P client ks set →
      Attempt password (.setNew key token (max options.lockLeaseMs 1)) ks reply ks' →
      P client ks' set)
    (retries : Nat) :
    Leads (OnServer start c.server password P)
      (Remote.obtain connections ns key token options retries)
      fun _ => OnServer start c.server password P := by
  have tried : Leads (OnServer start c.server password P)
      (tryLock connections ns key token options) fun _ => OnServer start c.server password P :=
    askQuietly (Q := fun _ => P) route (fun _ => rfl) kept
  induction retries with
  | zero =>
    refine tried.bind (fun _ _ h => h) fun isFree => ?_
    cases isFree
    · exact Leads.throw fun _ h => h
    · exact Leads.pure fun _ h => h
  | succ retries ih =>
    refine tried.bind (fun _ _ h => h) fun isFree => ?_
    cases isFree
    · exact ih
    · exact Leads.pure fun _ h => h

theorem release (route : connections.route ns = .ok c) {key token : String}
    (kept : ∀ client ks set reply ks', P client ks set →
      Attempt password (.release key token) ks reply ks' → P client ks' set) :
    Leads (OnServer start c.server password P) (Remote.release connections ns key token)
      fun _ => OnServer start c.server password P :=
  askQuietly (Q := fun _ => P) route (fun _ => rfl) kept

/-- A task under a lock, where the lock itself does not matter. -/
theorem withLock {α : Type} (route : connections.route ns = .ok c) {key : String}
    {chance : LockChance} {task : Task α}
    {Q : Except Error α → Client → Keyspace → List (String × String) → Prop}
    (aside : ∀ command reply client ks set ks', (∀ other, command.Changes other → other = key) →
      Attempt password command ks reply ks' →
      (P client ks set → P client ks' set) ∧ ∀ answer, Q answer client ks set →
        Q answer client ks' set)
    (inner : Leads (OnServer start c.server password P) task
      fun answer => OnServer start c.server password (Q answer))
    (failed : ∀ e client ks set, P client ks set → Q (.error e) client ks set) :
    Leads (OnServer start c.server password P) (Remote.withLock connections ns key chance task)
      fun answer => OnServer start c.server password (Q answer) := by
  refine Leads.get_bind fun client => ?_
  refine Leads.bind (R := fun _ => OnServer start c.server password P)
    ((obtain route (fun client ks set reply ks' hP attempt => ?_) _).weaken fun site h => h.1)
    (fun e site h => h.imp (failed e)) fun _ => ?_
  · exact (aside (.setNew key chance.token _) reply client ks set ks'
      (fun other (same : key = other) => same.symm) attempt).1 hP
  · refine Leads.attempt_bind inner fun result => ?_
    refine Leads.attempt_bind
      (release (P := Q result) route fun client ks set reply ks' hQ attempt => ?_) fun _ =>
        Leads.ofExcept fun site h => h
    exact (aside (.release key chance.token) reply client ks set ks'
      (fun other (same : key = other) => same.symm) attempt).2 result hQ

end OnServer

/-! ## Creating -/

/-- Keys may differ in the creation lock of a name. -/
def Aside (ns : Namespace) (n : String) (ks ks' : Keyspace) : Prop :=
  ∀ k : KeyName, k ≠ .lock ns n → ks'.get? k.text = ks.get? k.text

theorem Aside.trans {ns : Namespace} {n : String} {ks ks' last : Keyspace} (h : Aside ns n ks ks')
    (h' : Aside ns n ks' last) : Aside ns n ks last :=
  fun k hk => (h' k hk).trans (h k hk)

/-- Keys may differ in the creation lock of a name and in the counter of its namespace. -/
def BesideCounter (ns : Namespace) (n : String) (ks ks' : Keyspace) : Prop :=
  ∀ k : KeyName, k ≠ .lock ns n → k ≠ .counter ns → ks'.get? k.text = ks.get? k.text

/-- Records and the counter do not depend on locks. -/
theorem Filed.aside {ns ns' : Namespace} {n : String} {ks ks' : Keyspace} {given : Nat}
    (h : Filed ks ns given) (aside : Aside ns' n ks ks') : Filed ks' ns given :=
  h.congr (aside (.counter ns) (by simp)) fun id => aside (.descriptor ⟨ns, id⟩) (by simp)

/-- Nor do those of one namespace depend on the counter of another one. -/
theorem Filed.besideCounter {ns ns' : Namespace} {n : String} {ks ks' : Keyspace} {given : Nat}
    (h : Filed ks ns given) (beside : BesideCounter ns' n ks ks') (other : ns ≠ ns') :
    Filed ks' ns given :=
  h.congr (beside (.counter ns) (by simp) (by simpa using other)) fun id =>
    beside (.descriptor ⟨ns, id⟩) (by simp) (by simp)

/-- What finding or creating a series can do to a server on which so many ids were given: with what
answer, client and keys, and which texts were set. -/
inductive CreateTried (now : UInt64) (input : SeriesInput) (given : Nat) (client : Client)
    (ks : Keyspace) : Except Error (SeriesId × Bool) → Client → Keyspace →
      List (String × String) → Prop
  /-- The name was there. -/
  | found {text : String} {id : SeriesId} {ks' : Keyspace} :
      ks.string? (Key.name input.ns input.name) = .ok (some text) →
      word? text = some id.number → Aside input.ns input.name ks ks' →
      CreateTried now input given client ks (.ok (id, false)) client ks' []
  /-- Nothing was entered, though an id may have been given. -/
  | failed {e : Error} {ks' : Keyspace} {given' : Nat} : given ≤ given' →
      Filed ks' input.ns given' → BesideCounter input.ns input.name ks ks' →
      CreateTried now input given client ks (.error e) client ks' []
  /-- A registration was tried under the next id. -/
  | entered {answer : Except Error (SeriesId × Bool)} {client' : Client} {named described : Bool}
      {counted after ks' : Keyspace} {set : List (String × String)} :
      ks.get? (Key.name input.ns input.name) = none → given < maxInt64 →
      Filed counted input.ns (given + 1) → BesideCounter input.ns input.name ks counted →
      Entered (input.describe (nextId given) now) counted named described after set →
      Aside input.ns input.name after ks' →
      (answer = .ok (nextId given, true) ∧ named = true ∧ described = true ∧
          client' = { client with
            cache := client.cache.invalidate [⟨input.ns, nextId given⟩] } ∨
        (∃ e, answer = .error e) ∧ client' = client) →
      CreateTried now input given client ks answer client' ks' set

section Creating

variable {now : UInt64} {input : SeriesInput} {given : Nat} {client : Client} {ks : Keyspace}

/-- What becomes of the lock afterwards does not matter. -/
theorem CreateTried.aside {answer : Except Error (SeriesId × Bool)} {client' : Client}
    {ks' last : Keyspace} {set : List (String × String)}
    (h : CreateTried now input given client ks answer client' ks' set)
    (h' : Aside input.ns input.name ks' last) :
    CreateTried now input given client ks answer client' last set := by
  cases h with
  | found name word before => exact .found name word (before.trans h')
  | failed more filed beside =>
    exact .failed more (filed.aside h') fun k hk hk' => (h' k hk).trans (beside k hk hk')
  | entered absent room filed beside entered before ended =>
    exact .entered absent room filed beside entered (before.trans h') ended

/-- Nothing was entered, and no id was given. -/
theorem CreateTried.unentered {e : Error} {ks' : Keyspace} (filed : Filed ks input.ns given)
    (aside : Aside input.ns input.name ks ks') :
    CreateTried now input given client ks (.error e) client ks' [] :=
  .failed (Nat.le_refl _) (filed.aside aside) fun k hk _ => aside k hk

theorem aside_attempt {required : String} {command : Command} {reply : Except String Reply}
    {ks ks' : Keyspace} {ns : Namespace} {n : String}
    (only : ∀ other, command.Changes other → other = Key.lock (Key.name ns n))
    (attempt : Attempt required command ks reply ks') : Aside ns n ks ks' := by
  intro k hk
  refine attempt.get?_eq fun changes => ?_
  exact @KeyName.text_ne k (.lock ns n) hk (only _ changes)

variable {start : Site Stage} {password : String} {connections : Connections} {c : Connection}

/-- An id was given for a name that is not there, and nothing is entered yet. -/
structure Counted (input : SeriesInput) (given : Nat) (client : Client) (ks : Keyspace)
    (client' : Client) (ks' : Keyspace) (set : List (String × String)) : Prop where
  client : client' = client
  unset : set = []
  absent : ks.get? (Key.name input.ns input.name) = none
  room : given < maxInt64
  filed : Filed ks' input.ns (given + 1)
  beside : BesideCounter input.ns input.name ks ks'

/-- The next id is given to the holder of the lock, or the call fails. -/
theorem OnServer.count (route : connections.route input.ns = .ok c)
    (filed : Filed ks input.ns given) :
    Leads (OnServer start c.server password fun client' ks' set =>
        (client' = client ∧ Aside input.ns input.name ks ks' ∧ set = []) ∧
          LookedUp ks' (Key.name input.ns input.name) (.ok none))
      (Remote.ask connections input.ns (.increment (Key.counter input.ns)) wordOfInteger)
      fun answer => OnServer start c.server password fun client' ks' set =>
        (∀ e, answer = .error e →
          CreateTried now input given client ks (.error e) client' ks' set) ∧
        ∀ number, answer = .ok number → number = (nextId given).number ∧
          Counted input given client ks client' ks' set := by
  refine OnServer.askQuietly (Q := fun answer client' ks' set =>
    (∀ e, answer = .error e → CreateTried now input given client ks (.error e) client' ks' set) ∧
      ∀ number, answer = .ok number → number = (nextId given).number ∧
        Counted input given client ks client' ks' set) route ?_ ?_
  · rintro (_ | _) <;> rfl
  · rintro client' ks₁ set reply ks₂ ⟨⟨rfl, aside, rfl⟩, looked⟩ attempt
    cases looked with
    | absent missing =>
      obtain ⟨text, rfl, rfl⟩ | ⟨rfl, room, filed₂, others⟩ :=
        (filed.aside aside).increment attempt
      · exact ⟨fun _ _ => .unentered filed aside, fun _ ok => (by cases ok)⟩
      · refine ⟨fun _ failed => (by cases failed), fun number ok => ?_⟩
        exact ⟨(Except.ok.inj ok).symm, rfl, rfl,
          (aside (.name input.ns input.name) (by simp)).symm.trans missing, room, filed₂,
          fun k hk hk' => (others k hk').trans (aside k hk)⟩

/-- A series is entered under the id that was given for it. -/
theorem OnServer.enter (route : connections.route input.ns = .ok c) :
    let m := input.describe (nextId given) now
    Leads (OnServer start c.server password (Counted input given client ks))
      (do
        Remote.execute connections input.ns (registration m)
        Remote.invalidate [m.ref]
        return (m.id, true))
      fun answer => OnServer start c.server password
        (CreateTried now input given client ks answer) := by
  intro m
  refine Leads.bind (@OnServer.execute _ _ _ _ _ _ route (registration m) ?_) ?_ fun _ => ?_
  · exact registration_unchecked m
  · intro e site h
    refine h.imp ?_
    rintro client' last set ⟨before, ks₁, n, replies, ⟨rfl, rfl, absent, room, filed, beside⟩,
      attempts, rfl, _⟩
    obtain ⟨named, described, entered, _⟩ := entered attempts
    exact .entered absent room filed beside entered (fun _ _ => rfl) (Or.inr ⟨⟨e, rfl⟩, rfl⟩)
  · intro site h
    rw [Site.outcome_bind, Site.outcome_invalidate, Outcome.andThen_succeed]
    refine h.onClient _ ?_
    rintro last set ⟨before, ks₁, n, replies, ⟨same, rfl, absent, room, filed, beside⟩, attempts,
      rfl, all⟩
    obtain ⟨named, described, entered, full⟩ := entered attempts
    obtain ⟨complete, executed⟩ := all rfl
    obtain ⟨rfl, rfl⟩ := full complete executed
    exact .entered absent room filed beside entered (fun _ _ => rfl)
      (Or.inl ⟨rfl, rfl, rfl, by rw [← same]; rfl⟩)

/-- What the holder of the lock does. -/
theorem OnServer.createLocked (route : connections.route input.ns = .ok c)
    (filed : Filed ks input.ns given) :
    Leads (OnServer start c.server password fun client' ks' set =>
        client' = client ∧ Aside input.ns input.name ks ks' ∧ set = [])
      (Remote.createLocked connections now input)
      fun answer => OnServer start c.server password
        (CreateTried now input given client ks answer) := by
  unfold Remote.createLocked
  refine (OnServer.lookupName (Q := fun answer client' ks' set =>
    (client' = client ∧ Aside input.ns input.name ks ks' ∧ set = []) ∧
      LookedUp ks' (Key.name input.ns input.name) answer) route
    fun client' ks' set answer hP looked => ⟨hP, looked⟩).bind ?_ ?_
  · rintro e site h
    refine h.imp ?_
    rintro client' ks' set ⟨⟨rfl, aside, rfl⟩, _⟩
    exact .unentered filed aside
  · intro word
    cases word with
    | some id =>
      refine Leads.pure fun site h => h.imp ?_
      rintro client' ks' set ⟨⟨rfl, aside, rfl⟩, looked⟩
      cases looked with
      | found name word =>
        have same := string?_congr (aside (.name input.ns input.name) (by simp))
        rw [KeyName.text, name] at same
        exact .found same.symm word aside
    | none =>
      refine (OnServer.count route filed).bind
        (fun e site h => h.imp fun _ _ _ counted => counted.1 e rfl) fun number => ?_
      refine OnServer.leads_of (φ := number = (nextId given).number)
        (fun _ _ _ counted => (counted.2 number rfl).1) ?_
      rintro rfl
      exact (OnServer.enter route).weaken fun site h => h.imp fun _ _ _ counted =>
        (counted.2 _ rfl).2

/-- **Finding or creating a series where commands may be refused.** -/
theorem OnServer.createOne (now : UInt64) (client : Client)
    (route : connections.route input.ns = .ok c)
    (filed : Filed ks input.ns given) (chance : LockChance) :
    Leads (OnServer start c.server password fun client' ks' set =>
        client' = client ∧ ks' = ks ∧ set = [])
      (Remote.createOne connections now chance input)
      fun answer => OnServer start c.server password
        (CreateTried now input given client ks answer) := by
  unfold Remote.createOne
  refine (OnServer.lookupName (Q := fun answer client' ks' set =>
    (client' = client ∧ ks' = ks ∧ set = []) ∧
      LookedUp ks' (Key.name input.ns input.name) answer) route
    fun client' ks' set answer hP looked => ⟨hP, looked⟩).bind ?_ ?_
  · rintro e site h
    refine h.imp ?_
    rintro client' ks' set ⟨⟨rfl, rfl, rfl⟩, _⟩
    exact .unentered filed fun _ _ => rfl
  · intro word
    cases word with
    | some id =>
      refine Leads.pure fun site h => h.imp ?_
      rintro client' ks' set ⟨⟨rfl, rfl, rfl⟩, looked⟩
      cases looked with
      | found name word => exact .found name word fun _ _ => rfl
    | none =>
      refine (OnServer.withLock route (P := fun client' ks' set =>
        client' = client ∧ Aside input.ns input.name ks ks' ∧ set = []) ?_
        (OnServer.createLocked route filed) ?_).weaken fun site h => h.imp ?_
      · intro command reply client' ks₁ set ks₂ only attempt
        have moved := aside_attempt only attempt
        exact ⟨fun ⟨same, aside, empty⟩ => ⟨same, aside.trans moved, empty⟩,
          fun answer tried => tried.aside moved⟩
      · rintro e client' ks' set ⟨rfl, aside, rfl⟩
        exact .unentered filed aside
      · rintro client' ks' set ⟨⟨rfl, rfl, rfl⟩, _⟩
        exact ⟨rfl, fun _ _ => rfl, rfl⟩

/-- Nothing is created for a namespace that no server serves. -/
theorem Unserved.createOne {site : Site Stage} (h : Unserved site.world connections input.ns)
    (now : UInt64) (chance : LockChance) :
    ∃ e, site.outcome (Remote.createOne connections now chance input) = .fail e site := by
  obtain ⟨e, failed⟩ := h.ask (.get (Key.name input.ns input.name)) wordOrNothing
  refine ⟨e, ?_⟩
  unfold Remote.createOne Remote.lookupName
  rw [Site.outcome_bind, Site.outcome_bind, failed]
  rfl

/-! ## What is kept -/

/-- A client is as it was, but its cache may have lost series. -/
structure Forgets (client client' : Client) : Prop where
  connections : client'.connections = client.connections
  pending : client'.pending = client.pending
  cache : ∀ ref m, client'.cache.get? ref = some m → client.cache.get? ref = some m

theorem Forgets.refl (client : Client) : Forgets client client :=
  ⟨rfl, rfl, fun _ _ found => found⟩

namespace CreateTried

variable {answer : Except Error (SeriesId × Bool)} {client' : Client} {ks' : Keyspace}
  {set : List (String × String)}

/-- The cache loses at most what it says about a new series. -/
theorem forgets (h : CreateTried now input given client ks answer client' ks' set) :
    Forgets client client' := by
  cases h with
  | found _ _ _ => exact .refl client
  | failed _ _ _ => exact .refl client
  | entered _ _ _ _ _ _ ended =>
    obtain ⟨_, _, _, rfl⟩ | ⟨_, rfl⟩ := ended
    · exact ⟨rfl, rfl, fun _ _ found => (Cache.get?_of_invalidate found).2⟩
    · exact .refl _

theorem filed (h : CreateTried now input given client ks answer client' ks' set)
    {ns : Namespace} {given' : Nat} (there : Filed ks ns given') :
    ∃ given'', Filed ks' ns given'' := by
  cases h with
  | found _ _ aside => exact ⟨given', there.aside aside⟩
  | @failed _ _ given'' _ filed beside =>
    by_cases same : ns = input.ns
    · subst same
      exact ⟨given'', filed⟩
    · exact ⟨given', there.besideCounter beside same⟩
  | entered _ room filed beside entered aside _ =>
    by_cases same : ns = input.ns
    · subst same
      exact ⟨given + 1, (entered.filed filed fun _ => nextId_counted room).aside aside⟩
    · have kept := there.besideCounter beside same
      exact ⟨given', (entered.filed kept fun here => absurd here.symm same).aside aside⟩

/-- Descriptors that are there stay as they are. -/
theorem records (h : CreateTried now input given client ks answer client' ks' set)
    (filed : Filed ks input.ns given) {ref : SeriesRef} {e : Server.Entry}
    (found : ks.get? (Key.descriptor ref) = some e) :
    ks'.get? (Key.descriptor ref) = some e := by
  cases h with
  | found _ _ aside => exact (aside (.descriptor ref) (by simp)).trans found
  | failed _ _ beside => exact (beside (.descriptor ref) (by simp) (by simp)).trans found
  | entered _ room _ beside entered aside _ =>
    have apart : ref ≠ ⟨input.ns, nextId given⟩ := by
      rintro rfl
      rw [filed.unrecorded room] at found
      cases found
    exact (aside (.descriptor ref) (by simp)).trans <|
      (entered.others (.descriptor ref) (by simp) (fun same => apart (KeyName.descriptor.inj same))
        (by simp)).trans <| (beside (.descriptor ref) (by simp) (by simp)).trans found

end CreateTried

end Creating

end Remote

end SeriesStorage
