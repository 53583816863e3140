import SeriesStorage.Proofs.Remote.WatchedLocks

/-!
# Creation locks are never left behind

However a creation ends, its token is not at the lock of the name, and it has taken no lock away
(`createOne_lock_safe`).  While somebody else holds the lock, a creation fails and changes nothing.

* `Contended`: a lock that others hold whatever they do.
* `OnlyOthers`: nothing has changed but what others have done.
-/

namespace SeriesStorage

namespace Remote

open Server (Command Intervention Keyspace Rehearsal Reply Spares Stage commandsIn interfere)

/-! ## Locks that others hold -/

/-- The key holds a token, though not this one. -/
def HeldByAnother (key token : String) (ks : Keyspace) : Prop :=
  ∃ other, other ≠ token ∧ ks.string? key = .ok (some other)

/-- The key holds another token whatever others do. -/
structure Contended (key token : String) (r : Rehearsal) : Prop where
  held : HeldByAnother key token r.keyspace
  throughout : ∀ i ∈ r.interventions, ∀ ks, HeldByAnother key token ks →
    HeldByAnother key token (interfere [i] ks)

/-- Since a site only others have changed anything, by what was prepared for one of the servers. -/
structure OnlyOthers (start : Site Stage) (server : Nat) (r : Rehearsal)
    (taken : List Intervention) (site : Site Stage) : Prop where
  client : site.client = start.client
  elsewhere : ∀ i, i ≠ server → site.world.servers[i]? = start.world.servers[i]?
  here : ∃ left, (taken ++ left).Perm r.interventions ∧
    site.world.servers[server]? = some ⟨r.password, interfere taken r.keyspace, r.faults, left⟩

section Contending

variable {start site : Site Stage} {c : Connection} {r : Rehearsal} {taken : List Intervention}
  {key token : String}

theorem onlyOthers_start {server : Nat} (found : start.world.servers[server]? = some r) :
    OnlyOthers start server r [] start :=
  ⟨rfl, fun _ _ => rfl, r.interventions, .refl _, found⟩

theorem Contended.heldAfter (h : Contended key token r)
    (since : OnlyOthers start c.server r taken site) :
    HeldByAnother key token (interfere taken r.keyspace) := by
  obtain ⟨left, all, _⟩ := since.here
  exact Server.interfere_keeps (fun i inside => h.throughout i
    (all.subset (List.mem_append_left _ inside))) h.held

/-- A command that is executed and changes nothing. -/
theorem OnlyOthers.ask {α : Type} {connections : Connections} {ns : Namespace}
    (since : OnlyOthers start c.server r taken site) (route : connections.route ns = .ok c)
    {command : Command} {reply : Reply}
    (executed : Server.exec r.password command (interfere taken r.keyspace) =
      (.ok reply, interfere taken r.keyspace))
    (spared : Spares [command.name] r.faults) (read : Reply → Except Fault α) :
    ∃ taken' next, OnlyOthers start c.server r taken' next ∧
      site.outcome (Remote.ask connections ns command read) =
        .answered ((read reply).mapError .redis) next := by
  obtain ⟨left, all, found⟩ := since.here
  let now : Rehearsal := ⟨r.password, interfere taken r.keyspace, r.faults, left⟩
  obtain ⟨mid, more, left', _, unhit, rest, after⟩ := now.exec_interfered command
  obtain ⟨answer, rfl⟩ := Prod.mk.inj ((unhit spared).trans executed)
  have faults : (Rehearsal.takeFault command.name now.faults).2 = r.faults :=
    congrArg Prod.snd (Server.takeFault_spared spared)
  rw [faults, ← Server.interfere_append] at after
  have asked := Site.outcome_ask route found command read
  rw [show now.exec command = (.ok reply, _) from Prod.ext answer after] at asked
  refine ⟨taken ++ more, _, ?_, asked⟩
  refine ⟨since.client, fun i apart => ?_, left', ?_, ?_⟩
  · rw [← since.elsewhere i apart]
    exact (Server.Stage.getElem?_update ..).trans (if_neg (Ne.symm apart))
  · rw [List.append_assoc]
    exact (rest.append_left taken).trans all
  · refine (Server.Stage.getElem?_update ..).trans ?_
    rw [if_pos rfl, found]
    rfl

variable {connections : Connections} {ns : Namespace} (contended : Contended key token r)
  (route : connections.route ns = .ok c) (spared : Spares ["GET", "SET"] r.faults)

include contended route spared

/-- A lock that another one holds is not free. -/
theorem OnlyOthers.tryLock (since : OnlyOthers start c.server r taken site) (options : Options) :
    ∃ taken' next, OnlyOthers start c.server r taken' next ∧
      site.outcome (Remote.tryLock connections ns key token options) = .succeed false next := by
  obtain ⟨other, _, holds⟩ := contended.heldAfter since
  have contained : (interfere taken r.keyspace).contains key = true := by
    rw [Table.contains_iff]
    unfold Keyspace.string? at holds
    split at holds
    · cases holds
    · next there => exact ⟨_, there⟩
    · cases holds
  have refused : Server.exec r.password (.setNew key token (max options.lockLeaseMs 1))
      (interfere taken r.keyspace) = (.ok .nothing, interfere taken r.keyspace) := by
    simp only [Server.exec, contained, if_true]
  exact since.ask route refused (spared.fewer _ fun _ => List.mem_cons_of_mem _) _

/-- A lock that another one holds is not obtained. -/
theorem OnlyOthers.obtain (since : OnlyOthers start c.server r taken site) (options : Options)
    (retries : Nat) :
    ∃ taken' next, OnlyOthers start c.server r taken' next ∧
      site.outcome (Remote.obtain connections ns key token options retries) =
        .fail (.lockNotObtained (.held key options.lockWaitMs.toNat)) next := by
  induction retries generalizing taken site with
  | zero =>
    obtain ⟨taken', next, since, tried⟩ := since.tryLock contended route spared options
    refine ⟨taken', next, since, ?_⟩
    unfold Remote.obtain
    rw [Site.outcome_bind, tried]
    rfl
  | succ retries ih =>
    obtain ⟨_, next, since, tried⟩ := since.tryLock contended route spared options
    obtain ⟨taken', last, since, failed⟩ := ih since
    refine ⟨taken', last, since, ?_⟩
    unfold Remote.obtain
    rw [Site.outcome_bind, tried]
    exact failed

omit contended spared in
/-- A name that holds nothing is not found. -/
theorem OnlyOthers.lookupName (found : start.world.servers[c.server]? = some r) {n : String}
    (absent : r.keyspace.get? (Key.name ns n) = none) (spared : Spares ["GET"] r.faults) :
    ∃ taken next, OnlyOthers start c.server r taken next ∧
      start.outcome (Remote.lookupName connections ns n) = .succeed none next := by
  have nothing : Server.exec r.password (.get (Key.name ns n)) (interfere [] r.keyspace) =
      (.ok .nothing, interfere [] r.keyspace) := by
    simp only [Server.exec, interfere, List.foldl_nil, Keyspace.string?, absent]
  obtain ⟨taken, next, since, asked⟩ :=
    (onlyOthers_start found).ask route nothing spared wordOrNothing
  refine ⟨taken, next, since, ?_⟩
  unfold Remote.lookupName
  rw [Site.outcome_bind, asked]
  rfl

end Contending

/-! ## Creating one series -/

/-- Afterwards no server has the token at the lock. -/
theorem not_holdsToken_createOne {site : Site Stage} {connections : Connections} {now : UInt64}
    {chance : LockChance} {input : SeriesInput} :
    let key := Key.lock (Key.name input.ns input.name)
    (∀ r ∈ site.world.servers, Fair key chance.token r ∧
      ¬ HoldsToken key chance.token r.keyspace) →
    ∀ r ∈ (site.outcome (createOne connections now chance input)).state.world.servers,
      ¬ HoldsToken key chance.token r.keyspace := by
  intro key free r inside
  cases route : connections.route input.ns with
  | error e =>
    have unserved : Unserved site.world connections input.ns := fun c same => by
      rw [route] at same
      cases same
    obtain ⟨_, failed⟩ := unserved.createOne now chance
    rw [failed] at inside
    exact (free r inside).2
  | ok c =>
    have watched : Watch key chance.token c.server True site := fun i r found =>
      have ⟨fair, unheld⟩ := free r (List.mem_of_getElem? found)
      ⟨fair, fun _ => unheld⟩
    obtain ⟨i, found⟩ := List.mem_iff_getElem?.mp inside
    exact (watch_createOne route site watched i r found).unheld fun _ => trivial

/-- **Locks are never left behind and never taken away.**  Whatever commands are refused, and
whatever others do between the commands, no server has the token of a creation at its lock
afterwards, as long as no release is refused and others never use the token.  No command that a
creation sends changes a lock which holds anything but its token.  If somebody else holds the lock
all the time, a creation of a name that was not there fails and itself changes nothing. -/
theorem createOne_lock_safe (site : Site Stage) (connections : Connections) (now : UInt64)
    (chance : LockChance) (input : SeriesInput) :
    let key := Key.lock (Key.name input.ns input.name)
    let outcome := site.outcome (createOne connections now chance input)
    ((∀ r ∈ site.world.servers, Fair key chance.token r ∧
        ¬ HoldsToken key chance.token r.keyspace) →
      ∀ r ∈ outcome.state.world.servers, ¬ HoldsToken key chance.token r.keyspace) ∧
    (∀ c ∈ commandsIn (site.sent (createOne connections now chance input)),
      SparesLocks chance.token c.2) ∧
    (∀ c r, connections.route input.ns = .ok c → site.world.servers[c.server]? = some r →
      r.keyspace.get? (Key.name input.ns input.name) = none → Contended key chance.token r →
      Spares ["GET", "SET"] r.faults →
      ∃ taken left, OnlyOthers site c.server r taken left ∧
        outcome =
          .fail (.lockNotObtained (.held key site.client.options.lockWaitMs.toNat)) left) := by
  intro key outcome
  refine ⟨not_holdsToken_createOne, ?_, fun c r route found absent contended spared => ?_⟩
  · exact (sparing_createOne connections now chance input site.world.log site
      (sentOnly_start _ site)).sent
  · obtain ⟨_, next, since, looked⟩ := OnlyOthers.lookupName route found absent
      (spared.fewer _ fun _ inside => List.mem_cons.mpr (.inl (List.mem_singleton.mp inside)))
    obtain ⟨taken, left, since', failed⟩ :=
      since.obtain contended route spared next.client.options chance.retries
    refine ⟨taken, left, since', ?_⟩
    have wait : site.client.options = next.client.options := by rw [since.client]
    show site.outcome (createOne connections now chance input) = _
    unfold createOne withLock
    rw [Site.outcome_bind, looked, Outcome.andThen_succeed, Site.outcome_bind, Site.outcome_get,
      Outcome.andThen_succeed, Site.outcome_bind, failed, wait]
    rfl

/-- The lock of a name. -/
def loadLock (ns : Namespace) : String := Key.lock (Key.name ns "load")

/-- Two servers.  On the first one somebody else takes the lock away while it is held, and then the
transaction is refused; on the second one others have the lock, one after the other. -/
def contestedLocks : Stage :=
  { servers :=
      [⟨"", .empty, [⟨"EXEC", 0, "READONLY"⟩],
        [⟨"INCR", Key.counter ⟨0⟩, [.remove (loadLock ⟨0⟩), .put (loadLock ⟨0⟩) "theirs"]⟩]⟩,
       ⟨"", ⟨[(loadLock ⟨1⟩, { value := .string "theirs" })]⟩, [⟨"INCR", 0, "READONLY"⟩],
        [⟨"SET", loadLock ⟨1⟩, [.put (loadLock ⟨1⟩) "others"]⟩]⟩]
    listeners := [⟨"a", 1, 0⟩, ⟨"b", 1, 1⟩]
    log := [] }

def contending : Site Stage := ⟨.ofOptions { connections := [] }, contestedLocks⟩

/-- A creation on the first server ends with the refusal and leaves the lock to who has it; one on
the second server does not obtain the lock. -/
theorem createOne_lock_safe_contending :
    let connections : Connections := [(⟨0⟩, ⟨0, true⟩), (⟨1⟩, ⟨1, true⟩)]
    let first := contending.outcome
      (createOne connections 0 ⟨"ours", 2⟩ ⟨⟨0⟩, "load", ["a"], none⟩)
    let second := contending.outcome
      (createOne connections 0 ⟨"ours", 2⟩ ⟨⟨1⟩, "load", ["a"], none⟩)
    first.answer = .error (.redis (.refused "READONLY")) ∧
      (∀ r ∈ first.state.world.servers, ¬ HoldsToken (loadLock ⟨0⟩) "ours" r.keyspace) ∧
      (first.state.world.servers.map fun r => r.keyspace.string? (loadLock ⟨0⟩)) =
        [.ok (some "theirs"), .ok none] ∧
      second.answer = .error (.lockNotObtained (.held (loadLock ⟨1⟩) 5000)) := by
  intro connections first second
  have free : ∀ r ∈ contending.world.servers, Fair (loadLock ⟨0⟩) "ours" r ∧
      ¬ HoldsToken (loadLock ⟨0⟩) "ours" r.keyspace := by
    intro r inside
    obtain rfl | rfl : r = contestedLocks.servers[0] ∨ r = contestedLocks.servers[1] := by
      simpa [contending, contestedLocks] using inside
    · exact ⟨⟨by decide +kernel, by decide +kernel⟩, by unfold HoldsToken; decide +kernel⟩
    · exact ⟨⟨by decide +kernel, by decide +kernel⟩, by unfold HoldsToken; decide +kernel⟩
  have contended : Contended (loadLock ⟨1⟩) "ours" contestedLocks.servers[1] := by
    refine ⟨⟨"theirs", by decide, by decide +kernel⟩, fun i inside ks _ => ?_⟩
    obtain rfl := List.mem_singleton.mp inside
    refine ⟨"others", by decide, ?_⟩
    simp [interfere, Rehearsal.Effect.apply, Keyspace.string?]
  obtain ⟨unheld, _, _⟩ := createOne_lock_safe contending connections 0 ⟨"ours", 2⟩
    ⟨⟨0⟩, "load", ["a"], none⟩
  obtain ⟨_, _, held⟩ := createOne_lock_safe contending connections 0 ⟨"ours", 2⟩
    ⟨⟨1⟩, "load", ["a"], none⟩
  obtain ⟨_, _, _, failed⟩ := held ⟨1, true⟩ contestedLocks.servers[1] rfl rfl
    (by decide +kernel) contended (by decide +kernel)
  exact ⟨by decide +kernel, unheld free, by decide +kernel, congrArg Outcome.answer failed⟩

end Remote

end SeriesStorage
