import SeriesStorage.Proofs.Remote.Sent
import SeriesStorage.Proofs.Remote.TriedCreation
import SeriesStorage.Proofs.Remote.WithoutPoints
import SeriesStorage.Proofs.Server.Interference

/-!
# The lock during a creation

A creation takes a lock and releases it whatever becomes of the commands between: they may be
refused, and others may take the lock away or change the name.

* `Watch`: what is known of the lock at all servers.  `watch_createOne` says that it is free after a
  creation if it was free before.
* `SparesLocks`: a command that changes no lock of somebody else.  `sparing_createOne` says that a
  creation sends only such commands.
-/

namespace SeriesStorage

namespace Remote

open Server (Command Entry Intervention Keyspace LogEntry Rehearsal Reply Request Spares Stage
  interfere)

/-! ## One command to a stage -/

theorem Site.served_eq (site : Site Stage) (server : Nat) (r : Request) :
    site.served server r = site.world.serve server r := rfl

section Asking

variable {α : Type} {site : Site Stage} {connections : Connections} {ns : Namespace}

/-- One command that reaches its server. -/
theorem Site.outcome_ask {c : Connection} (route : connections.route ns = .ok c) {r : Rehearsal}
    (found : site.world.servers[c.server]? = some r) (command : Command)
    (read : Reply → Except Fault α) :
    site.outcome (ask connections ns command read) =
      .answered (((r.exec command).1.mapError .refused >>= read).mapError .redis)
        ⟨site.client, { site.world.update c.server fun _ => (r.exec command).2 with
          log := site.world.log ++ [(c.server, .command command (r.exec command).1)] }⟩ := by
  unfold ask
  rw [Site.outcome_bind, Site.outcome_ofExcept, route, Outcome.andThen_eq_of_ok rfl,
    Outcome.state_answered, Site.outcome_bind, Site.outcome_request, Outcome.andThen_succeed,
    Site.outcome_bind, Site.outcome_orFault, Site.served_eq,
    Stage.serve_single found command]
  generalize r.exec command = result
  obtain ⟨_ | reply, _⟩ := result
  · rfl
  · show (Outcome.succeed [reply] _).andThen _ = _
    rw [Outcome.andThen_succeed, Site.outcome_orFault]
    rfl

/-- One command is asked; what holds of its server afterwards may depend on the answer. -/
theorem Leads.ask_each {I : Nat → Rehearsal → Prop} {J : Except Error α → Nat → Rehearsal → Prop}
    {c : Connection} (route : connections.route ns = .ok c) {command : Command}
    {read : Reply → Except Fault α}
    (others : ∀ answer i r, i ≠ c.server → I i r → J answer i r)
    (here : ∀ r, I c.server r →
      J (((r.exec command).1.mapError .refused >>= read).mapError .redis) c.server
        (r.exec command).2) :
    Leads (fun site : Site Stage => site.world.Each I) (ask connections ns command read)
      fun answer site => site.world.Each (J answer) := by
  intro site h
  cases found : site.world.servers[c.server]? with
  | none =>
    have unserved : Unserved site.world connections ns := fun _ same =>
      Except.ok.inj (route.symm.trans same) ▸ found
    obtain ⟨e, failed⟩ := unserved.ask command read
    rw [failed]
    intro i r there
    refine others _ i r (fun same => ?_) (h i r there)
    subst same
    cases found.symm.trans there
  | some r =>
    rw [Site.outcome_ask route found, Outcome.answer_answered, Outcome.state_answered]
    exact h.update (others _) (here r (h c.server r found)) _

end Asking

/-- What a request keeps of each server. -/
theorem Preserves.each_request {I : Nat → Rehearsal → Prop} (server : Nat) {request : Request}
    (kept : ∀ r, I server r → I server (r.execRequest request).2) :
    Preserves (fun site : Site Stage => site.world.Each I) (Remote.request server request) :=
  fun _ h => h.serve server kept

/-! ## Keys that hold a token -/

/-- The key holds the token. -/
def HoldsToken (key token : String) (ks : Keyspace) : Prop :=
  ks.string? key = .ok (some token)

section Tokens

variable {key token : String} {ks ks' : Keyspace}

theorem HoldsToken.congr (same : ks'.get? key = ks.get? key) :
    HoldsToken key token ks' ↔ HoldsToken key token ks := by
  unfold HoldsToken
  rw [string?_congr same]

/-- Whatever else is done to keys, only to put the token there lets a key hold it. -/
theorem not_holdsToken_apply {effect : Server.Effect} (other : effect ≠ .put key token)
    (free : ¬ HoldsToken key token ks) :
    ¬ HoldsToken key token (Rehearsal.Effect.apply ks effect) := by
  intro holds
  cases effect with
  | put key' text =>
    by_cases same : key' = key
    · subst same
      unfold HoldsToken Keyspace.string? Rehearsal.Effect.apply at holds
      rw [Table.get?_insert, if_pos rfl] at holds
      obtain rfl := Option.some.inj (Except.ok.inj holds)
      exact other rfl
    · refine free ((HoldsToken.congr ?_).mp holds)
      simp [Rehearsal.Effect.apply, same]
  | remove key' =>
    by_cases same : key' = key
    · subst same
      unfold HoldsToken Keyspace.string? Rehearsal.Effect.apply at holds
      rw [Table.get?_erase, if_pos rfl] at holds
      cases holds
    · refine free ((HoldsToken.congr ?_).mp holds)
      simp [Rehearsal.Effect.apply, same]

/-- The release leaves the token nowhere. -/
theorem not_holdsToken_release (required : String) (ks : Keyspace) :
    ¬ HoldsToken key token (Server.exec required (.release key token) ks).2 := by
  intro holds
  unfold HoldsToken at holds
  simp only [Server.exec] at holds
  split at holds
  · next e failed =>
    rw [failed] at holds
    cases holds
  · next text found =>
    split at holds
    · simp only [Keyspace.string?, Table.get?_erase, if_pos] at holds
      cases holds
    · next other =>
      rw [found] at holds
      exact other (Except.ok.inj holds)

/-- An attempt to take the lock that does not succeed leaves the keys as they were. -/
theorem setNew_attempt {required : String} {leaseMs : UInt64} {reply : Except String Reply}
    (h : Server.Attempt required (.setNew key token leaseMs) ks reply ks') :
    reply = .ok .ok ∨ ks' = ks := by
  cases h with
  | refused text => exact Or.inr rfl
  | executed run =>
    simp only [Server.exec] at run
    split at run
    · exact Or.inr (congrArg Prod.snd run).symm
    · exact Or.inl (congrArg Prod.fst run).symm

end Tokens

/-! ## What a creation keeps -/

/-- Others never put the token at the key, and no fault is prepared for a release. -/
structure Fair (key token : String) (r : Rehearsal) : Prop where
  strangers : ∀ i ∈ r.interventions, .put key token ∉ i.effects
  releases : Spares ["EVALSHA"] r.faults

/-- No server but one has the token at the key, and that one at most when it need not be free. -/
structure Watched (key token : String) (home : Nat) (free : Prop) (i : Nat) (r : Rehearsal) :
    Prop where
  fair : Fair key token r
  unheld : (i = home → free) → ¬ HoldsToken key token r.keyspace

section Watching

variable {key token : String} {home i : Nat} {free free' : Prop} {r : Rehearsal}

theorem Fair.interfere (h : Fair key token r) {taken left : List Intervention}
    (all : (taken ++ left).Perm r.interventions) {ks : Keyspace}
    (unheld : ¬ HoldsToken key token ks) : ¬ HoldsToken key token (interfere taken ks) := by
  refine Server.interfere_keeps (P := fun ks => ¬ HoldsToken key token ks)
    (fun i inside ks unheld => ?_) unheld
  have strange := h.strangers i (all.subset (List.mem_append_left _ inside))
  show ¬ HoldsToken key token (i.effects.foldl Rehearsal.Effect.apply ks)
  generalize i.effects = effects at strange
  induction effects generalizing ks with
  | nil => exact unheld
  | cons effect rest ih =>
    refine ih _ (not_holdsToken_apply (fun same => strange ?_) unheld) fun inside => strange ?_
    · exact same ▸ List.mem_cons_self
    · exact List.mem_cons_of_mem _ inside

/-- What a command does is fair, and leaves the key without the token if the attempt at it does. -/
theorem Fair.exec (h : Fair key token r) (command : Command) :
    ∃ mid, Server.Attempt r.password command r.keyspace (r.exec command).1 mid ∧
      (Spares [command.name] r.faults →
        ((r.exec command).1, mid) = Server.exec r.password command r.keyspace) ∧
      Fair key token (r.exec command).2 ∧
      (¬ HoldsToken key token mid → ¬ HoldsToken key token (r.exec command).2.keyspace) := by
  obtain ⟨mid, taken, left, attempt, executed, all, result⟩ := r.exec_interfered command
  refine ⟨mid, attempt, executed, ?_, fun unheld => ?_⟩
  · rw [result]
    exact ⟨fun i inside => h.strangers i (all.subset (List.mem_append_right _ inside)),
      h.releases.takeFault _⟩
  · rw [result]
    exact h.interfere all unheld

/-- A command that leaves the key alone. -/
theorem Watched.exec (h : Watched key token home free i r) {command : Command}
    (leave : ¬ command.Changes key) : Watched key token home free i (r.exec command).2 := by
  obtain ⟨mid, attempt, _, fair, unheld⟩ := h.fair.exec command
  refine ⟨fair, fun ready => unheld fun holds => h.unheld ready ?_⟩
  exact (HoldsToken.congr (attempt.get?_eq leave)).mp holds

theorem Watched.execRequest (h : Watched key token home free i r) {request : Request}
    (leave : ∀ command ∈ request.commands, ¬ command.Changes key) :
    Watched key token home free i (r.execRequest request).2 :=
  Rehearsal.execRequest_keeps
    (fun _ h => ⟨⟨h.fair.strangers, h.fair.releases.takeFault _⟩, h.unheld⟩)
    (fun command inside _ h => h.exec (leave command inside)) h

/-- Less is known. -/
theorem Watched.imp (h : Watched key token home free i r) (less : free' → free) :
    Watched key token home free' i r :=
  ⟨h.fair, fun ready => h.unheld fun same => less (ready same)⟩

theorem Watched.elsewhere (h : Watched key token home free i r) (apart : i ≠ home) :
    Watched key token home free' i r :=
  ⟨h.fair, fun _ => h.unheld fun same => absurd same apart⟩

/-- Where the lock could not be taken it is free. -/
theorem Watched.setNew (h : Watched key token home True home r) (leaseMs : UInt64) :
    Watched key token home ((r.exec (.setNew key token leaseMs)).1 ≠ .ok .ok) home
      (r.exec (.setNew key token leaseMs)).2 := by
  obtain ⟨mid, attempt, _, fair, unheld⟩ := h.fair.exec (.setNew key token leaseMs)
  refine ⟨fair, fun ready => unheld ?_⟩
  rcases setNew_attempt attempt with taken | same
  · exact absurd taken (ready rfl)
  · rw [same]
    exact h.unheld fun _ => trivial

/-- After the release the lock is free. -/
theorem Watched.release (h : Watched key token home free home r) :
    Watched key token home True home (r.exec (.release key token)).2 := by
  obtain ⟨mid, _, executed, fair, unheld⟩ := h.fair.exec (.release key token)
  refine ⟨fair, fun _ => unheld ?_⟩
  rw [show mid = _ from congrArg Prod.snd (executed h.fair.releases)]
  exact not_holdsToken_release _ _

end Watching

/-! ## Commands of a creation -/

/-- A command that changes no lock. -/
def LeavesLocks (command : Command) : Prop :=
  ∀ ns n, ¬ command.Changes (Key.lock (Key.name ns n))

theorem leavesLocks_of_key {command : Command} {k : KeyName} (kind : ∀ ns n, k ≠ .lock ns n)
    (named : ∀ key, command.Changes key → key = k.text) : LeavesLocks command := fun ns n changes =>
  @KeyName.text_ne k (.lock ns n) (kind ns n) (named _ changes).symm

theorem leavesLocks_registration (m : SeriesMetadata) :
    ∀ staged ∈ registration m, LeavesLocks staged.command := by
  intro staged inside
  simp only [registration, List.mem_cons, List.mem_map] at inside
  obtain rfl | rfl | ⟨tag, _, rfl⟩ := inside
  · exact @leavesLocks_of_key _ (.name m.ns m.name) (by simp) fun _ same => same.symm
  · exact @leavesLocks_of_key _ (.descriptor m.ref) (by simp) fun _ same => same.symm
  · exact @leavesLocks_of_key _ (.tag m.ns tag) (by simp) fun _ same => same.symm

theorem leavesLocks_increment (ns : Namespace) : LeavesLocks (.increment (Key.counter ns)) :=
  @leavesLocks_of_key _ (.counter ns) (by simp) fun _ same => same.symm

theorem leavesLocks_get (key : String) : LeavesLocks (.get key) := fun _ _ => id

/-! ## The lock during a creation -/

/-- What is known of the lock at all servers. -/
def Watch (key token : String) (home : Nat) (free : Prop) (site : Site Stage) : Prop :=
  site.world.Each (Watched key token home free)

theorem Watch.imp {key token : String} {home : Nat} {free free' : Prop} {site : Site Stage}
    (h : Watch key token home free site) (less : free' → free) :
    Watch key token home free' site :=
  fun i r found => (h i r found).imp less

section Creating

variable {α : Type} {connections : Connections} {ns : Namespace} {key token : String}
  {c : Connection} (route : connections.route ns = .ok c)

include route

theorem leads_tryLock (options : Options) :
    Leads (Watch key token c.server True) (tryLock connections ns key token options)
      fun answer => Watch key token c.server (answer ≠ .ok true) := by
  refine Leads.ask_each route (fun _ _ _ apart h => h.elsewhere apart) fun r h =>
    (h.setNew _).imp fun refused taken => refused ?_
  rw [taken]
  rfl

/-- Where a lock is not obtained it is free. -/
theorem leads_obtain (options : Options) (retries : Nat) :
    Leads (Watch key token c.server True) (obtain connections ns key token options retries)
      fun answer => Watch key token c.server (answer ≠ .ok ()) := by
  induction retries with
  | zero =>
    refine (leads_tryLock route options).bind (fun _ _ h => h.imp fun _ => nofun) fun isFree => ?_
    cases isFree
    · exact Leads.throw fun _ h => h.imp fun _ => nofun
    · exact Leads.pure fun _ h => h.imp fun failed => absurd rfl failed
  | succ retries ih =>
    refine (leads_tryLock route options).bind (fun _ _ h => h.imp fun _ => nofun) fun isFree => ?_
    cases isFree
    · exact ih.weaken fun _ h => h.imp fun _ => nofun
    · exact Leads.pure fun _ h => h.imp fun failed => absurd rfl failed

theorem leads_release (free : Prop) :
    Leads (Watch key token c.server free) (release connections ns key token)
      fun _ => Watch key token c.server True :=
  Leads.ask_each route (fun _ _ _ apart h => h.elsewhere apart) fun _ h => h.release

/-- However a task under the lock ends, the lock is released. -/
theorem leads_withLock (chance : LockChance) {task : Task α}
    (kept : Preserves (Watch key chance.token c.server False) task) :
    Leads (Watch key chance.token c.server True) (withLock connections ns key chance task)
      fun _ => Watch key chance.token c.server True := by
  refine Leads.get_bind fun client => ?_
  refine ((leads_obtain route client.options chance.retries).weaken fun _ h => h.1).bind
    (fun _ _ h => h.imp fun _ => nofun) fun _ => ?_
  refine Leads.attempt_bind (R := fun _ => Watch key chance.token c.server False)
    (fun site h => kept site (h.imp nofun)) fun result => ?_
  exact Leads.attempt_bind (leads_release route False) fun _ => Leads.ofExcept fun _ h => h

end Creating

/-- **The lock during a creation.**  If no server holds the token before, none does afterwards. -/
theorem watch_createOne {connections : Connections} {now : UInt64} {chance : LockChance}
    {input : SeriesInput} {c : Connection} (route : connections.route input.ns = .ok c) :
    let key := Key.lock (Key.name input.ns input.name)
    Leads (Watch key chance.token c.server True) (createOne connections now chance input)
      fun _ => Watch key chance.token c.server True := by
  intro key
  have asked : ∀ (free : Prop) server (r : Request), (∀ command ∈ r.commands, LeavesLocks command) →
      Preserves (Watch key chance.token c.server free) (request server r) := fun _ server _ leave =>
    .each_request server fun _ h => h.execRequest fun command inside =>
      leave command inside input.ns input.name
  refine Leads.bind (R := fun _ => Watch key chance.token c.server True)
    (Preserves.lookupName (fun server r keyless => asked True server r fun c inside _ _ =>
      keyless c inside _) connections _ _) (fun _ _ h => h) fun known => ?_
  cases known with
  | some known => exact Leads.pure fun _ h => h
  | none =>
    exact leads_withLock route chance
      (Preserves.createLocked (asked False) leavesLocks_get leavesLocks_increment
        leavesLocks_registration (fun _ _ h => h) connections now input)

/-! ## What a creation sends -/

/-- A command that changes no lock which holds anything but the token. -/
def SparesLocks (token : String) (command : Command) : Prop :=
  ∀ (required : String) (ks : Keyspace) (ns : Namespace) (n : String) (e : Entry),
    ks.get? (Key.lock (Key.name ns n)) = some e → e.value ≠ .string token →
      (Server.exec required command ks).2.get? (Key.lock (Key.name ns n)) = some e

theorem LeavesLocks.spares {command : Command} (h : LeavesLocks command) (token : String) :
    SparesLocks token command := fun required ks ns n _ there _ =>
  (Server.get?_exec required command ks _ (h ns n)).trans there

/-- A lock that is there is not set. -/
theorem sparesLocks_setNew (key token : String) (leaseMs : UInt64) :
    SparesLocks token (.setNew key token leaseMs) := by
  intro required ks ns n e there _
  by_cases same : key = Key.lock (Key.name ns n)
  · subst same
    have contained : ks.contains (Key.lock (Key.name ns n)) = true :=
      (ks.contains_iff _).mpr ⟨e, there⟩
    simp only [Server.exec, contained, if_true]
    exact there
  · exact (Server.get?_exec required (.setNew key token leaseMs) ks _ same).trans there

/-- A lock that holds another token is not released. -/
theorem sparesLocks_release (key token : String) : SparesLocks token (.release key token) := by
  intro required ks ns n e there other
  by_cases same : key = Key.lock (Key.name ns n)
  · subst same
    simp only [Server.exec]
    split
    · exact there
    · next text found =>
      rw [if_neg]
      · exact there
      · rintro rfl
        unfold Keyspace.string? at found
        rw [there] at found
        obtain ⟨value, _, _⟩ := e
        cases value <;> cases found
        exact other rfl
  · exact (Server.get?_exec required (.release key token) ks _ same).trans there

theorem sparing_createOne (connections : Connections) (now : UInt64) (chance : LockChance)
    (input : SeriesInput) (log : List (Nat × LogEntry)) :
    Preserves (SentOnly (SparesLocks chance.token) log)
      (createOne connections now chance input) :=
  .createOne (fun server r => .request_sending server r)
    (fun key => (leavesLocks_get key).spares _) (fun ns => (leavesLocks_increment ns).spares _)
    (fun m staged inside => (leavesLocks_registration m staged inside).spares _) (fun _ _ h => h)
    (fun key => sparesLocks_setNew key _) (fun key => sparesLocks_release key _) connections now input

end Remote

end SeriesStorage
