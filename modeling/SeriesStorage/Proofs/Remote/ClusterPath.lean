import SeriesStorage.Proofs.Remote.Connecting
import SeriesStorage.Proofs.Remote.ReadingPoints

/-!
# The path to a cluster

A client sends writes in one transaction and reads in one pipeline where its connection allows it,
and one command at a time where it does not, as over the connections to a cluster.  Take the
connections of a client as ones to clusters (`Client.asClusters`).  Then every call answers the same
and does the same to the servers, unless one of its commands fails: a transaction goes on behind a
command that fails, and single commands stop there.

* `CommandFailed`: an answer says that a command failed.
* `Follows`: a task on the other connections does what a first one does, unless that is excused.
* `Follows.sendAll`, `Follows.queryRanges`: the two places at which the paths part.
* `Follows.perform`: a call.
-/

namespace SeriesStorage

/-! ## Failed commands -/

/-- Whether a fault is one that a command gets: the server refused it, or is not there. -/
def Fault.ofCommand : Fault → Bool
  | .refused _ => true
  | .io text => text = "Connection reset"
  | .mistyped _ => false

/-- The fault behind an error. -/
def Error.fault? : Error → Option Fault
  | .redis fault => some fault
  | .unavailable (.connecting _ fault) => some fault
  | .unavailable (.pinging _ fault) => some fault
  | _ => none

/-- Whether an error says that a command failed. -/
def Error.ofCommand (e : Error) : Bool := e.fault?.any Fault.ofCommand

/-- A call failed because one of its commands did. -/
def CommandFailed {α : Type} (answer : Except Error α) : Prop :=
  ∃ e, answer = .error e ∧ e.ofCommand = true

instance {α : Type} : (answer : Except Error α) → Decidable (CommandFailed answer)
  | .ok _ => .isFalse nofun
  | .error e => decidable_of_iff (e.ofCommand = true)
      ⟨fun failed => ⟨e, rfl, failed⟩, fun ⟨_, same, failed⟩ => Except.error.inj same ▸ failed⟩

theorem Outcome.map_id {σ α : Type} (outcome : Outcome σ α) : outcome.map id = outcome := by
  obtain ⟨answer, state⟩ := outcome
  cases answer <;> rfl

namespace Remote

open Server (Command Keyspace Network Node Reply Request Runs)

/-! ## Connections as ones to clusters -/

/-- The same connection, over which commands go one at a time. -/
def Connection.asCluster (c : Connection) : Connection := { c with transactions := false }

def Connections.asClusters (connections : Connections) : Connections :=
  connections.map fun entry => (entry.1, entry.2.asCluster)

/-- The same place with a cluster behind it. -/
def ConnectionDetails.asCluster (details : ConnectionDetails) : ConnectionDetails :=
  if details.kind = .server then { details with kind := .cluster } else details

def Options.asClusters (options : Options) : Options :=
  { options with
    connections := options.connections.map fun entry => (entry.1, entry.2.asCluster) }

/-- The same client with clusters behind its connections. -/
def Client.asClusters (client : Client) : Client :=
  { client with
    options := client.options.asClusters
    connections := client.connections.map Connections.asClusters }

/-- The same servers with the other connections. -/
def Site.asClusters (site : Site Network) : Site Network := ⟨site.client.asClusters, site.world⟩

theorem Connections.route_asClusters (connections : Connections) (ns : Namespace) :
    connections.asClusters.route ns = (connections.route ns).map Connection.asCluster := by
  have found (ns : Namespace) : connections.asClusters.find? (·.1 = ns) =
      (connections.find? (·.1 = ns)).map fun entry => (entry.1, entry.2.asCluster) := by
    unfold asClusters
    rw [List.find?_map]
    rfl
  unfold route
  rw [found, found]
  cases connections.find? (·.1 = ns) with
  | some entry => rfl
  | none =>
    cases connections.find? (·.1 = defaultNamespace) with
    | some entry => rfl
    | none => rfl

/-! ## Clients that run -/

/-- A command whose count is checked adds points. -/
def Countable (staged : StagedCommand) : Prop :=
  staged.expected ≠ none → ∃ key points, staged.command = .addPoints key points

/-- Counts are expected of staged points only, and a client that has to connect has time for it. -/
structure Fit (client : Client) : Prop where
  countable : ∀ req writes, client.pending.writes? req = some writes → ∀ entry ∈ writes.entries,
    ∀ staged ∈ entry.2, Countable staged
  patient : client.connections = none → client.options.connectMs ≠ 0

theorem fit_ofOptions {options : Options} (patient : options.connectMs ≠ 0) :
    Fit (.ofOptions options) := ⟨nofun, fun _ => patient⟩

theorem countable_unchecked {commands : List StagedCommand}
    (unchecked : ∀ staged ∈ commands, staged.expected = none) :
    ∀ staged ∈ commands, Countable staged :=
  fun staged inside expected => absurd (unchecked staged inside) expected

theorem stagePoints_countable {m : SeriesMetadata} {draws : Draws} {times : List UInt64}
    {values : List Binary64} {commands : List StagedCommand}
    (h : stagePoints m draws times values = .ok commands) :
    ∀ staged ∈ commands, Countable staged := by
  intro staged inside expected
  obtain ⟨bucket, ⟨added, rfl⟩ | ⟨second, rfl⟩⟩ := stagePoints_cases h staged inside
  · exact ⟨_, _, rfl⟩
  · exact absurd rfl expected

/-! ## A task that follows another -/

/-- A task with the connections as ones to clusters does what a first task does, unless the answer
of the first one is excused.  The answers may mention connections, so they are compared by a
function. -/
def Follows {α β : Type} (excused : Except Error α → Prop) (f : α → β) (task : Task α)
    (task' : Task β) : Prop :=
  ∀ site : Site Network, Fit site.client → excused (site.outcome task).answer ∨
    Fit (site.outcome task).state.client ∧
      site.asClusters.outcome task' = ((site.outcome task).map f).mapState Site.asClusters

/-- No answer is excused. -/
def Inexcusable {α : Type} (_ : Except Error α) : Prop := False

namespace Follows

variable {α β γ δ : Type} {excused : Except Error α → Prop} {excused' : Except Error γ → Prop}
  {f : α → β} {g : γ → δ} {task : Task α} {task' : Task β} {k : α → Task γ} {k' : β → Task δ}

/-! ### How tasks are built -/

theorem weaken (h : Follows Inexcusable f task task') : Follows excused f task task' :=
  fun site fit => Or.inr ((h site fit).resolve_left id)

theorem pure (a : α) : Follows excused f (Pure.pure a) (Pure.pure (f a)) :=
  fun _ fit => Or.inr ⟨fit, rfl⟩

theorem throw (e : Error) : Follows excused f (MonadExcept.throw e) (MonadExcept.throw e) :=
  fun _ fit => Or.inr ⟨fit, rfl⟩

theorem ofExcept (result : Except Error α) :
    Follows excused id (Task.ofExcept result) (Task.ofExcept result) := by
  cases result with
  | ok a => exact pure a
  | error e => exact throw e

theorem orFault (result : Except Fault α) :
    Follows excused id (Remote.orFault result) (Remote.orFault result) := by
  cases result with
  | ok a => exact pure a
  | error fault => exact throw _

/-- What follows has to be excused if the task before it is. -/
theorem bind (h : Follows excused f task task')
    (fails : ∀ outcome : Outcome (Site Network) α, excused outcome.answer →
      excused' (outcome.andThen fun a site => site.outcome (k a)).answer)
    (onward : ∀ a, Follows excused' g (k a) (k' (f a))) :
    Follows excused' g (task >>= k) (task' >>= k') := by
  intro site fit
  rw [Site.outcome_bind, Site.outcome_bind]
  rcases h site fit with failed | ⟨fit', same⟩
  · exact Or.inl (fails _ failed)
  · rw [same]
    cases answer : (site.outcome task).answer with
    | ok a =>
      rw [Outcome.eq_succeed answer]
      exact onward a _ fit'
    | error e =>
      rw [Outcome.eq_fail answer]
      exact Or.inr ⟨fit', rfl⟩

/-- What follows a task that is never excused. -/
theorem after (h : Follows Inexcusable f task task')
    (onward : ∀ a, Follows excused' g (k a) (k' (f a))) :
    Follows excused' g (task >>= k) (task' >>= k') :=
  h.bind (fun _ => False.elim) onward

/-- What follows a task of which a command may fail. -/
theorem next (h : Follows CommandFailed f task task')
    (onward : ∀ a, Follows CommandFailed g (k a) (k' (f a))) :
    Follows CommandFailed g (task >>= k) (task' >>= k') := by
  refine h.bind (fun outcome ⟨e, answer, failed⟩ => ?_) onward
  rw [Outcome.andThen_eq_of_error answer]
  exact ⟨e, rfl, failed⟩

/-- A task that fails on a condition, before the rest. -/
theorem ite_throw {p : Prop} [Decidable p] {e : Error} {k : α → Task γ} {k' : α → Task δ}
    {rest : Task γ} {rest' : Task δ} (h : Follows excused' g rest rest') :
    Follows excused' g (if p then MonadExcept.throw e >>= k else rest)
      (if p then MonadExcept.throw e >>= k' else rest') := by
  split
  · exact throw e
  · exact h

theorem get_bind {k : Client → Task γ} {k' : Client → Task δ}
    (h : ∀ client, Fit client → Follows excused' g (k client) (k' client.asClusters)) :
    Follows excused' g (MonadState.get >>= k) (MonadState.get >>= k') := by
  intro site fit
  rw [Site.outcome_bind, Site.outcome_bind, Site.outcome_get, Site.outcome_get]
  exact h site.client fit site fit

theorem changes {m m' : Client → Client}
    (h : ∀ client, Fit client → Fit (m client) ∧ m' client.asClusters = (m client).asClusters) :
    Follows Inexcusable id (modify m) (modify m') := by
  intro site fit
  obtain ⟨fit', same⟩ := h site.client fit
  refine Or.inr ⟨fit', ?_⟩
  rw [Site.outcome_modify, Site.outcome_modify]
  exact congrArg (fun client => Outcome.succeed () (⟨client, site.world⟩ : Site Network)) same

/-- The cache can be changed in any way. -/
theorem cached (change : Cache → Cache) : Follows Inexcusable id
    (modify fun client => { client with cache := change client.cache } : Task Unit)
    (modify fun client => { client with cache := change client.cache } : Task Unit) :=
  changes fun _ fit => ⟨⟨fit.countable, fit.patient⟩, rfl⟩

/-! ### Talking to servers -/

theorem request (server : Nat) (r : Request) :
    Follows Inexcusable id (Remote.request server r) (Remote.request server r) :=
  fun _ fit => Or.inr ⟨fit, rfl⟩

theorem dial (address : String) (port : UInt16) :
    Follows Inexcusable id (Task.ofSession (.dial address port .done))
      (Task.ofSession (.dial address port .done)) :=
  fun _ fit => Or.inr ⟨fit, rfl⟩

theorem route (connections : Connections) (ns : Namespace) :
    Follows Inexcusable Connection.asCluster (Task.ofExcept (connections.route ns))
      (Task.ofExcept (connections.asClusters.route ns)) := by
  rw [Connections.route_asClusters]
  cases connections.route ns with
  | ok c => exact pure c
  | error e => exact throw e

theorem connected :
    Follows Inexcusable Connections.asClusters Remote.connected Remote.connected := by
  refine get_bind ?_
  rintro ⟨options, connections, pending, cache⟩ _
  cases connections with
  | some connections => exact pure connections
  | none => exact throw _

theorem ask (connections : Connections) (ns : Namespace) (command : Command)
    (read : Reply → Except Fault α) :
    Follows Inexcusable id (Remote.ask connections ns command read)
      (Remote.ask connections.asClusters ns command read) :=
  after (route connections ns) fun _ => after (request _ _) fun _ => after (orFault _) fun _ =>
    orFault _

/-! ### Descriptors -/

theorem lookupName (connections : Connections) (ns : Namespace) (name : String) :
    Follows Inexcusable id (Remote.lookupName connections ns name)
      (Remote.lookupName connections.asClusters ns name) :=
  after (ask connections ns _ _) fun _ => pure _

theorem loadMetadata (connections : Connections) (ref : SeriesRef) :
    Follows Inexcusable id (Remote.loadMetadata connections ref)
      (Remote.loadMetadata connections.asClusters ref) := by
  refine after (ask connections ref.ns _ _) fun text => ?_
  cases text with
  | none => exact pure _
  | some text =>
    dsimp only [id]
    split
    · exact pure _
    · exact throw _

theorem cachedMetadata (connections : Connections) (ref : SeriesRef) :
    Follows Inexcusable id (Remote.cachedMetadata connections ref)
      (Remote.cachedMetadata connections.asClusters ref) := by
  refine get_bind fun client _ => ?_
  dsimp only [Client.asClusters]
  cases client.cache.get? ref with
  | some m => exact after (cached fun cache => cache.insert ref m) fun _ => pure _
  | none =>
    refine after (loadMetadata connections ref) fun found => ?_
    cases found with
    | none => exact pure _
    | some m => exact after (cached fun cache => cache.insert ref m) fun _ => pure _

theorem access (now : UInt64) (ref : SeriesRef) :
    Follows Inexcusable id (Remote.access now ref) (Remote.access now ref) :=
  after connected fun connections => after (cachedMetadata connections ref) fun _ => pure _

theorem loadBatch (connections : Connections) (refs : List SeriesRef) :
    Follows Inexcusable id (Remote.loadBatch connections refs)
      (Remote.loadBatch connections.asClusters refs) := by
  induction refs with
  | nil => exact pure _
  | cons ref rest ih =>
    refine after (loadMetadata connections ref) fun found => ?_
    cases found with
    | none => exact throw _
    | some m =>
      exact ite_throw (after ih fun _ => pure _)

end Follows

/-! ## Where the paths part -/

/-- Commands in a row all succeed, or one of them is refused. -/
theorem runs_or_refused (required : String) (commands : List Command) (ks : Keyspace) :
    (∃ replies last, Runs required commands ks replies last) ∨
      ∃ text, Server.gather (Server.execAll (Server.exec required) commands ks).1 =
        .error (.refused text) := by
  induction commands generalizing ks with
  | nil => exact Or.inl ⟨[], ks, .done⟩
  | cons command rest ih =>
    cases first : Server.exec required command ks with
    | mk answer ks' =>
    cases answer with
    | error text => exact Or.inr ⟨text, by simp only [Server.execAll, first, Server.gather]⟩
    | ok reply =>
      rcases ih ks' with ⟨replies, last, runs⟩ | ⟨text, refused⟩
      · exact Or.inl ⟨reply :: replies, last, .step first runs⟩
      · refine Or.inr ⟨text, ?_⟩
        simp only [Server.execAll, first, Server.gather, refused, Except.map]

/-- Of commands that succeed the new members are counted. -/
theorem reportedTotal_countable {required : String} {commands : List StagedCommand}
    {ks last : Keyspace} {replies : List Reply} (countable : ∀ staged ∈ commands, Countable staged)
    (runs : Runs required (commands.map (·.command)) ks replies last) :
    ∃ n, reportedTotal (commands.zip replies) = .ok n := by
  induction commands generalizing ks replies with
  | nil => exact ⟨0, rfl⟩
  | cons staged rest ih =>
    cases runs with
    | @step _ _ _ ks' _ reply replies run runs =>
      obtain ⟨n, total⟩ := ih (fun s inside => countable s (List.mem_cons_of_mem _ inside)) runs
      have first : ∃ m, reportedTotal [(staged, reply)] = .ok m := by
        cases expected : staged.expected with
        | none => exact ⟨0, by simp only [reportedTotal, expected]; rfl⟩
        | some k =>
          obtain ⟨key, points, adds⟩ := countable staged List.mem_cons_self (by simp [expected])
          simp only [adds, Server.exec] at run
          split at run
          · cases run
          · obtain ⟨counted, _⟩ := Prod.mk.inj run
            obtain rfl := Except.ok.inj counted
            exact ⟨_, by simp only [reportedTotal, expected, count]; rfl⟩
      obtain ⟨m, first⟩ := first
      exact ⟨m + n, reportedTotal_append first total⟩

/-- The commands of a request all succeed, or the request gets the fault of a command. -/
theorem served_cases (site : Site Network) (server : Nat) (r : Request) :
    (∃ fault : Fault, fault.ofCommand = true ∧ (site.served server r).1 = .error fault) ∨
      ∃ node replies last, site.world.nodes[server]? = some node ∧
        Runs node.password r.commands node.keyspace replies last := by
  cases found : site.world.nodes[server]? with
  | none =>
    have answer := congrArg Outcome.answer (Site.outcome_request_absent found r)
    exact Or.inl ⟨_, rfl, Except.ok.inj answer⟩
  | some node =>
    have reaches : Reaches site [(defaultNamespace, ⟨server, true⟩)] defaultNamespace
      ⟨server, true⟩ node := ⟨rfl, found⟩
    rcases runs_or_refused node.password r.commands node.keyspace with
      ⟨replies, last, runs⟩ | ⟨text, refused⟩
    · exact Or.inr ⟨node, replies, last, rfl, runs⟩
    · exact Or.inl ⟨.refused text, rfl, (congrArg Prod.fst (reaches.served r)).trans refused⟩

/-- A task fails with the fault of its request. -/
theorem commandFailed_request {α : Type} {site : Site Network} {server : Nat} {r : Request}
    (failed : ∃ fault : Fault, fault.ofCommand = true ∧ (site.served server r).1 = .error fault)
    (k : List Reply → Task α) :
    CommandFailed
      (site.outcome (request server r >>= fun answer => orFault answer >>= k)).answer := by
  obtain ⟨fault, ofCommand, answer⟩ := failed
  rw [Site.outcome_bind, Site.outcome_request, answer, Outcome.andThen_succeed]
  exact ⟨.redis fault, rfl, ofCommand⟩

/-- Ranges that are asked for are there, and asking changes nothing. -/
theorem ranges_of_runs {required : String} {buckets : List UInt64} {key : UInt64 → String}
    {first : UInt64} {upper : Binary64} {ks last : Keyspace} {replies : List Reply}
    (runs : Runs required (buckets.map fun bucket => .pointsBetween (key bucket) first upper) ks
      replies last) :
    ∀ bucket ∈ buckets, ∃ members,
      Server.exec required (.pointsBetween (key bucket) first upper) ks =
        (.ok (.scored members), ks) := by
  induction buckets generalizing replies with
  | nil => exact nofun
  | cons bucket rest ih =>
    cases runs with
    | step run runs =>
      have here : ∃ members, Server.exec required (.pointsBetween (key bucket) first upper) ks =
          (.ok (.scored members), ks) := by
        simp only [Server.exec] at run ⊢
        split at run
        · cases run
        · exact ⟨_, rfl⟩
      obtain ⟨members, found⟩ := here
      obtain ⟨_, rfl⟩ := Prod.mk.inj (found.symm.trans run)
      exact List.forall_mem_cons.mpr ⟨⟨members, found⟩, ih runs⟩

namespace Follows

/-- Commands one at a time. -/
theorem executeSingly (server : Nat) (commands : List StagedCommand) :
    Follows Inexcusable id (Remote.executeSingly server commands)
      (Remote.executeSingly server commands) := by
  induction commands with
  | nil => exact pure 0
  | cons staged rest ih =>
    exact after (request _ _) fun _ => after (orFault _) fun _ => after (orFault _) fun _ =>
      after (orFault _) fun _ => after ih fun _ => pure _

/-- **Writes**: a transaction, and its commands one at a time. -/
theorem sendAll (c : Connection) {commands : List StagedCommand}
    (countable : ∀ staged ∈ commands, Countable staged) :
    Follows CommandFailed id (Remote.sendAll c commands)
      (Remote.sendAll c.asCluster commands) := by
  cases transactions : c.transactions with
  | false =>
    have alone : Remote.sendAll c commands = Remote.executeSingly c.server commands := by
      simp only [Remote.sendAll, transactions, Bool.false_eq_true, if_false]
    rw [alone]
    exact (executeSingly c.server commands).weaken
  | true =>
    have together : Remote.sendAll c commands = executeTogether c.server commands := by
      simp only [Remote.sendAll, transactions, if_true]
    intro site fit
    -- if all commands succeed it makes no difference how they are sent
    rcases served_cases site c.server (.transaction (commands.map (·.command))) with
      failed | ⟨node, replies, last, found, runs⟩
    · rw [together]
      exact Or.inl (commandFailed_request failed _)
    · obtain ⟨n, total⟩ := reportedTotal_countable countable runs
      have reaches : Reaches site [(defaultNamespace, c)] defaultNamespace c node := ⟨rfl, found⟩
      have reaches' : Reaches site.asClusters [(defaultNamespace, c.asCluster)] defaultNamespace
        c.asCluster node := ⟨rfl, found⟩
      rw [reaches.sendAll runs total, reaches'.sendAll runs total]
      exact Or.inr ⟨fit, rfl⟩

/-- Ranges one at a time. -/
theorem querySingly (c : Connection) (commands : List Command) :
    Follows Inexcusable id (queryRanges.querySingly c commands)
      (queryRanges.querySingly c.asCluster commands) := by
  induction commands with
  | nil => exact pure _
  | cons command rest ih =>
    exact after (request _ _) fun _ => after (orFault _) fun _ => after (orFault _) fun _ =>
      after ih fun _ => pure _

/-- **Reads**: a pipeline, and its commands one at a time. -/
theorem queryRanges (c : Connection) (buckets : List UInt64) (key : UInt64 → String)
    (first : UInt64) (upper : Binary64) :
    Follows CommandFailed id
      (Remote.queryRanges c <| buckets.map fun bucket => .pointsBetween (key bucket) first upper)
      (Remote.queryRanges c.asCluster <| buckets.map fun bucket =>
        .pointsBetween (key bucket) first upper) := by
  have apart : Remote.queryRanges c.asCluster = queryRanges.querySingly c.asCluster := rfl
  cases transactions : c.transactions with
  | false =>
    have alone : Remote.queryRanges c = queryRanges.querySingly c := by
      funext commands
      simp only [Remote.queryRanges, transactions, Bool.false_eq_true, if_false]
    rw [alone, apart]
    exact (querySingly c _).weaken
  | true =>
    intro site fit
    rcases served_cases site c.server
        (.pipeline (buckets.map fun bucket => .pointsBetween (key bucket) first upper)) with
      failed | ⟨node, replies, last, found, runs⟩
    · simp only [Remote.queryRanges, transactions, if_true]
      exact Or.inl (commandFailed_request failed _)
    · -- nothing changes in between, so every range is what it was at first
      choose! members each using ranges_of_runs runs
      have reaches : Reaches site [(defaultNamespace, c)] defaultNamespace c node := ⟨rfl, found⟩
      have reaches' : Reaches site.asClusters [(defaultNamespace, c.asCluster)] defaultNamespace
        c.asCluster node := ⟨rfl, found⟩
      rw [reaches.queryRanges each, reaches'.queryRanges each]
      exact Or.inr ⟨fit, rfl⟩

/-! ## Creating -/

theorem execute (connections : Connections) (ns : Namespace) {commands : List StagedCommand}
    (countable : ∀ staged ∈ commands, Countable staged) :
    Follows CommandFailed id (Remote.execute connections ns commands)
      (Remote.execute connections.asClusters ns commands) := by
  rw [execute_eq, execute_eq]
  split
  · exact pure _
  · refine after (route connections ns) fun c => next (sendAll c countable) fun stored => ?_
    dsimp only [id]
    unfold checkCount
    split
    · exact throw _
    · exact pure _

/-- The lock is released whatever the task answers, and that is the answer.  No notice is taken of a
fault of the release, so it may not depend on the path. -/
theorem released {α β : Type} {task task' : Task α} {last last' : Task β}
    (h : Follows CommandFailed id task task') (hlast : Follows Inexcusable id last last') :
    Follows CommandFailed id
      (task.attempt >>= fun answer => last.attempt >>= fun _ => Task.ofExcept answer)
      (task'.attempt >>= fun answer => last'.attempt >>= fun _ => Task.ofExcept answer) := by
  have result (site : Site Network) (t : Task α) (last : Task β) :
      site.outcome (t.attempt >>= fun answer => last.attempt >>= fun _ => Task.ofExcept answer) =
        .answered (site.outcome t).answer ((site.outcome t).state.outcome last).state := by
    rw [Site.outcome_bind, Site.outcome_attempt, Outcome.andThen_succeed, Site.outcome_bind,
      Site.outcome_attempt, Outcome.andThen_succeed, Site.outcome_ofExcept]
  intro site fit
  rw [result, result]
  rcases h site fit with failed | ⟨fit', same⟩
  · exact Or.inl failed
  · obtain ⟨fit'', same'⟩ := (hlast _ fit').resolve_left id
    rw [same, Outcome.map_id, Outcome.map_id]
    exact Or.inr ⟨fit'', congrArg (Outcome.answered (site.outcome task).answer)
      (congrArg Outcome.state same')⟩

theorem obtain (connections : Connections) (ns : Namespace) (key token : String)
    (options : Options) (retries : Nat) :
    Follows Inexcusable id (Remote.obtain connections ns key token options retries)
      (Remote.obtain connections.asClusters ns key token options.asClusters retries) := by
  induction retries with
  | zero =>
    refine after (ask connections ns _ _) fun isFree => ?_
    cases isFree
    · exact throw _
    · exact pure _
  | succ retries ih =>
    refine after (ask connections ns _ _) fun isFree => ?_
    cases isFree
    · exact ih
    · exact pure _

theorem withLock {α : Type} (connections : Connections) (ns : Namespace) (key : String)
    (chance : LockChance) {task task' : Task α} (h : Follows CommandFailed id task task') :
    Follows CommandFailed id (Remote.withLock connections ns key chance task)
      (Remote.withLock connections.asClusters ns key chance task') :=
  get_bind fun client _ =>
    after (obtain connections ns key chance.token client.options chance.retries) fun _ =>
      released h (ask connections ns _ _)

theorem createLocked (connections : Connections) (now : UInt64) (input : SeriesInput) :
    Follows CommandFailed id (Remote.createLocked connections now input)
      (Remote.createLocked connections.asClusters now input) := by
  refine after (lookupName connections input.ns input.name) fun taken => ?_
  cases taken with
  | some id => exact pure _
  | none =>
    exact after (ask connections input.ns _ _) fun number =>
      next (execute connections input.ns (countable_unchecked (registration_unchecked _))) fun _ =>
        after (cached fun cache => cache.invalidate _) fun _ => pure _

theorem createOne (connections : Connections) (now : UInt64) (chance : LockChance)
    (input : SeriesInput) :
    Follows CommandFailed id (Remote.createOne connections now chance input)
      (Remote.createOne connections.asClusters now chance input) := by
  refine after (lookupName connections input.ns input.name) fun known => ?_
  cases known with
  | some id => exact pure _
  | none => exact withLock connections _ _ _ (createLocked connections now input)

theorem create (now : UInt64) (chances : LockChances) (batch : CreateBatch) :
    Follows CommandFailed id (Remote.create now chances batch)
      (Remote.create now chances batch) := by
  refine after connected fun connections => ?_
  suffices ∀ i, Follows CommandFailed id (createFrom connections now chances i batch)
    (createFrom connections.asClusters now chances i batch) from this 0
  induction batch with
  | nil => exact fun _ => pure _
  | cons entry rest ih =>
    exact fun i => next (createOne connections now (chances i) entry.2) fun _ =>
      next (ih (i + 1)) fun _ => pure _

/-! ## Deleting -/

theorem delete (refs : List SeriesRef) :
    Follows CommandFailed id (Remote.delete refs) (Remote.delete refs) := by
  refine after connected fun connections => after (loadBatch connections refs) fun metas => ?_
  have removed (namespaces : List Namespace) :
      Follows CommandFailed id (executeRemovals connections metas namespaces)
        (executeRemovals connections.asClusters metas namespaces) := by
    induction namespaces with
    | nil => exact pure _
    | cons ns rest ih =>
      refine next (execute connections ns fun staged inside => ?_) fun _ => ih
      obtain ⟨m, _, inside⟩ := List.mem_flatMap.mp inside
      exact countable_unchecked (removal_unchecked m) staged inside
  exact next (removed _) fun _ => (cached fun cache => cache.invalidate _).weaken

theorem guarded {α : Type} (now : UInt64) (ref : SeriesRef) {act act' : SeriesMetadata → Task α}
    (h : ∀ m, Follows CommandFailed id (act m) (act' m)) :
    Follows CommandFailed id (Remote.guarded now ref act) (Remote.guarded now ref act') := by
  refine after (access now ref) fun found => ?_
  cases found with
  | live m => exact h m
  | unknown => exact throw _
  | expired m => exact next (delete [ref]) fun _ => throw _

/-! ## Points -/

theorem append (ns : Namespace) (req : RequestId) (m : SeriesMetadata) (draws : Draws)
    (times : List UInt64) (values : List Binary64) :
    Follows CommandFailed id (Remote.append ns req m draws times values)
      (Remote.append ns req m draws times values) := by
  refine after connected fun connections => ?_
  cases points : stagePoints m draws times values with
  | error e => exact throw e
  | ok commands =>
    have countable := stagePoints_countable points
    rw [show Task.ofExcept (.ok commands) = Pure.pure commands from rfl, pure_bind, pure_bind]
    split
    · exact execute connections ns countable
    · refine weaken ?_
      refine changes fun client fit => ⟨⟨?_, fit.patient⟩, rfl⟩
      exact Pending.forall_stage (E := fun _ entry => ∀ staged ∈ entry.2, Countable staged)
        fit.countable countable fun _ old => List.forall_mem_append.mpr ⟨old, countable⟩

theorem flush (req : RequestId) :
    Follows CommandFailed id (Remote.flush req) (Remote.flush req) := by
  refine get_bind fun client fit => ?_
  dsimp only [Client.asClusters]
  cases found : client.pending.writes? req with
  | none => exact throw _
  | some writes =>
    have countable := fit.countable req writes found
    refine after (changes fun client fit => ⟨⟨fun req' writes' found' =>
      fit.countable req' writes' (Pending.writes?_of_remove found'), fit.patient⟩, rfl⟩)
      fun _ => after connected fun connections => ?_
    clear found
    generalize writes.entries = entries at countable
    induction entries with
    | nil => exact pure _
    | cons entry rest ih =>
      exact next (execute connections entry.1 (countable entry List.mem_cons_self)) fun _ =>
        ih fun e inside => countable e (List.mem_cons_of_mem _ inside)

theorem fetch (ref : SeriesRef) (window : Window) :
    Follows CommandFailed id (Remote.fetch ref window) (Remote.fetch ref window) := by
  refine after connected fun connections => ite_throw ?_
  refine after (ofExcept _) fun buckets => after (route connections ref.ns) fun c =>
    next (queryRanges c buckets _ _ _) fun members => after (ofExcept _) fun scored => ?_
  exact ite_throw (pure _)

/-! ## Searching and clearing -/

theorem search (query : Search) :
    Follows CommandFailed id (Remote.search query) (Remote.search query) := by
  refine after (ofExcept _) fun _ => after connected fun connections =>
    after (lookupName connections query.ns query.name) fun known => ?_
  cases known with
  | none => exact pure _
  | some id =>
    refine after (cachedMetadata connections ⟨query.ns, id⟩) fun found => ?_
    cases found with
    | none => exact throw _
    | some m => exact pure _

theorem clear : Follows CommandFailed id Remote.clear Remote.clear := by
  refine after connected fun connections => ?_
  have flushed (namespaces : List Namespace) :
      Follows Inexcusable id (flushServers connections namespaces)
        (flushServers connections.asClusters namespaces) := by
    induction namespaces with
    | nil => exact pure _
    | cons ns rest ih => exact after (ask connections ns _ _) fun _ => ih
  have same : connections.asClusters.map (·.1) = connections.map (·.1) := by
    simp [Connections.asClusters]
  rw [same]
  refine after (flushed _) fun _ => weaken ?_
  refine changes fun client fit => ⟨⟨fun _ _ found => ?_, fit.patient⟩, rfl⟩
  cases found

/-! ## Connecting -/

/-- A connection could not be opened because a command failed. -/
def Unopened (answer : Except Error (Except Fault Connection)) : Prop :=
  ∃ fault : Fault, fault.ofCommand = true ∧ answer = .ok (.error fault)

theorem pingAll (connections : Connections) :
    Follows CommandFailed id (Remote.pingAll connections)
      (Remote.pingAll connections.asClusters) := by
  induction connections with
  | nil => exact pure _
  | cons entry rest ih =>
    refine after (request _ _) fun answer => ?_
    cases answer with
    | error fault => exact throw _
    | ok replies => exact ih

/-- A command before the rest that changes no key, and that only one of the tasks sends. -/
theorem select {γ : Type} {g : Connection → γ} (server : Nat) {command : Command}
    (keyless : ∀ key, ¬ command.Changes key) {rest : Task (Except Fault Connection)}
    {rest' : Task (Except Fault γ)} (h : Follows Unopened (Except.map g) rest rest') :
    Follows Unopened (Except.map g) (do
      match ← Remote.request server (.single command) with
      | .error fault => return .error fault
      | .ok _ => rest) rest' := by
  intro site fit
  rw [Site.outcome_bind, Site.outcome_request, Outcome.andThen_succeed]
  have kept : (⟨site.client, (site.served server (.single command)).2⟩ : Site Network) = site :=
    Preserves.unchanged_single site server keyless site rfl
  rw [kept]
  cases answer : (site.served server (.single command)).1 with
  | ok replies => exact h site fit
  | error fault =>
    rcases served_cases site server (.single command) with
      ⟨fault', ofCommand, failed⟩ | ⟨node, replies, last, found, runs⟩
    · obtain rfl := Except.error.inj (answer.symm.trans failed)
      exact Or.inl ⟨fault, ofCommand, rfl⟩
    · have reaches : Reaches site [(defaultNamespace, ⟨server, true⟩)] defaultNamespace
        ⟨server, true⟩ node := ⟨rfl, found⟩
      rw [reaches.served, runs.exec_request rfl] at answer
      cases answer

/-- A connection is opened, and the one to a cluster with it: a cluster is told no database. -/
theorem openConnection (options : Options) (patient : options.connectMs ≠ 0)
    (details : ConnectionDetails) :
    Follows Unopened (Except.map Connection.asCluster) (Remote.openConnection options details)
      (Remote.openConnection options.asClusters details.asCluster) := by
  obtain ⟨kind, apart, same⟩ : ∃ kind, kind ≠ .server ∧
      details.asCluster = { details with kind } := by
    unfold ConnectionDetails.asCluster
    split
    · exact ⟨.cluster, nofun, rfl⟩
    · next other => exact ⟨details.kind, other, rfl⟩
  rw [same]
  unfold Remote.openConnection
  rw [if_neg (fun late => patient late.2), if_neg (fun late => apart late.1)]
  refine after (dial _ _) fun reached => ?_
  cases reached with
  | error fault => exact pure _
  | ok server =>
    let last : Task (Except Fault Connection) :=
      if options.ioMs = 0 then Pure.pure (.error zeroTime)
      else Pure.pure (.ok ⟨server, details.kind = .server⟩)
    let last' : Task (Except Fault Connection) :=
      if options.ioMs = 0 then Pure.pure (.error zeroTime)
      else Pure.pure (.ok ⟨server, kind = .server⟩)
    have timed : Follows Unopened (Except.map Connection.asCluster) last last' := by
      unfold last last'
      rw [decide_eq_false apart]
      split <;> exact pure _
    have selected : Follows Unopened (Except.map Connection.asCluster)
        (if details.kind = .server ∧ details.database ≠ 0 then (do
            match ← Remote.request server (.single (.select details.database.toInt)) with
            | .error fault => return .error fault
            | .ok _ => last)
          else last) last' := by
      split
      · exact select server (fun _ => id) timed
      · exact timed
    dsimp only [id]
    rw [if_neg (show ¬ (kind = .server ∧ _) from fun told => apart told.1)]
    split
    · refine after (request _ _) fun answer => ?_
      cases answer with
      | error fault => exact pure _
      | ok replies => exact selected
    · exact selected

theorem openConnections (options : Options) (patient : options.connectMs ≠ 0)
    (entries : List (Namespace × ConnectionDetails)) :
    Follows CommandFailed Connections.asClusters (Remote.openConnections options entries)
      (Remote.openConnections options.asClusters
        (entries.map fun entry => (entry.1, entry.2.asCluster))) := by
  induction entries with
  | nil => exact pure _
  | cons entry rest ih =>
    obtain ⟨ns, details⟩ := entry
    rw [List.map_cons]
    unfold Remote.openConnections
    dsimp only
    by_cases memory : details.kind = .memory
    · have same : details.asCluster = details := by
        unfold ConnectionDetails.asCluster
        rw [memory]
        rfl
      rw [same, if_pos memory, if_pos memory]
      exact throw _
    · have other : details.asCluster.kind ≠ .memory := by
        unfold ConnectionDetails.asCluster
        split
        · exact ConnectionKind.noConfusion
        · exact memory
      rw [if_neg memory, if_neg other]
      refine bind (openConnection options patient details) (fun outcome spoilt => ?_)
        fun answer => ?_
      · obtain ⟨fault, ofCommand, answer⟩ := spoilt
        rw [Outcome.andThen_eq_of_ok answer]
        exact ⟨_, rfl, ofCommand⟩
      · cases answer with
        | error fault => exact throw _
        | ok connection => exact next ih fun _ => pure _

theorem openOnce :
    Follows CommandFailed Connections.asClusters Remote.openOnce Remote.openOnce := by
  refine get_bind ?_
  rintro ⟨options, connections, pending, cache⟩ fit
  cases connections with
  | some connections => exact pure connections
  | none =>
    refine next (openConnections options (fit.patient rfl) _) fun connections =>
      after (changes fun client fit => ⟨⟨fit.countable, fun unopened => ?_⟩, rfl⟩) fun _ => pure _
    cases unopened

theorem connect : Follows CommandFailed id Remote.connect Remote.connect :=
  next openOnce pingAll

/-- **A call** over connections to clusters does the same, unless a command fails. -/
theorem perform (now : UInt64) (call : Call) :
    Follows CommandFailed id (Remote.perform now call) (Remote.perform now call) := by
  cases call with
  | connect => exact next connect fun _ => pure _
  | create chances batch => exact next (create now chances batch) fun _ => pure _
  | search query => exact next (search query) fun _ => pure _
  | delete refs => exact next (delete refs) fun _ => pure _
  | clear => exact next clear fun _ => pure _
  | write ref req draws times values =>
    exact next (guarded now ref fun m => append ref.ns req m draws times values) fun _ => pure _
  | flush req => exact next (flush req) fun _ => pure _
  | read ref window => exact next (guarded now ref fun _ => fetch ref window) fun _ => pure _

end Follows

end Remote

end SeriesStorage
