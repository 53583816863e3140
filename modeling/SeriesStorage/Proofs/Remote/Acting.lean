import SeriesStorage.Proofs.Remote.TriedCreation

/-!
# Single actions of sessions

What a session with one server does when it acts once (`Acts`): it sends one request, gets the answer
and goes on with it.  There is one lemma for each call that sends a single request.

A task is taken apart where it waits for its first call, also under `attempt` (`bind_eq_attempt`,
`attempt_bind`).
-/

namespace SeriesStorage

namespace Remote

open Server (Command Keyspace Network Node Reply Request)

/-! ## The first call of a task -/

section Attempting

variable {α β : Type}

theorem bind_eq_attempt (task : Task α) (next : α → Task β) :
    task >>= next = task.attempt >>= fun result => Task.ofExcept result >>= next := by
  apply ExceptT.ext
  simp only [ExceptT.run_bind, Task.attempt, ExceptT.run_mk, bind_assoc, pure_bind]
  congr 1
  funext result
  cases result <;> rfl

theorem attempt_bind (task : Task α) (next : α → Task β) :
    (task >>= next).attempt =
      task.attempt >>= fun result => (Task.ofExcept result >>= next).attempt := by
  apply ExceptT.ext
  simp only [ExceptT.run_bind, Task.attempt, ExceptT.run_mk, bind_assoc, pure_bind]
  congr 1
  funext result
  cases result <;> simp [Task.ofExcept]

theorem session_ofExcept (result : Except Error α) (client : Client) :
    (Task.ofExcept result).session client = .done (result, client) := by
  cases result <;> rfl

end Attempting

/-! ## Actions -/

/-- A session acts: it sends a request to the server, `session'` is left of it, and the server holds
these keys. -/
structure Acts {α : Type} (world : Network) (server : Nat) (node : Node)
    (session session' : Session α) (ks : Keyspace) : Prop where
  sends : ∃ r next, session = .send server r next
  left : (session.step World.host world).1 = session'
  keys : (session.step World.host world).2.nodes[server]? = some { node with keyspace := ks }

section Acting

variable {α β : Type} {world : Network} {c : Connection} {node : Node} {connections : Connections}
  {ns : Namespace}

theorem acts_request {server : Nat} (found : world.nodes[server]? = some node) (r : Request)
    (next : Except Error (List Reply) → Task β) (client : Client) :
    Acts world server node (((request server r >>= orFault).attempt >>= next).session client)
      ((next ((r.exec node.password node.keyspace).1.mapError .redis)).session client)
      (r.exec node.password node.keyspace).2 := by
  have served : world.serve server r = ((r.exec node.password node.keyspace).1,
      world.setKeys server (r.exec node.password node.keyspace).2) := by
    unfold Network.serve
    rw [found]
  have sent : ((request server r >>= orFault).attempt >>= next).session client =
      .send server r fun answer => (next (answer.mapError .redis)).session client := by
    show Session.send server r
      (fun answer => ((orFault answer).attempt >>= next).session client) = _
    congr 1
    funext answer
    cases answer <;> rfl
  rw [sent]
  refine ⟨⟨r, _, rfl⟩, ?_, ?_⟩
  · show (next ((world.serve server r).1.mapError .redis)).session client = _
    rw [served]
  · show (world.serve server r).2.nodes[server]? = _
    rw [served, Network.getElem?_setKeys, if_pos rfl, found]
    rfl

theorem ask_eq (route : connections.route ns = .ok c) (command : Command)
    (read : Reply → Except Fault α) :
    ask connections ns command read = request c.server (.single command) >>= orFault >>=
      fun replies => orFault (only replies >>= read) := by
  unfold ask
  rw [route, show (Task.ofExcept (.ok c) : Task Connection) = pure c from rfl, pure_bind,
    bind_assoc]

theorem acts_ask (route : connections.route ns = .ok c)
    (found : world.nodes[c.server]? = some node) {command : Command} {reply : Except String Reply}
    {ks : Keyspace} (ran : Server.exec node.password command node.keyspace = (reply, ks))
    {read : Reply → Except Fault α} {next : Except Error α → Task β} {client : Client} :
    Acts world c.server node (((ask connections ns command read).attempt >>= next).session client)
      ((next ((reply.mapError .refused >>= read).mapError .redis)).session client) ks := by
  have answered : ∀ replies : Except Error (List Reply),
      (Task.ofExcept replies >>= fun replies => orFault (only replies >>= read)).attempt =
        pure (replies >>= fun replies => (only replies >>= read).mapError .redis) := by
    intro replies
    cases replies with
    | error e => rfl
    | ok replies =>
      show (orFault (only replies >>= read)).attempt = pure ((only replies >>= read).mapError _)
      cases only replies >>= read <;> rfl
  rw [ask_eq route, attempt_bind, bind_assoc]
  simp only [answered, pure_bind]
  have acts := acts_request found (.single command)
    (fun replies => next (replies >>= fun replies => (only replies >>= read).mapError .redis))
    client
  simp only [Request.exec, Request.commands, Server.execAll, ran] at acts
  cases reply <;> exact acts

theorem acts_lookup (route : connections.route ns = .ok c)
    (found : world.nodes[c.server]? = some node) {n : String}
    {next : Except Error (Option SeriesId) → Task β} {client : Client} :
    ∃ answer, LookedUp node.keyspace (Key.name ns n) answer ∧
      Acts world c.server node (((lookupName connections ns n).attempt >>= next).session client)
        ((next answer).session client) node.keyspace := by
  obtain ⟨same, looked⟩ :=
    lookedUp (Server.attempt_exec node.password (.get (Key.name ns n)) node.keyspace)
  have converted : ∀ word : Except Error (Option UInt64),
      (Task.ofExcept word >>= fun w => pure (w.map SeriesId.mk)).attempt =
        (pure (word.map (Option.map SeriesId.mk)) : Task _) := by
    intro word
    cases word <;> rfl
  refine ⟨_, looked, ?_⟩
  unfold lookupName
  rw [attempt_bind, bind_assoc]
  simp only [converted, pure_bind]
  have ran : Server.exec node.password (.get (Key.name ns n)) node.keyspace =
      ((Server.exec node.password (.get (Key.name ns n)) node.keyspace).1, node.keyspace) :=
    Prod.ext rfl same
  exact acts_ask route found ran

theorem acts_tryLock (route : connections.route ns = .ok c)
    (found : world.nodes[c.server]? = some node) {key token : String} {options : Options}
    {next : Except Error Bool → Task β} {client : Client} :
    let session := ((tryLock connections ns key token options).attempt >>= next).session client
    (node.keyspace.get? key = none ∧
        Acts world c.server node session ((next (.ok true)).session client)
          (node.keyspace.insert key (Reaches.lockEntry token options))) ∨
      Acts world c.server node session ((next (.ok false)).session client) node.keyspace := by
  intro session
  by_cases held : node.keyspace.contains key = true
  · have ran : Server.exec node.password (.setNew key token (max options.lockLeaseMs 1))
        node.keyspace = (.ok .nothing, node.keyspace) := by
      simp only [Server.exec, if_pos held]
    exact Or.inr (acts_ask route found ran)
  · have ran : Server.exec node.password (.setNew key token (max options.lockLeaseMs 1))
        node.keyspace = (.ok .ok, node.keyspace.insert key (Reaches.lockEntry token options)) := by
      simp only [Server.exec, if_neg held]
      rfl
    exact Or.inl ⟨by simpa [Table.contains] using held, acts_ask route found ran⟩

/-- A lock is deleted if it holds the token. -/
theorem acts_release (route : connections.route ns = .ok c)
    (found : world.nodes[c.server]? = some node) {key token : String}
    {next : Except Error Bool → Task β} {client : Client} :
    ∃ answer ks, (ks = node.keyspace ∨
        node.keyspace.string? key = .ok (some token) ∧ ks = node.keyspace.erase key) ∧
      Acts world c.server node
        (((release connections ns key token).attempt >>= next).session client)
        ((next answer).session client) ks := by
  refine ⟨_, (Server.exec node.password (.release key token) node.keyspace).2, ?_,
    acts_ask route found rfl⟩
  simp only [Server.exec]
  split
  · exact Or.inl rfl
  · next text? there =>
    split
    · next mine => exact Or.inr ⟨there.trans (congrArg _ mine), rfl⟩
    · exact Or.inl rfl

/-- A registration is one action where the connection takes transactions. -/
theorem acts_register (route : connections.route ns = .ok c) (transactions : c.transactions = true)
    (found : world.nodes[c.server]? = some node) {m : SeriesMetadata}
    {next : Except Error Unit → Task β} {client : Client} :
    ∃ answer ks set, Entered m node.keyspace true true ks set ∧
      Acts world c.server node
        (((execute connections ns (registration m)).attempt >>= next).session client)
        ((next answer).session client) ks := by
  obtain ⟨set, entered⟩ := entered_execAll node.password m node.keyspace
  have discarded : ∀ replies : Except Error (List Reply),
      (Task.ofExcept replies >>= fun _ => pure ()).attempt =
        (pure (replies.map fun _ => ()) : Task (Except Error Unit)) := by
    intro replies
    cases replies <;> rfl
  rw [execute_together route transactions (by simp [registration]) (registration_unchecked m),
    attempt_bind, bind_assoc]
  simp only [discarded, pure_bind]
  have acts := acts_request found (.transaction ((registration m).map (·.command)))
    (fun replies => next (replies.map fun _ => ())) client
  exact ⟨_, _, set, entered, acts⟩

/-- What follows an attempt at a lock that another one holds. -/
def obtainLater (connections : Connections) (ns : Namespace) (key token : String)
    (options : Options) : Nat → Task Unit
  | 0 => throw (.lockNotObtained (.held key options.lockWaitMs.toNat))
  | retries + 1 => obtain connections ns key token options retries

theorem obtain_bind (connections : Connections) (ns : Namespace) (key token : String)
    (options : Options) (retries : Nat) (next : Unit → Task β) :
    obtain connections ns key token options retries >>= next =
      (tryLock connections ns key token options).attempt >>= fun result =>
        Task.ofExcept result >>= fun isFree =>
          (if isFree then pure () else obtainLater connections ns key token options retries) >>=
            next := by
  have split : obtain connections ns key token options retries =
      tryLock connections ns key token options >>= fun isFree =>
        if isFree then pure () else obtainLater connections ns key token options retries := by
    cases retries <;> rfl
  rw [split, bind_assoc, bind_eq_attempt]

end Acting

end Remote

end SeriesStorage
