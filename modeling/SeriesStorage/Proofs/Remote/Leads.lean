import SeriesStorage.Proofs.Remote.Execution
import SeriesStorage.Proofs.Server.Attempts

/-!
# Tasks on servers that may refuse

`Leads P task Q` says what a task answers and leaves, whatever becomes of its commands; it has
one rule for each construct of a task, as `Preserves` has.

While a task talks to one server only, `OnServer` says what became of the client, of the keys of that
server, and which texts were set, since a site at which it began.  Its rules reduce what a task does
to what can become of its commands (`Attempt`).
-/

namespace SeriesStorage

namespace Remote

open Server (Attempt Attempts Command Keyspace LogEntry Rehearsal Reply Request Stage texts textsOf)

/-- From sites with `P` a task leads to answers and sites with `Q`. -/
def Leads {σ α : Type} [World σ] (P : Site σ → Prop) (task : Task α)
    (Q : Except Error α → Site σ → Prop) : Prop :=
  ∀ site, P site → Q (site.outcome task).answer (site.outcome task).state

namespace Leads

section Rules

variable {σ α β : Type} [World σ] {P : Site σ → Prop} {Q : Except Error β → Site σ → Prop}

theorem pure {a : β} (h : ∀ site, P site → Q (.ok a) site) :
    Leads P (Pure.pure a : Task β) Q := h

theorem throw {e : Error} (h : ∀ site, P site → Q (.error e) site) :
    Leads P (MonadExcept.throw e : Task β) Q := h

theorem changes {f : Client → Client} {Q : Except Error Unit → Site σ → Prop}
    (h : ∀ site, P site → Q (.ok ()) { site with client := f site.client }) :
    Leads P (modify f : Task Unit) Q := h

theorem ofExcept {result : Except Error β} (h : ∀ site, P site → Q result site) :
    Leads P (Task.ofExcept result) Q := by
  intro site hsite
  rw [Site.outcome_ofExcept]
  exact h site hsite

theorem orFault {result : Except Fault β}
    (h : ∀ site, P site → Q (result.mapError .redis) site) :
    Leads P (Remote.orFault result) Q := by
  intro site hsite
  rw [Site.outcome_orFault]
  exact h site hsite

theorem get_bind {f : Client → Task β}
    (h : ∀ client, Leads (fun site => P site ∧ site.client = client) (f client) Q) :
    Leads P (MonadState.get >>= f) Q := by
  intro site hsite
  rw [Site.outcome_bind, Site.outcome_get, Outcome.andThen_succeed]
  exact h site.client site ⟨hsite, rfl⟩

theorem bind {task : Task α} {f : α → Task β} {R : Except Error α → Site σ → Prop}
    (h : Leads P task R) (failed : ∀ e site, R (.error e) site → Q (.error e) site)
    (hf : ∀ a, Leads (R (.ok a)) (f a) Q) : Leads P (task >>= f) Q := by
  intro site hsite
  have first := h site hsite
  rw [Site.outcome_bind]
  cases answer : (site.outcome task).answer with
  | ok a =>
    rw [answer] at first
    rw [Outcome.andThen_eq_of_ok answer]
    exact hf a _ first
  | error e =>
    rw [answer] at first
    rw [Outcome.andThen_eq_of_error answer]
    exact failed e _ first

/-- What follows with the connections of the client, if it has any. -/
theorem connected_bind {f : Connections → Task β}
    (none : ∀ site, P site → site.client.connections = none →
      Q (.error (.unavailable .notInitialized)) site)
    (h : ∀ connections,
      Leads (fun site => P site ∧ site.client.connections = some connections) (f connections)
        Q) : Leads P (Remote.connected >>= f) Q := by
  intro site hsite
  rw [Site.outcome_bind]
  cases own : site.client.connections with
  | none =>
    rw [Site.outcome_connected_none own]
    exact none site hsite own
  | some connections =>
    rw [Site.outcome_connected own, Outcome.andThen_succeed]
    exact h connections site ⟨hsite, own⟩

/-- What follows a task that is allowed to fail. -/
theorem attempt_bind {task : Task α} {f : Except Error α → Task β}
    {R : Except Error α → Site σ → Prop} (h : Leads P task R)
    (hf : ∀ result, Leads (R result) (f result) Q) : Leads P (task.attempt >>= f) Q := by
  intro site hsite
  rw [Site.outcome_bind, Site.outcome_attempt, Outcome.andThen_succeed]
  exact hf _ _ (h site hsite)

theorem weaken {P' : Site σ → Prop} {task : Task β} (h : Leads P' task Q)
    (h' : ∀ site, P site → P' site) : Leads P task Q :=
  fun site hsite => h site (h' site hsite)

end Rules

end Leads

/-! ## Talking to one server -/

/-- Since a site only one server was talked to; `P` says what became of the client, of the keys of
the server, and which texts were set. -/
structure OnServer (start : Site Stage) (server : Nat) (password : String)
    (P : Client → Keyspace → List (String × String) → Prop) (site : Site Stage) : Prop where
  undisturbed : site.world.Undisturbed
  others : ∀ i, i ≠ server → site.world.servers[i]? = start.world.servers[i]?
  here : ∃ (r : Rehearsal) (set : List (String × String)),
    site.world.servers[server]? = some r ∧ r.password = password ∧
    texts site.world.log = texts start.world.log ++ set.map (server, ·) ∧
    P site.client r.keyspace set

namespace OnServer

variable {start : Site Stage} {server : Nat} {password : String}
  {P : Client → Keyspace → List (String × String) → Prop}

theorem start_self {site : Site Stage} {r : Rehearsal} (undisturbed : site.world.Undisturbed)
    (found : site.world.servers[server]? = some r) (h : P site.client r.keyspace []) :
    OnServer site server r.password P site where
  undisturbed := undisturbed
  others := fun _ _ => rfl
  here := ⟨r, [], found, rfl, (List.append_nil _).symm, h⟩

theorem imp {Q : Client → Keyspace → List (String × String) → Prop} {site : Site Stage}
    (h : OnServer start server password P site) (h' : ∀ client ks set, P client ks set →
      Q client ks set) : OnServer start server password Q site := by
  obtain ⟨r, set, found, same, log, hP⟩ := h.here
  exact ⟨h.undisturbed, h.others, r, set, found, same, log, h' _ _ _ hP⟩

theorem of_or {Q : Client → Keyspace → List (String × String) → Prop} {site : Site Stage}
    (h : OnServer start server password (fun client ks set => P client ks set ∨ Q client ks set)
      site) : OnServer start server password P site ∨ OnServer start server password Q site := by
  obtain ⟨r, set, found, same, log, hP | hQ⟩ := h.here
  · exact Or.inl ⟨h.undisturbed, h.others, r, set, found, same, log, hP⟩
  · exact Or.inr ⟨h.undisturbed, h.others, r, set, found, same, log, hQ⟩

/-- What `P` says apart from the state may be used for the task. -/
theorem leads_of {α : Type} {φ : Prop} {task : Task α} {post : Except Error α → Site Stage → Prop}
    (h : ∀ client ks set, P client ks set → φ)
    (h' : φ → Leads (OnServer start server password P) task post) :
    Leads (OnServer start server password P) task post := by
  intro site hsite
  obtain ⟨r, set, _, _, _, hP⟩ := hsite.here
  exact h' (h _ _ _ hP) site hsite

/-- Another client at the same servers. -/
theorem onClient {Q : Client → Keyspace → List (String × String) → Prop} {site : Site Stage}
    (h : OnServer start server password P site) (client : Client)
    (h' : ∀ ks set, P site.client ks set → Q client ks set) :
    OnServer start server password Q { site with client } := by
  obtain ⟨r, set, found, same, log, hP⟩ := h.here
  exact ⟨h.undisturbed, h.others, r, set, found, same, log, h' _ _ hP⟩

/-- A request to the server, with its replies. -/
theorem request {r : Request}
    {Q : Except Error (List Reply) → Client → Keyspace → List (String × String) → Prop}
    (refused : ∀ client ks set text, P client ks set →
      (∃ commands, r = .transaction commands) → Q (.error (.redis (.refused text))) client ks set)
    (attempted : ∀ client ks set replies ks', P client ks set →
      Attempts password r.commands ks replies ks' →
      Q ((Server.gather replies).mapError .redis) client ks' (set ++ textsOf r.commands replies)) :
    Leads (OnServer start server password P) (Remote.request server r >>= Remote.orFault)
      fun answer => OnServer start server password (Q answer) := by
  intro site h
  obtain ⟨rehearsal, set, found, rfl, log, hP⟩ := h.here
  have served := Stage.served h.undisturbed server r
  have outcome : site.outcome (Remote.request server r >>= Remote.orFault) =
      .answered ((site.world.serve server r).1.mapError .redis)
        ⟨site.client, (site.world.serve server r).2⟩ := by
    rw [Site.outcome_bind, Site.outcome_request, Outcome.andThen_succeed, Site.outcome_orFault]
    rfl
  rw [outcome]
  generalize site.world.serve server r = result at served
  have others : ∀ r' : Rehearsal, ∀ i, i ≠ server →
      (site.world.update server fun _ => r').servers[i]? = start.world.servers[i]? := by
    intro r' i apart
    rw [Stage.getElem?_update, if_neg (Ne.symm apart), h.others i apart]
  have here : ∀ r' : Rehearsal,
      (site.world.update server fun _ => r').servers[server]? = some r' := by
    intro r'
    rw [Stage.getElem?_update, if_pos rfl, found]
    rfl
  cases served with
  | missing none =>
    rw [found] at none
    cases none
  | @refused r₀ r' commands text found' keys same undisturbed transaction =>
    obtain rfl := Option.some.inj (found.symm.trans found')
    refine ⟨h.undisturbed.update server undisturbed _, others r', r', set, here r', same, ?_, ?_⟩
    · rw [Outcome.state_answered, Server.texts_append, Server.texts_logged, log]
      cases r.commands <;> exact List.append_nil _
    · rw [Outcome.state_answered, keys]
      exact refused _ _ _ _ hP ⟨commands, transaction⟩
  | @attempted r₀ r' replies found' same undisturbed attempts =>
    obtain rfl := Option.some.inj (found.symm.trans found')
    refine ⟨h.undisturbed.update server undisturbed _, others r', r', _, here r', same, ?_,
      attempted _ _ _ _ _ hP attempts⟩
    rw [Outcome.state_answered, Server.texts_append, Server.texts_logged, log, List.map_append,
      List.append_assoc]

/-- One command is asked. -/
theorem ask {α : Type} {connections : Connections} {ns : Namespace} {c : Connection}
    (route : connections.route ns = .ok c) {command : Command} {read : Reply → Except Fault α}
    {Q : Except Error α → Client → Keyspace → List (String × String) → Prop}
    (h : ∀ client ks set reply ks', P client ks set → Attempt password command ks reply ks' →
      Q ((reply.mapError .refused >>= read).mapError .redis) client ks'
        (set ++ (LogEntry.command command reply).text?.toList)) :
    Leads (OnServer start c.server password P) (Remote.ask connections ns command read)
      fun answer => OnServer start c.server password (Q answer) := by
  unfold Remote.ask
  rw [route, show (Task.ofExcept (.ok c) : Task Connection) = Pure.pure c from rfl, pure_bind,
    ← bind_assoc]
  refine (request (Q := fun answer =>
    Q (answer >>= fun replies => (only replies >>= read).mapError .redis)) ?_ ?_).bind ?_ ?_
  · rintro client ks set text hP ⟨commands, transaction⟩
    cases transaction
  · intro client ks set replies ks' hP attempts
    cases attempts with
    | step first rest =>
      cases rest
      have result := h client ks set _ ks' hP first
      rw [Request.commands, Server.textsOf_one]
      cases first with
      | refused text => exact result
      | executed run => exact result
  · exact fun e site h => h
  · exact fun replies => Leads.orFault fun site h => h

/-! ### Several commands -/

/-- What can become of commands in a row that are sent together or up to the first that fails: some
of the first ones are attempted, and if the call succeeds all are executed. -/
def Tried (password : String) (P : Client → Keyspace → List (String × String) → Prop)
    (commands : List Command) (succeeded : Bool) (client : Client) (last : Keyspace)
    (set : List (String × String)) : Prop :=
  ∃ before ks n replies, P client ks before ∧
    Attempts password (commands.take n) ks replies last ∧
    set = before ++ textsOf (commands.take n) replies ∧
    (succeeded = true → commands.length ≤ n ∧ ∀ reply ∈ replies, ∃ a, reply = .ok a)

/-- What a command leaves that is executed where `P` holds. -/
def After (password : String) (command : Command)
    (P : Client → Keyspace → List (String × String) → Prop) (client : Client) (ks' : Keyspace)
    (set' : List (String × String)) : Prop :=
  ∃ ks set reply, P client ks set ∧ Attempt password command ks (.ok reply) ks' ∧
    set' = set ++ (LogEntry.command command (.ok reply)).text?.toList

/-- Commands after one that was executed. -/
theorem Tried.cons {command : Command} {rest : List Command} {succeeded : Bool} {client : Client}
    {last : Keyspace} {set : List (String × String)}
    (h : Tried password (After password command P) rest succeeded client last set) :
    Tried password P (command :: rest) succeeded client last set := by
  obtain ⟨_, mid, n, replies, ⟨ks, before, reply, hP, first, rfl⟩, others, rfl, all⟩ := h
  refine ⟨before, ks, n + 1, .ok reply :: replies, hP, .step first others, ?_, fun ok => ?_⟩
  · rw [List.take_succ_cons, Server.textsOf_cons, List.append_assoc]
  · obtain ⟨full, executed⟩ := all ok
    refine ⟨Nat.succ_le_succ full, fun r inside => ?_⟩
    rcases List.mem_cons.mp inside with rfl | inside
    · exact ⟨reply, rfl⟩
    · exact executed r inside

theorem executeTogether {commands : List StagedCommand}
    (unchecked : ∀ staged ∈ commands, staged.expected = none) :
    Leads (OnServer start server password P) (Remote.executeTogether server commands)
      fun answer => OnServer start server password fun client ks set =>
        Tried password P (commands.map (·.command)) answer.isOk client ks set ∧
          ∀ stored, answer = .ok stored → stored = expectedTotal commands := by
  unfold Remote.executeTogether
  rw [← bind_assoc]
  refine (request (Q := fun answer client ks set =>
    Tried password P (commands.map (·.command)) answer.isOk client ks set) ?_ ?_).bind ?_ ?_
  · intro client ks set text hP _
    exact ⟨set, ks, 0, [], hP, .done, (List.append_nil _).symm, fun ok => by cases ok⟩
  · intro client ks set replies ks' hP attempts
    refine ⟨set, ks, (commands.map (·.command)).length, replies, hP, ?_, ?_, fun ok => ?_⟩
    · rwa [List.take_length]
    · rw [List.take_length]
      rfl
    · refine ⟨Nat.le_refl _, ?_⟩
      cases gathered : Server.gather replies with
      | ok found => exact Server.gather_ok gathered
      | error fault =>
        rw [gathered] at ok
        cases ok
  · exact fun e site h => h.imp fun client ks set tried => ⟨tried, fun _ ok => by cases ok⟩
  · intro replies
    rw [reportedTotal_unchecked unchecked]
    refine Leads.orFault fun site h => h.imp fun client ks set tried => ⟨tried, fun stored ok => ?_⟩
    exact (Except.ok.inj ok).symm

/-- A command that is sent by itself is executed, or it is the last one that is attempted. -/
theorem single (command : Command) (rest : List Command) :
    Leads (OnServer start server password P)
      (Remote.request server (.single command) >>= Remote.orFault) fun answer =>
        OnServer start server password fun client ks set =>
          (∀ replies, answer = .ok replies →
            (∃ reply, replies = [reply]) ∧ After password command P client ks set) ∧
          ∀ e, answer = .error e → Tried password P (command :: rest) false client ks set := by
  refine request (Q := fun answer client ks set =>
    (∀ replies, answer = .ok replies →
      (∃ reply, replies = [reply]) ∧ After password command P client ks set) ∧
    ∀ e, answer = .error e → Tried password P (command :: rest) false client ks set) ?_ ?_
  · rintro client ks set text hP ⟨commands, transaction⟩
    cases transaction
  · intro client ks set replies ks' hP attempts
    cases attempts with
    | step attempt none =>
      cases none
      rw [Request.commands, Server.textsOf_one]
      cases attempt with
      | refused text =>
        refine ⟨fun _ ok => (by cases ok), fun e _ => ?_⟩
        refine ⟨set, ks, 1, [.error text], hP, .step (.refused text) .done, ?_, fun ok => by
          cases ok⟩
        exact congrArg (set ++ ·) (Server.textsOf_one _ _).symm
      | executed run =>
        refine ⟨fun replies ok => ?_, fun _ failed => (by cases failed)⟩
        obtain rfl := Except.ok.inj ok
        exact ⟨⟨_, rfl⟩, ks, set, _, hP, .executed run, rfl⟩

/-- What follows a command that was executed. -/
theorem countedAfter {staged : StagedCommand} {rest : List StagedCommand}
    (others : Leads (OnServer start server password (After password staged.command P))
      (Remote.executeSingly server rest) fun answer =>
        OnServer start server password fun client ks set =>
          Tried password (After password staged.command P) (rest.map (·.command)) answer.isOk
            client ks set ∧
          ∀ stored, answer = .ok stored → stored = expectedTotal rest) :
    Leads (OnServer start server password (After password staged.command P))
      (do
        let more ← Remote.executeSingly server rest
        return expectedTotal [staged] + more)
      fun answer => OnServer start server password fun client ks set =>
        Tried password P ((staged :: rest).map (·.command)) answer.isOk client ks set ∧
          ∀ stored, answer = .ok stored → stored = expectedTotal (staged :: rest) := by
  refine others.bind ?_ fun more => ?_
  · exact fun e site h => h.imp fun client ks set tried =>
      ⟨tried.1.cons, fun _ ok => by cases ok⟩
  · refine Leads.pure fun site h => h.imp fun client ks set tried =>
      ⟨tried.1.cons, fun stored ok => ?_⟩
    obtain rfl := Except.ok.inj ok
    rw [tried.2 more rfl]
    exact (expectedTotal_append [staged] rest).symm

theorem executeSingly {commands : List StagedCommand}
    (unchecked : ∀ staged ∈ commands, staged.expected = none) :
    Leads (OnServer start server password P) (Remote.executeSingly server commands)
      fun answer => OnServer start server password fun client ks set =>
        Tried password P (commands.map (·.command)) answer.isOk client ks set ∧
          ∀ stored, answer = .ok stored → stored = expectedTotal commands := by
  induction commands generalizing P with
  | nil =>
    refine Leads.pure fun site h => h.imp fun client ks set hP => ⟨?_, fun stored ok => ?_⟩
    · exact ⟨set, ks, 0, [], hP, .done, (List.append_nil _).symm,
        fun _ => ⟨Nat.le_refl _, fun _ inside => by cases inside⟩⟩
    · exact (Except.ok.inj ok).symm
  | cons staged rest ih =>
    have first := unchecked staged List.mem_cons_self
    have counted : ∀ reply, reportedTotal [(staged, reply)] = .ok (expectedTotal [staged]) :=
      fun reply => @reportedTotal_unchecked [staged]
        (fun s hs => List.mem_singleton.mp hs ▸ first) [reply]
    unfold Remote.executeSingly
    rw [← bind_assoc]
    refine (single staged.command (rest.map (·.command))).bind ?_ ?_
    · exact fun e site h => h.imp fun client ks set tried =>
        ⟨tried.2 e rfl, fun _ ok => by cases ok⟩
    · intro replies site h
      obtain ⟨r, set, found, same, log, executed, _⟩ := h.here
      obtain ⟨⟨reply, rfl⟩, after⟩ := executed replies rfl
      have next : (do
          let reply ← orFault (only [reply])
          let added ← orFault (reportedTotal [(staged, reply)])
          return added + (← Remote.executeSingly server rest) : Task Nat) = do
            let more ← Remote.executeSingly server rest
            return expectedTotal [staged] + more := by
        show (do
          let added ← orFault (reportedTotal [(staged, reply)])
          return added + (← Remote.executeSingly server rest) : Task Nat) = _
        rw [counted]
        rfl
      rw [next]
      exact countedAfter (ih fun s hs => unchecked s (List.mem_cons_of_mem _ hs)) site
        ⟨h.undisturbed, h.others, r, set, found, same, log, after⟩

/-- Commands that are not checked are tried over a connection. -/
theorem execute {connections : Connections} {ns : Namespace} {c : Connection}
    (route : connections.route ns = .ok c) {commands : List StagedCommand}
    (unchecked : ∀ staged ∈ commands, staged.expected = none) :
    Leads (OnServer start c.server password P) (Remote.execute connections ns commands)
      fun answer => OnServer start c.server password
        (Tried password P (commands.map (·.command)) answer.isOk) := by
  rw [execute_eq]
  split
  · next empty =>
    obtain rfl := List.isEmpty_iff.mp empty
    refine Leads.pure fun site h => h.imp fun client ks set hP => ?_
    exact ⟨set, ks, 0, [], hP, .done, (List.append_nil _).symm,
      fun _ => ⟨Nat.le_refl _, fun _ inside => by cases inside⟩⟩
  · rw [route, show (Task.ofExcept (.ok c) : Task Connection) = Pure.pure c from rfl, pure_bind]
    have sent : Leads (OnServer start c.server password P) (sendAll c commands) fun answer =>
        OnServer start c.server password fun client ks set =>
          Tried password P (commands.map (·.command)) answer.isOk client ks set ∧
            ∀ stored, answer = .ok stored → stored = expectedTotal commands := by
      unfold sendAll
      split
      · exact executeTogether unchecked
      · exact executeSingly unchecked
    refine sent.bind (fun e site h => h.imp fun client ks set tried => tried.1) fun stored => ?_
    intro site h
    obtain ⟨r, set, found, same, log, tried, total⟩ := h.here
    unfold checkCount
    rw [if_neg fun wrong => wrong (total stored rfl)]
    exact ⟨h.undisturbed, h.others, r, set, found, same, log, tried⟩

end OnServer

/-! ## Talking to no server -/

/-- No server is reached over the connection of a namespace. -/
def Unserved (stage : Stage) (connections : Connections) (ns : Namespace) : Prop :=
  ∀ c, connections.route ns = .ok c → stage.servers[c.server]? = none

theorem served_or_unserved (stage : Stage) (connections : Connections) (ns : Namespace) :
    (∃ c r, connections.route ns = .ok c ∧ stage.servers[c.server]? = some r) ∨
      Unserved stage connections ns := by
  cases route : connections.route ns with
  | error e => exact Or.inr fun c h => by rw [route] at h; cases h
  | ok c =>
    cases found : stage.servers[c.server]? with
    | none => exact Or.inr fun c' h => by rw [route] at h; cases h; exact found
    | some r => exact Or.inl ⟨c, r, rfl, found⟩

/-- What is asked of no server fails and changes nothing. -/
theorem Unserved.ask {α : Type} {site : Site Stage} {connections : Connections} {ns : Namespace}
    (h : Unserved site.world connections ns) (command : Command) (read : Reply → Except Fault α) :
    ∃ e, site.outcome (ask connections ns command read) = .fail e site := by
  unfold Remote.ask
  rw [Site.outcome_bind, Site.outcome_ofExcept]
  cases route : connections.route ns with
  | error e => exact ⟨e, rfl⟩
  | ok c =>
    have served : site.served c.server (.single command) =
        (.error (.io "Connection reset"), site.world) := by
      show site.world.serve c.server (.single command) = _
      unfold Stage.serve
      rw [h c route]
    refine ⟨.redis (.io "Connection reset"), ?_⟩
    rw [Outcome.andThen_eq_of_ok rfl, Site.outcome_bind, Outcome.state_answered,
      Site.outcome_request, served, Outcome.andThen_succeed, Site.outcome_bind,
      Site.outcome_orFault]
    rfl

end Remote

end SeriesStorage
