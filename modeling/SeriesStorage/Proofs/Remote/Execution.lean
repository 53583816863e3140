import SeriesStorage.Proofs.Server.Commands
import SeriesStorage.Proofs.Server.Network

/-!
# Talking to one server

On a network the connection of a namespace leads to a server (`Reaches`), or else whatever is asked
over it fails and changes nothing (`Unreachable`).

* `Reaches.ask`: one command is asked.
* `Reaches.sendAll`, `Reaches.execute`: commands that all succeed are executed, in one transaction
  or one by one.
* `Preserves.execute`: what every command preserves on every server is preserved, also by commands
  that fail.
-/

namespace SeriesStorage

namespace Remote

open Server (Command Keyspace Network Node Reply Request Runs)

/-! ## Execution in parts -/

/-- Sends commands over a connection. -/
def sendAll (connection : Connection) (commands : List StagedCommand) : Task Nat :=
  if connection.transactions then executeTogether connection.server commands
  else executeSingly connection.server commands

/-- Compares what was stored with what should have been. -/
def checkCount (commands : List StagedCommand) (stored : Nat) : Task Unit :=
  if stored ≠ expectedTotal commands then
    throw (.internal (.writeCount (expectedTotal commands) stored))
  else pure ()

theorem execute_eq (connections : Connections) (ns : Namespace) (commands : List StagedCommand) :
    execute connections ns commands =
      if commands.isEmpty then pure ()
      else Task.ofExcept (connections.route ns) >>= fun connection =>
        sendAll connection commands >>= checkCount commands := by
  unfold execute sendAll checkCount
  split
  · rfl
  · congr 1
    funext connection
    split <;> rfl

/-! ## What executing commands preserves -/

namespace Preserves

variable {σ : Type} [World σ] {I : Site σ → Prop}

section Kinds

variable {E : Command → Prop}
  (asked : ∀ server (r : Request), (∀ command ∈ r.commands, E command) →
    Preserves I (request server r))

include asked

/-- Executing commands of a kind preserves what every request with commands of that kind does. -/
theorem execute (connections : Connections) (ns : Namespace) {commands : List StagedCommand}
    (h : ∀ staged ∈ commands, E staged.command) :
    Preserves I (execute connections ns commands) := by
  have singly : ∀ server, Preserves I (executeSingly server commands) := by
    intro server
    induction commands with
    | nil => exact pure 0
    | cons staged rest ih =>
      obtain ⟨first, others⟩ := List.forall_mem_cons.mp h
      exact bind (asked server _ (List.forall_mem_singleton.mpr first)) fun _ =>
        bind (orFault _) fun _ => bind (orFault _) fun _ => bind (orFault _) fun _ =>
          bind (ih others) fun _ => pure _
  have together : ∀ server, Preserves I (executeTogether server commands) := fun server =>
    bind (asked server _ (List.forall_mem_map.mpr h)) fun _ => bind (orFault _) fun _ => orFault _
  rw [execute_eq]
  split
  · exact pure ()
  · refine bind (ofExcept _) fun connection => bind ?_ fun stored => ?_
    · unfold sendAll
      split
      · exact together _
      · exact singly _
    · unfold checkCount
      split
      · exact throw _
      · exact pure ()

theorem executeWrites (connections : Connections) {entries : List (Namespace × List StagedCommand)}
    (h : ∀ entry ∈ entries, ∀ staged ∈ entry.2, E staged.command) :
    Preserves I (executeWrites connections entries) := by
  induction entries with
  | nil => exact pure ()
  | cons entry rest ih =>
    obtain ⟨first, others⟩ := List.forall_mem_cons.mp h
    exact bind (execute asked connections entry.1 first) fun _ => ih others

end Kinds

/-- No request changes what the client keeps. -/
theorem client_request (client : Client) (server : Nat) (r : Request) :
    Preserves (fun site : Site σ => site.client = client) (request server r) := fun _ h => h

end Preserves

/-! ## Counts -/

theorem reportedTotal_cons {staged : StagedCommand} {reply : Reply}
    {rest : List (StagedCommand × Reply)} {n : Nat}
    (h : reportedTotal ((staged, reply) :: rest) = .ok n) :
    ∃ a b, reportedTotal [(staged, reply)] = .ok a ∧ reportedTotal rest = .ok b ∧ n = a + b := by
  cases tail : reportedTotal rest with
  | error e =>
    simp only [reportedTotal, tail, bind, Except.bind] at h
    cases h
  | ok b =>
    cases expected : staged.expected with
    | none =>
      simp only [reportedTotal, tail, expected, bind, Except.bind, pure, Except.pure,
        Except.ok.injEq] at h
      refine ⟨0, b, ?_, rfl, by omega⟩
      simp only [reportedTotal, expected, bind, Except.bind, pure, Except.pure]
    | some k =>
      cases counted : count reply with
      | error e =>
        simp only [reportedTotal, tail, expected, counted, bind, Except.bind] at h
        cases h
      | ok a =>
        simp only [reportedTotal, tail, expected, counted, bind, Except.bind, pure, Except.pure,
          Except.ok.injEq] at h
        refine ⟨a, b, ?_, rfl, by omega⟩
        simp only [reportedTotal, expected, counted, bind, Except.bind, pure, Except.pure,
          Nat.add_zero]

theorem reportedTotal_append {first rest : List (StagedCommand × Reply)} {a b : Nat}
    (hfirst : reportedTotal first = .ok a) (hrest : reportedTotal rest = .ok b) :
    reportedTotal (first ++ rest) = .ok (a + b) := by
  induction first generalizing a with
  | nil =>
    obtain rfl := Except.ok.inj hfirst
    rw [Nat.zero_add]
    exact hrest
  | cons entry first ih =>
    obtain ⟨k, n, one, others, rfl⟩ := reportedTotal_cons hfirst
    have tail := ih others
    rw [List.cons_append, Nat.add_assoc]
    obtain ⟨staged, reply⟩ := entry
    cases expected : staged.expected with
    | none =>
      simp only [reportedTotal, expected, bind, Except.bind, pure, Except.pure,
        Except.ok.injEq] at one
      simp only [reportedTotal, tail, expected, bind, Except.bind, pure, Except.pure]
      rw [← one, Nat.zero_add]
    | some _ =>
      cases counted : count reply with
      | error e =>
        simp only [reportedTotal, expected, counted, bind, Except.bind] at one
        cases one
      | ok c =>
        simp only [reportedTotal, expected, counted, bind, Except.bind, pure, Except.pure,
          Except.ok.injEq, Nat.add_zero] at one
        simp only [reportedTotal, tail, expected, counted, bind, Except.bind, pure, Except.pure]
        rw [one]

theorem expectedTotal_append (first rest : List StagedCommand) :
    expectedTotal (first ++ rest) = expectedTotal first + expectedTotal rest := by
  induction first with
  | nil => simp [expectedTotal]
  | cons staged first ih => simp only [List.cons_append, expectedTotal, ih, Nat.add_assoc]

/-- Commands whose counts nobody expects report nothing. -/
theorem reportedTotal_unchecked {commands : List StagedCommand}
    (unchecked : ∀ staged ∈ commands, staged.expected = none) (replies : List Reply) :
    reportedTotal (commands.zip replies) = .ok (expectedTotal commands) := by
  induction commands generalizing replies with
  | nil => rfl
  | cons staged rest ih =>
    have first := unchecked staged List.mem_cons_self
    have others := fun s hs => unchecked s (List.mem_cons_of_mem _ hs)
    have none_expected : expectedTotal (staged :: rest) = expectedTotal rest := by
      simp [expectedTotal, first]
    rw [none_expected]
    cases replies with
    | nil =>
      have := @ih others []
      rwa [List.zip_nil_right] at this ⊢
    | cons reply replies =>
      rw [List.zip_cons_cons]
      simp only [reportedTotal, ih others, first, bind, Except.bind, pure, Except.pure]

/-- Commands whose counts nobody expects, where the connection takes transactions. -/
theorem execute_together {connections : Connections} {ns : Namespace} {c : Connection}
    (route : connections.route ns = .ok c) (transactions : c.transactions = true)
    {commands : List StagedCommand} (some : commands ≠ [])
    (unchecked : ∀ staged ∈ commands, staged.expected = none) :
    execute connections ns commands =
      request c.server (.transaction (commands.map (·.command))) >>= orFault >>=
        fun _ => pure () := by
  have full : ¬ commands.isEmpty = true := fun empty => some (List.isEmpty_iff.mp empty)
  have passed : checkCount commands (expectedTotal commands) = pure () := by
    unfold checkCount
    rw [if_neg (by simp)]
  have counted : ∀ n : Nat, (orFault (.ok n) : Task Nat) = pure n := fun _ => rfl
  rw [execute_eq, if_neg full, route]
  show sendAll c commands >>= checkCount commands = _
  unfold sendAll executeTogether
  simp only [transactions, if_true, bind_assoc, reportedTotal_unchecked unchecked, counted,
    pure_bind, passed]

/-! ## The server of a namespace -/

/-- The connection of a namespace leads to a server. -/
structure Reaches (site : Site Network) (connections : Connections) (ns : Namespace)
    (c : Connection) (node : Node) : Prop where
  route : connections.route ns = .ok c
  node : site.world.nodes[c.server]? = some node

/-- The connection of a namespace, if there is one, leads nowhere. -/
def Unreachable (site : Site Network) (connections : Connections) (ns : Namespace) : Prop :=
  ∀ c, connections.route ns = .ok c → site.world.nodes[c.server]? = none

theorem reaches_or_unreachable (site : Site Network) (connections : Connections) (ns : Namespace) :
    (∃ c node, Reaches site connections ns c node) ∨ Unreachable site connections ns := by
  cases route : connections.route ns with
  | error e => exact Or.inr fun c h => by rw [route] at h; cases h
  | ok c =>
    cases node : site.world.nodes[c.server]? with
    | none => exact Or.inr fun c' h => by rw [route] at h; cases h; exact node
    | some found => exact Or.inl ⟨c, found, route, node⟩

/-- Changes the keys of a server. -/
def Site.setKeys (site : Site Network) (server : Nat) (ks : Keyspace) : Site Network :=
  { site with world := site.world.setKeys server ks }

namespace Site

@[simp] theorem client_setKeys (site : Site Network) (server : Nat) (ks : Keyspace) :
    (site.setKeys server ks).client = site.client := rfl

theorem nodes_setKeys (site : Site Network) (server i : Nat) (ks : Keyspace) :
    (site.setKeys server ks).world.nodes[i]? =
      if server = i then site.world.nodes[i]?.map fun node => { node with keyspace := ks }
      else site.world.nodes[i]? :=
  site.world.getElem?_setKeys server i ks

@[simp] theorem setKeys_setKeys (site : Site Network) (server : Nat) (ks ks' : Keyspace) :
    (site.setKeys server ks).setKeys server ks' = site.setKeys server ks' := by
  have nodes : ((site.setKeys server ks).setKeys server ks').world.nodes =
      (site.setKeys server ks').world.nodes := List.modify_modify_eq _ _ _ _
  exact congrArg (fun nodes => (⟨site.client, ⟨nodes, site.world.listeners⟩⟩ : Site Network)) nodes

end Site

namespace Reaches

variable {site : Site Network} {connections : Connections} {ns : Namespace} {c : Connection}
  {node : Node}

theorem setKeys (h : Reaches site connections ns c node) (ks : Keyspace) :
    Reaches (site.setKeys c.server ks) connections ns c { node with keyspace := ks } where
  route := h.route
  node := by rw [Site.nodes_setKeys, if_pos rfl, h.node]; rfl

theorem setKeys_self (h : Reaches site connections ns c node) :
    site.setKeys c.server node.keyspace = site := by
  have nodes : (site.setKeys c.server node.keyspace).world.nodes = site.world.nodes := by
    apply List.ext_getElem?
    intro i
    rw [Site.nodes_setKeys]
    split
    · next heq =>
      subst heq
      rw [h.node]
      rfl
    · rfl
  exact congrArg (fun nodes => (⟨site.client, ⟨nodes, site.world.listeners⟩⟩ : Site Network)) nodes

theorem served (h : Reaches site connections ns c node) (r : Request) :
    site.served c.server r = ((r.exec node.password node.keyspace).1,
      (site.setKeys c.server (r.exec node.password node.keyspace).2).world) := by
  show site.world.serve c.server r = _
  unfold Network.serve
  rw [h.node]
  rfl

theorem request (h : Reaches site connections ns c node) (r : Request) :
    site.outcome (request c.server r) = .succeed (r.exec node.password node.keyspace).1
      (site.setKeys c.server (r.exec node.password node.keyspace).2) := by
  rw [Site.outcome_request, h.served]
  rfl

/-- One command is asked. -/
theorem ask {α : Type} (h : Reaches site connections ns c node) (command : Command)
    (read : Reply → Except Fault α) {reply : Reply} {ks : Keyspace}
    (run : Server.exec node.password command node.keyspace = (.ok reply, ks)) :
    site.outcome (ask connections ns command read) =
      .answered ((read reply).mapError .redis) (site.setKeys c.server ks) := by
  have single : (Request.single command).exec node.password node.keyspace = (.ok [reply], ks) :=
    (Runs.step run .done).exec_request rfl
  unfold Remote.ask
  rw [Site.outcome_bind, Site.outcome_ofExcept, h.route, Outcome.andThen_eq_of_ok rfl,
    Site.outcome_bind, Outcome.state_answered, h.request, single, Outcome.andThen_succeed,
    Site.outcome_bind, Site.outcome_orFault]
  show (Outcome.answered (.ok [reply]) _).andThen _ = _
  rw [Outcome.andThen_eq_of_ok rfl, Site.outcome_orFault]
  rfl

/-- One command is asked, and refused. -/
theorem ask_refused {α : Type} (h : Reaches site connections ns c node) (command : Command)
    (read : Reply → Except Fault α) {text : String} {ks : Keyspace}
    (run : Server.exec node.password command node.keyspace = (.error text, ks)) :
    site.outcome (Remote.ask connections ns command read) =
      .fail (.redis (.refused text)) (site.setKeys c.server ks) := by
  have single : (Request.single command).exec node.password node.keyspace =
      (.error (.refused text), ks) := by
    simp only [Request.exec, Request.commands, Server.execAll, run, Server.gather]
  unfold Remote.ask
  rw [Site.outcome_bind, Site.outcome_ofExcept, h.route, Outcome.andThen_eq_of_ok rfl,
    Site.outcome_bind, Outcome.state_answered, h.request, single, Outcome.andThen_succeed,
    Site.outcome_bind, Site.outcome_orFault]
  rfl

/-! ### Several commands -/

theorem executeSingly (h : Reaches site connections ns c node) {commands : List StagedCommand}
    {replies : List Reply} {last : Keyspace} {n : Nat}
    (runs : Runs node.password (commands.map (·.command)) node.keyspace replies last)
    (total : reportedTotal (commands.zip replies) = .ok n) :
    site.outcome (executeSingly c.server commands) =
      .succeed n (site.setKeys c.server last) := by
  induction commands generalizing site node replies n with
  | nil =>
    cases runs with
    | done =>
      rw [h.setKeys_self]
      obtain rfl := Except.ok.inj total
      rfl
  | cons staged rest ih =>
    cases runs with
    | @step _ _ _ ks _ reply replies run runs =>
      rw [List.zip_cons_cons] at total
      obtain ⟨a, b, first, others, rfl⟩ := reportedTotal_cons total
      have single : (Request.single staged.command).exec node.password node.keyspace =
          (.ok [reply], ks) := (Runs.step run .done).exec_request rfl
      have tail := ih (h.setKeys ks) runs others
      rw [Site.setKeys_setKeys] at tail
      unfold Remote.executeSingly
      rw [Site.outcome_bind, h.request, single, Outcome.andThen_succeed, Site.outcome_bind,
        Site.outcome_orFault]
      show (Outcome.succeed [reply] (site.setKeys c.server ks)).andThen _ = _
      rw [Outcome.andThen_succeed, Site.outcome_bind, Site.outcome_orFault]
      show (Outcome.succeed reply (site.setKeys c.server ks)).andThen _ = _
      rw [Outcome.andThen_succeed, Site.outcome_bind, Site.outcome_orFault, first]
      show (Outcome.succeed a (site.setKeys c.server ks)).andThen _ = _
      rw [Outcome.andThen_succeed, Site.outcome_bind, tail]
      rfl

/-- Commands that all succeed are executed, and what they report is added up. -/
theorem sendAll (h : Reaches site connections ns c node) {commands : List StagedCommand}
    {replies : List Reply} {last : Keyspace} {n : Nat}
    (runs : Runs node.password (commands.map (·.command)) node.keyspace replies last)
    (total : reportedTotal (commands.zip replies) = .ok n) :
    site.outcome (sendAll c commands) = .succeed n (site.setKeys c.server last) := by
  unfold Remote.sendAll
  split
  · unfold executeTogether
    rw [Site.outcome_bind, h.request, runs.exec_request rfl, Outcome.andThen_succeed,
      Site.outcome_bind, Site.outcome_orFault]
    show (Outcome.succeed replies _).andThen _ = _
    rw [Outcome.andThen_succeed, Site.outcome_orFault, total]
    rfl
  · exact h.executeSingly runs total

/-- Commands that all succeed; what they report is compared with what is expected. -/
theorem execute_counted (h : Reaches site connections ns c node) {commands : List StagedCommand}
    {replies : List Reply} {last : Keyspace} {n : Nat}
    (runs : Runs node.password (commands.map (·.command)) node.keyspace replies last)
    (total : reportedTotal (commands.zip replies) = .ok n) :
    site.outcome (Remote.execute connections ns commands) =
      (site.setKeys c.server last).outcome (checkCount commands n) := by
  rw [execute_eq]
  split
  · next empty =>
    obtain rfl := List.isEmpty_iff.mp empty
    cases runs
    obtain rfl := Except.ok.inj total
    rw [h.setKeys_self]
    rfl
  · rw [Site.outcome_bind, Site.outcome_ofExcept, h.route]
    show (Outcome.succeed c site).andThen _ = _
    rw [Outcome.andThen_succeed, Site.outcome_bind, h.sendAll runs total, Outcome.andThen_succeed]

/-- Commands that all succeed, with the counts that are expected. -/
theorem execute (h : Reaches site connections ns c node) {commands : List StagedCommand}
    {replies : List Reply} {last : Keyspace}
    (runs : Runs node.password (commands.map (·.command)) node.keyspace replies last)
    (total : reportedTotal (commands.zip replies) = .ok (expectedTotal commands)) :
    site.outcome (Remote.execute connections ns commands) =
      .succeed () (site.setKeys c.server last) := by
  rw [h.execute_counted runs total]
  unfold checkCount
  rw [if_neg (by simp)]
  rfl

/-- Commands that all succeed, and whose counts nobody expects. -/
theorem execute_unchecked (h : Reaches site connections ns c node) {commands : List StagedCommand}
    {replies : List Reply} {last : Keyspace}
    (runs : Runs node.password (commands.map (·.command)) node.keyspace replies last)
    (unchecked : ∀ staged ∈ commands, staged.expected = none) :
    site.outcome (Remote.execute connections ns commands) =
      .succeed () (site.setKeys c.server last) :=
  h.execute runs (reportedTotal_unchecked unchecked replies)

end Reaches

/-- A request that may change no key leaves the whole site as it is. -/
theorem Preserves.unchanged (site : Site Network) (server : Nat) (r : Request)
    (h : ∀ command ∈ r.commands, ∀ key, ¬ command.Changes key) :
    Preserves (fun s => s = site) (Remote.request server r) := by
  intro s same
  subst same
  rw [Site.outcome_request]
  cases found : s.world.nodes[server]? with
  | none =>
    show (⟨s.client, (s.world.serve server r).2⟩ : Site Network) = s
    unfold Network.serve
    rw [found]
  | some node =>
    have reaches : Reaches s [(defaultNamespace, ⟨server, true⟩)] defaultNamespace ⟨server, true⟩
      node := ⟨rfl, found⟩
    have kept : (r.exec node.password node.keyspace).2 = node.keyspace :=
      Server.execAll_unchanged node.password node.keyspace h
    show (⟨s.client, (s.served server r).2⟩ : Site Network) = s
    rw [reaches.served, kept]
    exact reaches.setKeys_self

theorem Preserves.unchanged_single (site : Site Network) (server : Nat) {command : Command}
    (keyless : ∀ key, ¬ command.Changes key) :
    Preserves (fun s => s = site) (Remote.request server (.single command)) :=
  unchanged site server (.single command) (List.forall_mem_singleton.mpr keyless)

/-- A request to a server that is not there fails and changes nothing. -/
theorem Site.outcome_request_absent {site : Site Network} {server : Nat}
    (absent : site.world.nodes[server]? = none) (r : Request) :
    site.outcome (request server r) = .succeed (.error (.io "Connection reset")) site := by
  have served : site.served server r = (.error (.io "Connection reset"), site.world) := by
    show site.world.serve server r = _
    unfold Network.serve
    rw [absent]
  rw [Site.outcome_request, served]

/-- What is asked over a connection that leads nowhere fails and changes nothing. -/
theorem Unreachable.ask {α : Type} {site : Site Network} {connections : Connections}
    {ns : Namespace} (h : Unreachable site connections ns) (command : Command)
    (read : Reply → Except Fault α) :
    ∃ e, site.outcome (ask connections ns command read) = .fail e site ∧
      (e = .unavailable (.noConnection ns) ∨ e = .redis (.io "Connection reset")) := by
  unfold Remote.ask
  rw [Site.outcome_bind, Site.outcome_ofExcept]
  cases route : connections.route ns with
  | error e =>
    refine ⟨e, rfl, Or.inl ?_⟩
    unfold Connections.route at route
    split at route
    · cases route
    · split at route
      · cases route
      · exact (Except.error.inj route).symm
  | ok c =>
    refine ⟨_, ?_, Or.inr rfl⟩
    rw [Outcome.andThen_eq_of_ok rfl, Site.outcome_bind, Outcome.state_answered,
      Site.outcome_request_absent (h c route), Outcome.andThen_succeed, Site.outcome_bind,
      Site.outcome_orFault]
    rfl

end Remote

end SeriesStorage
