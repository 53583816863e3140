import Mathlib.Data.Set.Card
import SeriesStorage.Proofs.Remote.Ledger
import SeriesStorage.Proofs.Remote.Sent

/-!
# Delivery of staged writes

A write under a request id sends nothing that changes points; what it staged is sent by the next
flush of the request, namespace by namespace.  A flush that no command fails sends what the ledger
says for some of the namespaces, completely, in order and once, and for the others nothing
(`Progress`): it goes on to the next namespace only if the servers counted as many new points as
there should be.  So all that was staged is delivered (`Delivers`) unless a wrong count stops the
flush before another namespace for which something waits (`visits_delivery`).
-/

namespace SeriesStorage

namespace Remote

open Server (Command Stage commandsIn)

/-! ## What executing commands sends -/

/-- A command was refused, or a reply could not be read. -/
def Refused {σ α : Type} (outcome : Outcome σ α) : Prop :=
  ∃ fault, outcome.answer = .error (.redis fault)

/-- Wherever a task is performed, it sends these commands and succeeds, unless one is refused. -/
def Sends {α : Type} (task : Task α) (commands : List (Nat × Command)) : Prop :=
  ∀ site : Site Stage, Refused (site.outcome task) ∨
    (∃ a, (site.outcome task).answer = .ok a) ∧ commandsIn (site.sent task) = commands

namespace Sends

variable {α β : Type}

theorem pure (a : α) : Sends (Pure.pure a : Task α) [] := fun site =>
  Or.inr ⟨⟨a, rfl⟩, by rw [Site.sent_eq_nil rfl]; rfl⟩

theorem orFault (result : Except Fault α) : Sends (Remote.orFault result) [] := by
  intro site
  cases result with
  | error fault => exact Or.inl ⟨fault, rfl⟩
  | ok a => exact pure a site

theorem bind {task : Task α} {f : α → Task β} {first rest : List (Nat × Command)}
    (h : Sends task first) (hf : ∀ a, Sends (f a) rest) : Sends (task >>= f) (first ++ rest) := by
  intro site
  obtain ⟨fault, refused⟩ | ⟨⟨a, ok⟩, sent⟩ := h site
  · refine Or.inl ⟨fault, ?_⟩
    rw [Site.outcome_bind, Outcome.andThen_eq_of_error refused]
    rfl
  · rw [Refused, Site.outcome_bind, Outcome.andThen_eq_of_ok ok, Site.sent_bind_ok ok,
      Server.commandsIn_append, sent]
    exact (hf a _).imp_right fun ⟨ok, sent⟩ => ⟨ok, congrArg (first ++ ·) sent⟩

/-- A request that is not refused is sent as a whole. -/
theorem request (server : Nat) (r : Server.Request) :
    Sends (Remote.request server r >>= Remote.orFault) (r.commands.map (server, ·)) := by
  intro site
  cases served : (site.served server r).1 with
  | error fault =>
    refine Or.inl ⟨fault, ?_⟩
    rw [Site.outcome_bind, Site.outcome_request, served]
    rfl
  | ok replies =>
    have asked : (site.outcome (Remote.request server r)).answer = .ok (.ok replies) := by
      rw [Site.outcome_request, served]
      rfl
    obtain ⟨entries, grown, _, all⟩ := site.world.serve_log server r
    have sent : site.sent (Remote.request server r) = entries := Site.sent_eq grown
    refine Or.inr ⟨⟨replies, ?_⟩, ?_⟩
    · rw [Site.outcome_bind, Outcome.andThen_eq_of_ok asked]
      rfl
    · rw [Site.sent_bind_ok asked, sent, Site.sent_eq_nil rfl, List.append_nil]
      exact all replies served

theorem executeTogether (server : Nat) (commands : List StagedCommand) :
    Sends (Remote.executeTogether server commands)
      (commands.map fun staged => (server, staged.command)) := by
  unfold Remote.executeTogether
  rw [← bind_assoc]
  have sent := (request server (.transaction (commands.map (·.command)))).bind
    fun replies => orFault (reportedTotal (commands.zip replies))
  rwa [List.append_nil, Server.Request.commands, List.map_map] at sent

theorem executeSingly (server : Nat) (commands : List StagedCommand) :
    Sends (Remote.executeSingly server commands)
      (commands.map fun staged => (server, staged.command)) := by
  induction commands with
  | nil => exact pure 0
  | cons staged rest ih =>
    unfold Remote.executeSingly
    rw [← bind_assoc]
    refine (request server (.single staged.command)).bind fun replies => ?_
    rw [← List.nil_append (rest.map _)]
    refine (orFault (only replies)).bind fun reply => ?_
    rw [← List.nil_append (rest.map _)]
    refine (orFault _).bind fun added => ?_
    rw [← List.append_nil (rest.map _)]
    exact ih.bind fun more => pure _

end Sends

/-- Commands with the server that a namespace is connected to. -/
def Connections.addressed (connections : Connections) (ns : Namespace)
    (commands : List StagedCommand) : List (Nat × Command) :=
  match connections.route ns with
  | .ok c => commands.map fun staged => (c.server, staged.command)
  | .error _ => []

/-- The servers did not count as many new points as commands should have stored. -/
def Miscounted {σ α : Type} (commands : List StagedCommand) (outcome : Outcome σ α) : Prop :=
  ∃ stored, stored ≠ expectedTotal commands ∧
    outcome.answer = .error (.internal (.writeCount (expectedTotal commands) stored))

section Sending

variable {site : Site Stage} {connections : Connections}

/-- Commands are all sent, unless one is refused; the count may be wrong nevertheless. -/
theorem sent_execute {ns : Namespace} {c : Connection} (route : connections.route ns = .ok c)
    (commands : List StagedCommand) :
    Refused (site.outcome (execute connections ns commands)) ∨
      commandsIn (site.sent (execute connections ns commands)) =
          connections.addressed ns commands ∧
        ((site.outcome (execute connections ns commands)).answer = .ok () ∨
          Miscounted commands (site.outcome (execute connections ns commands))) := by
  have addressed : connections.addressed ns commands =
      commands.map fun staged => (c.server, staged.command) := by
    unfold Connections.addressed
    rw [route]
  rw [execute_eq, addressed]
  split
  · next empty =>
    obtain rfl := List.isEmpty_iff.mp empty
    refine Or.inr ⟨?_, Or.inl rfl⟩
    rw [Site.sent_eq_nil rfl]
    rfl
  · have sends : Sends (sendAll c commands)
        (commands.map fun staged => (c.server, staged.command)) := by
      unfold sendAll
      split
      · exact .executeTogether _ _
      · exact .executeSingly _ _
    have routed : site.outcome (Task.ofExcept (connections.route ns)) = .succeed c site := by
      rw [Site.outcome_ofExcept, route]
      rfl
    have answered : (site.outcome (Task.ofExcept (connections.route ns))).answer = .ok c := by
      rw [routed]
      rfl
    rw [Refused, Miscounted, Site.outcome_bind, routed, Outcome.andThen_succeed,
      Site.sent_bind_ok answered, routed, Site.sent_eq_nil (by rw [routed]; rfl), List.nil_append,
      Site.outcome_bind]
    obtain ⟨fault, refused⟩ | ⟨⟨stored, ok⟩, sent⟩ := sends site
    · refine Or.inl ⟨fault, ?_⟩
      rw [Outcome.andThen_eq_of_error refused]
      rfl
    · right
      rw [Outcome.andThen_eq_of_ok ok, Outcome.state_succeed, Site.sent_bind_ok ok,
        Server.commandsIn_append, sent]
      unfold checkCount
      split
      · next wrong =>
        refine ⟨?_, Or.inr ⟨stored, wrong, rfl⟩⟩
        rw [Site.sent_eq_nil rfl]
        exact List.append_nil _
      · refine ⟨?_, Or.inl rfl⟩
        rw [Site.sent_eq_nil rfl]
        exact List.append_nil _

/-- Of the commands for several namespaces some are sent, all up to those of one namespace for which
the count was wrong; unless a command is refused. -/
theorem sent_executeWrites {entries : List (Namespace × List StagedCommand)}
    (routed : ∀ entry ∈ entries, ∃ c, connections.route entry.1 = .ok c) :
    Refused (site.outcome (executeWrites connections entries)) ∨
      ∃ sent left, entries = sent ++ left ∧
        commandsIn (site.sent (executeWrites connections entries)) =
          sent.flatMap (fun entry => connections.addressed entry.1 entry.2) ∧
        ((site.outcome (executeWrites connections entries)).answer = .ok () ∧ left = [] ∨
          ∃ earlier last, sent = earlier ++ [last] ∧
            Miscounted last.2 (site.outcome (executeWrites connections entries))) := by
  induction entries generalizing site with
  | nil =>
    refine Or.inr ⟨[], [], rfl, ?_, Or.inl ⟨rfl, rfl⟩⟩
    rw [Site.sent_eq_nil rfl]
    rfl
  | cons entry rest ih =>
    obtain ⟨ns, commands⟩ := entry
    obtain ⟨c, route⟩ := routed _ List.mem_cons_self
    rw [Refused, outcome_executeWrites_cons]
    obtain ⟨fault, refused⟩ | ⟨sent, ok | ⟨stored, wrong, miscounted⟩⟩ :=
      @sent_execute site _ _ _ route commands
    · refine Or.inl ⟨fault, ?_⟩
      rw [Outcome.andThen_eq_of_error refused]
      rfl
    · have both : site.sent (executeWrites connections ((ns, commands) :: rest)) =
          site.sent (execute connections ns commands) ++
            (site.outcome (execute connections ns commands)).state.sent
              (executeWrites connections rest) := Site.sent_bind_ok ok _
      rw [Outcome.andThen_eq_of_ok ok, both, Server.commandsIn_append, sent]
      refine (ih fun e he => routed e (List.mem_cons_of_mem _ he)).imp_right ?_
      rintro ⟨more, left, rfl, sent', ended⟩
      refine ⟨(ns, commands) :: more, left, rfl, ?_, ?_⟩
      · rw [sent']
        rfl
      · refine ended.imp_right ?_
        rintro ⟨earlier, last, rfl, miscounted⟩
        exact ⟨(ns, commands) :: earlier, last, rfl, miscounted⟩
    · have only : site.sent (executeWrites connections ((ns, commands) :: rest)) =
          site.sent (execute connections ns commands) := Site.sent_bind_error miscounted _
      refine Or.inr ⟨[(ns, commands)], rest, rfl, ?_, Or.inr ⟨[], (ns, commands), rfl, ?_⟩⟩
      · rw [only, sent]
        exact (List.append_nil _).symm
      · refine ⟨stored, wrong, ?_⟩
        rw [Outcome.andThen_eq_of_error miscounted]
        rfl

end Sending

/-! ## What a flush delivers -/

/-- A flush sends all that is staged under its request: for each namespace its commands, in the order
of their staging and each one once, and nothing else. -/
def Delivers (site : Site Stage) (ledger : Ledger) (req : RequestId) : Prop :=
  ∃ (connections : Connections) (order : List Namespace),
    site.client.connections = some connections ∧ order.Nodup ∧ (∀ ns, ns ∈ order ↔ ledger.HasBatch req ns) ∧
    commandsIn (site.sent (flush req)) =
      order.flatMap fun ns => connections.addressed ns (ledger.staged req ns)

/-- What a flush does that no command fails, with the namespaces whose commands were `sent`, and
those that were `left`. -/
structure Progress (site : Site Stage) (ledger : Ledger) (req : RequestId)
    (connections : Connections) (sent left : List Namespace) : Prop where
  connected : site.client.connections = some connections
  nodup : (sent ++ left).Nodup
  namespaces : ∀ ns, ns ∈ sent ++ left ↔ ledger.HasBatch req ns
  routed : ∀ ns ∈ sent ++ left, ∃ c, connections.route ns = .ok c
  commands : commandsIn (site.sent (flush req)) =
    sent.flatMap fun ns => connections.addressed ns (ledger.staged req ns)
  ended : (site.outcome (flush req)).answer = .ok () ∧ left = [] ∨
    ∃ earlier last, sent = earlier ++ [last] ∧
      Miscounted (ledger.staged req last) (site.outcome (flush req))

/-- The entries of a buffer are what the ledger says for their namespaces. -/
theorem Tallies.entry {pending : Pending} {ledger : Ledger} (h : Tallies pending ledger)
    {req : RequestId} {writes : StagedWrites} (found : pending.writes? req = some writes)
    {entry : Namespace × List StagedCommand} (inside : entry ∈ writes.entries) :
    entry.2 = ledger.staged req entry.1 := by
  have here := Table.get?_of_mem (h.namespaces req writes found) inside
  rw [← h.commands, Pending.commands]
  change pending.requests.get? req = some writes at found
  rw [found, Option.getD_some, here, Option.getD_some]

namespace Tallied

variable {site : Site Stage} {ledger : Ledger} {req : RequestId}

theorem flush_progress (h : Tallied site ledger) (staged : ledger.HasRequest req) :
    Refused (site.outcome (Remote.flush req)) ∨
      ∃ connections sent left, Progress site ledger req connections sent left := by
  cases found : site.client.pending.writes? req with
  | none => exact absurd staged ((h.pending.unstaged req).mp found)
  | some writes =>
    obtain ⟨batch, inside, _⟩ := id staged
    obtain ⟨connections, _, own, _⟩ := h.routed batch inside
    have keys : ∀ ns, ns ∈ writes.keys ↔ ledger.HasBatch req ns := fun ns => by
      rw [Table.mem_keys_iff, h.pending.batches req writes found ns]
    have routed : ∀ ns ∈ writes.keys, ∃ c, connections.route ns = .ok c := by
      intro ns hns
      obtain ⟨batch, inside, _, rfl⟩ := (keys ns).mp hns
      obtain ⟨connections', c, own', route⟩ := h.routed batch inside
      obtain rfl := Option.some.inj (own'.symm.trans own)
      exact ⟨c, route⟩
    -- the request is forgotten first, and that sends nothing
    let start : Site Stage :=
      ⟨{ site.client with pending := site.client.pending.remove req }, site.world⟩
    have outcome : site.outcome (Remote.flush req) =
        start.outcome (executeWrites connections writes.entries) := by
      have own' : start.client.connections = some connections := own
      rw [outcome_flush found, Site.outcome_bind, Site.outcome_connected own',
        Outcome.andThen_succeed]
    have sent : site.sent (Remote.flush req) =
        start.sent (executeWrites connections writes.entries) := by
      unfold Site.sent
      rw [outcome]
    rw [Refused, outcome]
    refine (sent_executeWrites fun entry hentry =>
      routed entry.1 (List.mem_map_of_mem hentry)).imp_right ?_
    rintro ⟨done, left, split, commands, ended⟩
    have parts : writes.keys = done.map (·.1) ++ left.map (·.1) := by
      unfold Table.keys
      rw [split, List.map_append]
    have content : ∀ entry ∈ done, entry.2 = ledger.staged req entry.1 := fun entry hentry =>
      h.pending.entry found (by rw [split]; exact List.mem_append_left _ hentry)
    refine ⟨connections, done.map (·.1), left.map (·.1), own, ?_, ?_, ?_, ?_, ?_⟩
    · rw [← parts]
      exact h.pending.namespaces req writes found
    · rw [← parts]
      exact keys
    · rw [← parts]
      exact routed
    · rw [sent, commands, List.flatMap_map]
      exact List.flatMap_congr fun entry hentry => by rw [content entry hentry]
    · rw [outcome]
      refine ended.imp (fun ⟨ok, none_left⟩ => ⟨ok, by rw [none_left]; rfl⟩) ?_
      rintro ⟨earlier, last, rfl, miscounted⟩
      refine ⟨earlier.map (·.1), last.1, by rw [List.map_append]; rfl, ?_⟩
      rwa [← content last (List.mem_append_right _ List.mem_cons_self)]

end Tallied

/-- All is delivered if nothing waits for the namespaces that were left. -/
theorem Progress.delivers_iff {site : Site Stage} {ledger : Ledger} {req : RequestId}
    {connections : Connections} {sent left : List Namespace}
    (h : Progress site ledger req connections sent left) :
    Delivers site ledger req ↔ ∀ ns ∈ left, ledger.staged req ns = [] := by
  have none_iff : ∀ ns ∈ left, connections.addressed ns (ledger.staged req ns) = [] ↔
      ledger.staged req ns = [] := by
    intro ns hns
    obtain ⟨c, route⟩ := h.routed ns (List.mem_append_right _ hns)
    unfold Connections.addressed
    rw [route]
    exact List.map_eq_nil_iff
  constructor
  · rintro ⟨connections', order, own, nodup, namespaces, delivered⟩ ns hns
    obtain rfl := Option.some.inj (h.connected.symm.trans own)
    -- the namespaces are the same in both orders, so what is left adds nothing
    have same : order.Perm (sent ++ left) :=
      (List.perm_ext_iff_of_nodup nodup h.nodup).mpr fun ns =>
        (namespaces ns).trans (h.namespaces ns).symm
    have lengths := (same.flatMap_right
      (fun ns => connections.addressed ns (ledger.staged req ns))).length_eq
    rw [← delivered, h.commands, List.flatMap_append, List.length_append] at lengths
    have nothing : left.flatMap (fun ns => connections.addressed ns (ledger.staged req ns)) = [] :=
      List.eq_nil_of_length_eq_zero (by omega)
    exact (none_iff ns hns).mp (List.flatMap_eq_nil_iff.mp nothing ns hns)
  · intro nothing
    have silent : left.flatMap (fun ns => connections.addressed ns (ledger.staged req ns)) = [] :=
      List.flatMap_eq_nil_iff.mpr fun ns hns => (none_iff ns hns).mpr (nothing ns hns)
    refine ⟨connections, sent ++ left, h.connected, h.nodup, h.namespaces, ?_⟩
    rw [h.commands, List.flatMap_append, silent, List.append_nil]

/-! ## Which flushes have something to send -/

namespace Tallied

variable {site : Site Stage} {ledger : Ledger}

theorem nothingToFlush_iff (h : Tallied site ledger) (req : RequestId) :
    (site.outcome (Remote.flush req)).answer = .error (.nothingToFlush req) ↔
      ¬ ledger.HasRequest req := by
  constructor
  · intro nothing staged
    obtain ⟨fault, refused⟩ | ⟨connections, sent, left, progress⟩ := h.flush_progress staged
    · rw [nothing] at refused
      cases refused
    · obtain ⟨ok, _⟩ | ⟨_, _, _, _, _, miscounted⟩ := progress.ended
      · rw [nothing] at ok
        cases ok
      · rw [nothing] at miscounted
        cases miscounted
  · intro unstaged
    rw [outcome_flush_unstaged ((h.pending.unstaged req).mpr unstaged)]
    rfl

theorem requestCount_eq (h : Tallied site ledger) :
    site.client.pending.requestCount =
      Set.ncard {req | (site.outcome (Remote.flush req)).answer ≠ .error (.nothingToFlush req)} := by
  have same : {req | (site.outcome (Remote.flush req)).answer ≠ .error (.nothingToFlush req)} =
      (site.client.pending.requests.keys.toFinset : Set RequestId) := by
    ext req
    rw [Set.mem_ofPred_eq, Ne, h.nothingToFlush_iff, ← h.pending.unstaged, List.coe_toFinset,
      Set.mem_ofPred_eq, Table.mem_keys_iff, ← Ne, Option.ne_none_iff_exists']
    rfl
  rw [same, Set.ncard_coe_finset, List.toFinset_card_of_nodup h.pending.requests]
  exact (List.length_map _).symm

end Tallied

/-- A write under a request id sends nothing that changes points, whether it succeeds or not. -/
theorem sent_write_under {req : RequestId} (waits : req.isEmpty = false) (site : Site Stage)
    (now : UInt64) (ref : SeriesRef) (draws : Draws) (times : List UInt64)
    (values : List Binary64) :
    ∀ c ∈ commandsIn (site.sent (write now ref req draws times values)), ¬ c.2.OnData := by
  have asked : ∀ server (r : Server.Request), (∀ command ∈ r.commands, ¬ command.OnData) →
      Preserves (SentOnly (fun command => ¬ command.OnData) site.world.log) (request server r) :=
    fun server r h => Preserves.request_sending server r h
  have written : Preserves (SentOnly (fun command => ¬ command.OnData) site.world.log)
      (write now ref req draws times values) := by
    refine Preserves.guarded (P := fun _ => True) asked (fun _ _ _ _ => trivial)
      (fun connections ref _ => Preserves.cachedMetadata (Preserves.keyless asked)
        (fun _ _ sent => sent) connections ref)
      (fun _ _ sent => sent) now ref fun m => ?_
    refine Preserves.bind Preserves.connected fun connections =>
      Preserves.bind (Preserves.ofExcept _) fun commands => ?_
    rw [waits]
    exact fun _ sent => sent
  exact (written site (sentOnly_start _ site)).sent

/-! ## Delivery -/

/-- What the buffer promises at a site whose ledger is kept. -/
structure Delivery (site : Site Stage) (ledger : Ledger) : Prop where
  /-- A write under a request id sends no data command. -/
  staged_only : ∀ req : RequestId, req.isEmpty = false → ∀ now ref draws times values,
    ∀ c ∈ commandsIn (site.sent (write now ref req draws times values)), ¬ c.2.OnData
  /-- Data commands are all that is staged. -/
  onData : ∀ req ns, ∀ staged ∈ ledger.staged req ns, staged.command.OnData
  nothing : ∀ req, (site.outcome (flush req)).answer = .error (.nothingToFlush req) ↔
    ¬ ledger.HasRequest req
  requestCount : site.client.pending.requestCount =
    Set.ncard {req | (site.outcome (flush req)).answer ≠ .error (.nothingToFlush req)}
  /-- A flush that no command fails makes progress, and delivers everything if it leaves nothing. -/
  flushed : ∀ req, ledger.HasRequest req → ¬ Refused (site.outcome (flush req)) →
    ∃ connections sent left, Progress site ledger req connections sent left ∧
      (Delivers site ledger req ↔ ∀ ns ∈ left, ledger.staged req ns = [])

/-- **What is staged is delivered once**, by every flush that no command fails and no wrong count
stops before its last namespace; whatever was visited before, and whatever the servers did. -/
theorem visits_delivery (options : Options) (stage : Stage) (vs : List Visit) :
    let start : Site Stage := ⟨.ofOptions options, stage⟩
    Delivery (start.visits vs).2 (start.ledgerFrom [] vs) := by
  intro start
  have h := (Tallied.start options stage).visits vs
  refine ⟨fun req waits now ref draws times values => sent_write_under waits _ now ref draws times
    values, fun req ns staged inside => ?_, h.nothingToFlush_iff, h.requestCount_eq,
    fun req staged answered => ?_⟩
  · obtain ⟨batch, hbatch, _, _, hstaged⟩ := Ledger.mem_staged inside
    exact h.onData batch hbatch staged hstaged
  · obtain ⟨connections, sent, left, progress⟩ := (h.flush_progress staged).resolve_left answered
    exact ⟨connections, sent, left, progress, progress.delivers_iff⟩

/-! ## A flush that a wrong count stops -/

/-- What is delivered is in the log. -/
theorem Delivers.mem {site : Site Stage} {ledger : Ledger} {req : RequestId}
    (h : Delivers site ledger req) {ns : Namespace} {staged : StagedCommand}
    (waits : staged ∈ ledger.staged req ns) (connections : Connections) {c : Connection}
    (own : site.client.connections = some connections) (route : connections.route ns = .ok c) :
    (c.server, staged.command) ∈ commandsIn (site.sent (flush req)) := by
  obtain ⟨connections', order, own', _, namespaces, sent⟩ := h
  obtain rfl := Option.some.inj (own.symm.trans own')
  obtain ⟨batch, inside, request, here, _⟩ := Ledger.mem_staged waits
  rw [sent]
  refine List.mem_flatMap.mpr ⟨ns, (namespaces ns).mpr ⟨batch, inside, request, here⟩, ?_⟩
  unfold Connections.addressed
  rw [route]
  exact List.mem_map_of_mem waits

/-- A series in each of two namespaces, and for each of them the same point is written twice under one
request, at a time at which paddings do not show. -/
def pointsTwice : List Visit :=
  let write (ns : Namespace) : Visit := ⟨⟨0⟩, .write ⟨ns, ⟨1⟩⟩ ⟨"r"⟩ (fun _ _ => .zero)
    [9007199254740992] [.ofUInt64 3]⟩
  [⟨⟨0⟩, .connect⟩,
    ⟨⟨0⟩, .create (fun _ => ⟨"token", 0⟩)
      [(⟨1⟩, ⟨⟨0⟩, "load", [], none⟩), (⟨2⟩, ⟨⟨1⟩, "load", [], none⟩)]⟩,
    write ⟨0⟩, write ⟨0⟩, write ⟨1⟩, write ⟨1⟩]

/-- The first server counts one point instead of two, no command fails, and the points of the second
namespace are not sent. -/
theorem not_delivers_pointsTwice :
    ((twoServers.visits pointsTwice).2.outcome (flush ⟨"r"⟩)).answer =
        .error (.internal (.writeCount 2 1)) ∧
      ¬ Delivers (twoServers.visits pointsTwice).2 (twoServers.ledgerFrom [] pointsTwice) ⟨"r"⟩ := by
  refine ⟨by decide +kernel, fun delivers => ?_⟩
  have waits : StagedCommand.checked (.addPoints "data_1-1-9007199222400000"
      [(.ofUInt64 9007199254740992, "3:54740992.000000")]) 1 ∈
        (twoServers.ledgerFrom [] pointsTwice).staged ⟨"r"⟩ ⟨1⟩ := by decide +kernel
  have sent := delivers.mem waits [(⟨0⟩, ⟨0, true⟩), (⟨1⟩, ⟨1, true⟩)] (c := ⟨1, true⟩)
    (by decide +kernel) (by decide +kernel)
  revert sent
  decide +kernel

end Remote

end SeriesStorage
