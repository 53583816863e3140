import SeriesStorage.Proofs.Server.Commands
import SeriesStorage.Server.Rehearsal

/-!
# Commands that may be refused

On a server in rehearsal any command may be refused: it is answered with an error and has no effect.
`Attempt` says what can become of one command, `Attempts` what can become of commands in a row, each
of which is tried whatever became of those before it, and `Stage.served` what can become of a
request, as long as nobody else touches the keys (`Undisturbed`).

`texts log` lists the texts that were set, by server and key.
-/

namespace SeriesStorage

namespace Server

/-! ## Attempts -/

/-- What can become of a command: it is refused without effect, or executed. -/
inductive Attempt (required : String) (command : Command) (ks : Keyspace) :
    Except String Reply → Keyspace → Prop
  | refused (text : String) : Attempt required command ks (.error text) ks
  | executed {reply : Reply} {ks' : Keyspace} : exec required command ks = (.ok reply, ks') →
      Attempt required command ks (.ok reply) ks'

/-- What can become of commands in a row. -/
inductive Attempts (required : String) :
    List Command → Keyspace → List (Except String Reply) → Keyspace → Prop
  | done {ks : Keyspace} : Attempts required [] ks [] ks
  | step {command : Command} {rest : List Command} {ks ks' last : Keyspace}
      {reply : Except String Reply} {replies : List (Except String Reply)} :
      Attempt required command ks reply ks' → Attempts required rest ks' replies last →
      Attempts required (command :: rest) ks (reply :: replies) last

variable {required : String} {command : Command} {commands : List Command} {ks ks' : Keyspace}
  {reply : Except String Reply} {replies : List (Except String Reply)}

/-- A command that fails leaves everything as it was. -/
theorem exec_error {text : String} (h : (exec required command ks).1 = .error text) :
    (exec required command ks).2 = ks := by
  cases command <;> simp only [exec] at h ⊢ <;> grind

/-- What a server does by itself is one thing that can become of a command. -/
theorem attempt_exec (required : String) (command : Command) (ks : Keyspace) :
    Attempt required command ks (exec required command ks).1 (exec required command ks).2 := by
  cases answer : (exec required command ks).1 with
  | ok reply => exact .executed (Prod.ext answer rfl)
  | error text =>
    rw [exec_error answer]
    exact .refused text

theorem attempts_execAll (required : String) (commands : List Command) (ks : Keyspace) :
    Attempts required commands ks (Server.execAll (exec required) commands ks).1
      (Server.execAll (exec required) commands ks).2 := by
  induction commands generalizing ks with
  | nil => exact .done
  | cons command rest ih => exact .step (attempt_exec required command ks) (ih _)

/-- Commands leave other keys alone, whatever becomes of them. -/
theorem Attempt.get?_eq (h : Attempt required command ks reply ks') {key : String}
    (leave : ¬ command.Changes key) : ks'.get? key = ks.get? key := by
  cases h with
  | refused text => rfl
  | executed run =>
    have same := get?_exec required command ks key leave
    rwa [run] at same

theorem Attempts.get?_eq (h : Attempts required commands ks replies ks') {key : String}
    (leave : ∀ command ∈ commands, ¬ command.Changes key) : ks'.get? key = ks.get? key := by
  induction h with
  | done => rfl
  | step first _ ih =>
    rw [ih fun c hc => leave c (List.mem_cons_of_mem _ hc),
      first.get?_eq (leave _ List.mem_cons_self)]

/-- Commands that all succeed are attempted. -/
theorem Runs.attempts {found : List Reply} (h : Runs required commands ks found ks') :
    Attempts required commands ks (found.map .ok) ks' := by
  induction h with
  | done => exact .done
  | step first _ ih => exact .step (.executed first) ih

/-- Of commands in a row the first ones are attempted, and then the others. -/
theorem Attempts.split {rest : List Command} {last : Keyspace}
    (h : Attempts required (commands ++ rest) ks replies last) :
    ∃ first others mid, replies = first ++ others ∧ Attempts required commands ks first mid ∧
      Attempts required rest mid others last := by
  induction commands generalizing ks replies with
  | nil => exact ⟨[], replies, ks, rfl, .done, h⟩
  | cons command some ih =>
    cases h with
    | @step _ _ _ _ _ reply _ one more =>
      obtain ⟨first, others, mid, rfl, attempted, left⟩ := ih more
      exact ⟨reply :: first, others, mid, rfl, .step one attempted, left⟩

theorem Attempts.length_replies (h : Attempts required commands ks replies ks') :
    replies.length = commands.length := by
  induction h with
  | done => rfl
  | step _ _ ih => rw [List.length_cons, List.length_cons, ih]

/-- What holds of keys holds after commands if every attempt at one of them keeps it. -/
theorem Attempts.preserves {P : Keyspace → Prop} (h : Attempts required commands ks replies ks')
    (kept : ∀ command ∈ commands, ∀ ks reply ks', Attempt required command ks reply ks' →
      P ks → P ks') (start : P ks) : P ks' := by
  induction h with
  | done => exact start
  | step first _ ih =>
    exact ih (fun c hc => kept c (List.mem_cons_of_mem _ hc))
      (kept _ List.mem_cons_self _ _ _ first start)

/-! ## Servers that nobody else touches -/

/-- Nobody else changes the keys of a server; commands may be refused. -/
def Rehearsal.Undisturbed (r : Rehearsal) : Prop := r.interventions = []

theorem Rehearsal.Undisturbed.exec {r : Rehearsal} (h : r.Undisturbed) (command : Command) :
    Attempt r.password command r.keyspace (r.exec command).1 (r.exec command).2.keyspace ∧
      (r.exec command).2.password = r.password ∧ (r.exec command).2.Undisturbed := by
  obtain ⟨password, keyspace, faults, interventions⟩ := r
  obtain rfl : interventions = [] := h
  unfold Rehearsal.exec
  dsimp only
  cases takeFault command.name faults with
  | mk hit faults =>
    cases hit with
    | some text => exact ⟨.refused text, rfl, rfl⟩
    | none => exact ⟨attempt_exec _ _ _, rfl, rfl⟩

theorem Rehearsal.Undisturbed.execAll {r : Rehearsal} (h : r.Undisturbed)
    (commands : List Command) :
    let result := Server.execAll Rehearsal.exec commands r
    Attempts r.password commands r.keyspace result.1 result.2.keyspace ∧
      result.2.password = r.password ∧ result.2.Undisturbed := by
  induction commands generalizing r with
  | nil => exact ⟨.done, rfl, h⟩
  | cons command rest ih =>
    obtain ⟨first, password, undisturbed⟩ := h.exec command
    obtain ⟨others, password', undisturbed'⟩ := ih undisturbed
    rw [password] at others password'
    exact ⟨.step first others, password', undisturbed'⟩

/-- What can become of a request to a server: a transaction may be refused as a whole, and otherwise
every command is attempted. -/
theorem Rehearsal.Undisturbed.execRequest {r : Rehearsal} (h : r.Undisturbed) (request : Request) :
    let result := r.execRequest request
    result.2.password = r.password ∧ result.2.Undisturbed ∧
      ((∃ text, result.1 = .error (.refused text) ∧ result.2.keyspace = r.keyspace ∧
          ∃ commands, request = .transaction commands) ∨
        ∃ replies, result.1 = .ok replies ∧
          Attempts r.password request.commands r.keyspace replies result.2.keyspace) := by
  have plain : ∀ commands, ∀ r : Rehearsal, r.Undisturbed →
      let result := Server.execAll Rehearsal.exec commands r
      result.2.password = r.password ∧ result.2.Undisturbed ∧
        ∃ replies, result.1 = replies ∧
          Attempts r.password commands r.keyspace replies result.2.keyspace := by
    intro commands r h
    obtain ⟨attempts, password, undisturbed⟩ := h.execAll commands
    exact ⟨password, undisturbed, _, rfl, attempts⟩
  unfold Rehearsal.execRequest
  cases request with
  | transaction commands =>
    dsimp only
    cases takeFault "EXEC" r.faults with
    | mk hit faults =>
      cases hit with
      | some text => exact ⟨rfl, h, Or.inl ⟨text, rfl, rfl, commands, rfl⟩⟩
      | none =>
        obtain ⟨password, undisturbed, replies, hreplies, attempts⟩ :=
          plain commands { r with faults } h
        exact ⟨password, undisturbed, Or.inr ⟨replies, congrArg _ hreplies, attempts⟩⟩
  | single command =>
    obtain ⟨password, undisturbed, replies, hreplies, attempts⟩ := plain [command] r h
    exact ⟨password, undisturbed, Or.inr ⟨replies, congrArg _ hreplies, attempts⟩⟩
  | pipeline commands =>
    obtain ⟨password, undisturbed, replies, hreplies, attempts⟩ := plain commands r h
    exact ⟨password, undisturbed, Or.inr ⟨replies, congrArg _ hreplies, attempts⟩⟩

/-! ## Stages that nobody else touches -/

namespace Stage

/-- Nobody else changes the keys of a server. -/
def Undisturbed (stage : Stage) : Prop := ∀ r ∈ stage.servers, r.Undisturbed

/-- What can become of a request to one of the servers. -/
inductive Served (stage : Stage) (server : Nat) (request : Request) :
    Except Fault (List Reply) × Stage → Prop
  /-- There is no such server. -/
  | missing : stage.servers[server]? = none →
      Served stage server request (.error (.io "Connection reset"), stage)
  /-- A transaction is refused as a whole. -/
  | refused {r r' : Rehearsal} {commands : List Command} {text : String} :
      stage.servers[server]? = some r → r'.keyspace = r.keyspace → r'.password = r.password →
      r'.Undisturbed → request = .transaction commands →
      Served stage server request (.error (.refused text),
        { stage.update server fun _ => r' with
          log := stage.log ++ (logged request []).map (server, ·) })
  /-- Every command is attempted. -/
  | attempted {r r' : Rehearsal} {replies : List (Except String Reply)} :
      stage.servers[server]? = some r → r'.password = r.password → r'.Undisturbed →
      Attempts r.password request.commands r.keyspace replies r'.keyspace →
      Served stage server request (gather replies,
        { stage.update server fun _ => r' with
          log := stage.log ++ (logged request replies).map (server, ·) })

theorem served {stage : Stage} (h : stage.Undisturbed) (server : Nat) (request : Request) :
    Served stage server request (stage.serve server request) := by
  unfold Stage.serve
  cases found : stage.servers[server]? with
  | none => exact .missing found
  | some r =>
    obtain ⟨password, undisturbed, rejected | attempted⟩ :=
      (h r (List.mem_of_getElem? found)).execRequest request
    · obtain ⟨text, answer, same, commands, transaction⟩ := rejected
      dsimp only
      rw [answer]
      exact .refused found same password undisturbed transaction
    · obtain ⟨replies, answer, attempts⟩ := attempted
      dsimp only
      rw [answer]
      exact .attempted found password undisturbed attempts

theorem getElem?_update (stage : Stage) (server i : Nat) (r' : Rehearsal) :
    (stage.update server fun _ => r').servers[i]? =
      if server = i then stage.servers[i]?.map fun _ => r' else stage.servers[i]? := by
  show (stage.servers.modify server fun _ => r')[i]? = _
  rw [List.getElem?_modify]
  split <;> simp_all

theorem Undisturbed.update {stage : Stage} (h : stage.Undisturbed) (server : Nat) {r' : Rehearsal}
    (hr' : r'.Undisturbed) (log : List (Nat × LogEntry)) :
    Undisturbed { stage.update server fun _ => r' with log } := by
  intro r inside
  obtain ⟨i, found⟩ := List.mem_iff_getElem?.mp inside
  change (stage.update server fun _ => r').servers[i]? = some r at found
  rw [getElem?_update] at found
  split at found
  · obtain ⟨_, _, rfl⟩ := Option.map_eq_some_iff.mp found
    exact hr'
  · exact h r (List.mem_of_getElem? found)

end Stage

/-! ## Texts that were set -/

/-- The key and the text of a command that set a text. -/
def LogEntry.text? : LogEntry → Option (String × String)
  | .command (.set key text) (.ok _) => some (key, text)
  | _ => none

/-- The texts that were set, by server and key. -/
def texts (log : List (Nat × LogEntry)) : List (Nat × String × String) :=
  log.filterMap fun (server, entry) => entry.text?.map (server, ·)

@[simp] theorem texts_nil : texts [] = [] := rfl

@[simp] theorem texts_append (log more : List (Nat × LogEntry)) :
    texts (log ++ more) = texts log ++ texts more := List.filterMap_append

/-- The texts that commands have set, given the replies. -/
def textsOf (commands : List Command) (replies : List (Except String Reply)) :
    List (String × String) :=
  (commands.zip replies).filterMap fun (command, reply) => (LogEntry.command command reply).text?

theorem texts_logged (server : Nat) (request : Request) (replies : List (Except String Reply)) :
    texts ((logged request replies).map (server, ·)) =
      (textsOf request.commands replies).map (server, ·) := by
  have plain : ∀ commands : List Command, ∀ replies : List (Except String Reply),
      texts (((commands.zip replies).map fun (command, reply) =>
        LogEntry.command command reply).map (server, ·)) =
          (textsOf commands replies).map (server, ·) := by
    intro commands replies
    unfold textsOf texts
    rw [List.map_map, List.filterMap_map, List.map_filterMap]
    rfl
  cases request with
  | transaction commands =>
    rw [← plain]
    let entries := (commands.zip replies).map fun (command, reply) => LogEntry.command command reply
    show texts ((LogEntry.begin :: entries ++ [LogEntry.commit]).map (server, ·)) = _
    rw [List.map_append, texts_append]
    exact List.append_nil _
  | _ => exact plain _ _

theorem textsOf_cons (command : Command) (rest : List Command) (reply : Except String Reply)
    (replies : List (Except String Reply)) :
    textsOf (command :: rest) (reply :: replies) =
      (LogEntry.command command reply).text?.toList ++ textsOf rest replies := by
  unfold textsOf
  rw [List.zip_cons_cons, List.filterMap_cons]
  cases set : (LogEntry.command command reply).text? <;> simp only [set] <;> rfl

theorem textsOf_one (command : Command) (reply : Except String Reply) :
    textsOf [command] [reply] = (LogEntry.command command reply).text?.toList :=
  (textsOf_cons command [] reply []).trans (List.append_nil _)

/-! ## Replies that are read off -/

theorem gather_cons {reply : Except String Reply} {found : List Reply}
    (h : gather (reply :: replies) = .ok found) :
    ∃ a more, reply = .ok a ∧ gather replies = .ok more ∧ found = a :: more := by
  cases reply with
  | error text => cases h
  | ok a =>
    rw [gather] at h
    cases others : gather replies with
    | error fault =>
      rw [others] at h
      cases h
    | ok more =>
      rw [others] at h
      exact ⟨a, more, rfl, rfl, (Except.ok.inj h).symm⟩

/-- Replies that were all read off are all there. -/
theorem gather_ok {replies : List (Except String Reply)} {found : List Reply}
    (h : gather replies = .ok found) : ∀ reply ∈ replies, ∃ a, reply = .ok a := by
  induction replies generalizing found with
  | nil => exact fun _ inside => by cases inside
  | cons reply rest ih =>
    obtain ⟨a, more, rfl, gathered, _⟩ := gather_cons h
    exact List.forall_mem_cons.mpr ⟨⟨a, rfl⟩, ih gathered⟩

theorem gather_append {first others : List (Except String Reply)} {found : List Reply}
    (h : gather (first ++ others) = .ok found) :
    ∃ some more, gather first = .ok some ∧ gather others = .ok more ∧ found = some ++ more := by
  induction first generalizing found with
  | nil => exact ⟨[], found, rfl, h, rfl⟩
  | cons reply rest ih =>
    obtain ⟨a, later, rfl, gathered, rfl⟩ := gather_cons h
    obtain ⟨some, more, hsome, hmore, rfl⟩ := ih gathered
    refine ⟨a :: some, more, ?_, hmore, rfl⟩
    rw [gather, hsome]
    rfl

theorem gather_map_ok (found : List Reply) : gather (found.map .ok) = .ok found := by
  induction found with
  | nil => rfl
  | cons reply rest ih =>
    rw [List.map_cons, gather, ih]
    rfl

theorem length_gather {found : List Reply} (h : gather replies = .ok found) :
    found.length = replies.length := by
  induction replies generalizing found with
  | nil =>
    obtain rfl := Except.ok.inj h
    rfl
  | cons reply rest ih =>
    obtain ⟨a, more, rfl, gathered, rfl⟩ := gather_cons h
    rw [List.length_cons, List.length_cons, ih gathered]

end Server

end SeriesStorage
