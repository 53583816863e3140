import SeriesStorage.Proofs.Remote.Orderly
import SeriesStorage.Proofs.Server.NamedKeys
import SeriesStorage.Proofs.TableKeys

/-!
# Calls on one namespace, run twice

A call that concerns one namespace sends commands that name keys of that namespace only
(`Command.Within`).  So two runs of it, from sites of which the same can be said, answer the same,
and the same can be said afterwards (`Relates`), if only that is so for such requests, for what is
staged for the namespace, and for what the cache is asked (`Carries`, `Looks`).

* `Call.Concerns`: the calls on a namespace.  A flush concerns the namespace of all that it sends.
* `Carries.perform`: two runs of such a call.
-/

namespace SeriesStorage

/-! ## Keys and calls of a namespace -/

/-- The namespace that a key belongs to. -/
def KeyName.ns : KeyName → Namespace
  | .data ref _ | .descriptor ref => ref.ns
  | .name ns _ | .lock ns _ | .counter ns | .tag ns _ => ns

/-- A key belongs to a namespace. -/
def Owned (ns : Namespace) (key : String) : Prop := ∃ k : KeyName, k.ns = ns ∧ k.text = key

/-- No key belongs to two namespaces. -/
theorem Owned.unique {ns ns' : Namespace} {key : String} (h : Owned ns key) (h' : Owned ns' key) :
    ns = ns' := by
  obtain ⟨k, rfl, rfl⟩ := h
  obtain ⟨k', rfl, same⟩ := h'
  rw [KeyName.text_inj.mp same]

namespace Server

/-- All keys that a command names belong to a namespace. -/
structure Command.Within (ns : Namespace) (command : Command) : Prop where
  kept : command ≠ .flush
  named : ∀ key ∈ command.keys, Owned ns key

/-- It names no key of another namespace. -/
theorem Command.Within.not_owned {A ns : Namespace} (apart : ns ≠ A) {command : Command}
    (within : command.Within ns) : ∀ key ∈ command.keys, ¬ Owned A key :=
  fun key inside own => apart ((within.named key inside).unique own)

end Server

namespace Remote.Pending

/-- What is staged under a request. -/
def under (p : Pending) (req : RequestId) : StagedWrites := (p.writes? req).getD .empty

theorem under_of_writes? {p : Pending} {req : RequestId} {writes : StagedWrites}
    (found : p.writes? req = some writes) : p.under req = writes := by
  rw [under, found]
  rfl

/-- All that is staged under a request is staged for a namespace. -/
def OnlyOf (p : Pending) (ns : Namespace) (req : RequestId) : Prop :=
  ∀ entry ∈ (p.under req).entries, entry.1 = ns

end Remote.Pending

/-- A call concerns one namespace, where so much waits for a flush. -/
def Call.Concerns (pending : Remote.Pending) (ns : Namespace) : Call → Prop
  | .connect => False
  | .create _ batch => ∀ entry ∈ batch, entry.2.ns = ns
  | .search query => query.ns = ns
  | .delete refs => ∀ ref ∈ refs, ref.ns = ns
  | .clear => False
  | .write ref _ _ _ _ => ref.ns = ns
  | .flush req => pending.OnlyOf ns req
  | .read ref _ => ref.ns = ns

instance (pending : Remote.Pending) (ns : Namespace) (req : RequestId) :
    Decidable (pending.OnlyOf ns req) :=
  inferInstanceAs (Decidable (∀ entry ∈ (pending.under req).entries, entry.1 = ns))

instance (pending : Remote.Pending) (ns : Namespace) :
    (call : Call) → Decidable (call.Concerns pending ns)
  | .connect => inferInstanceAs (Decidable False)
  | .create _ batch => inferInstanceAs (Decidable (∀ entry ∈ batch, entry.2.ns = ns))
  | .search query => inferInstanceAs (Decidable (query.ns = ns))
  | .delete refs => inferInstanceAs (Decidable (∀ ref ∈ refs, ref.ns = ns))
  | .clear => inferInstanceAs (Decidable False)
  | .write ref _ _ _ _ => inferInstanceAs (Decidable (ref.ns = ns))
  | .flush req => inferInstanceAs (Decidable (pending.OnlyOf ns req))
  | .read ref _ => inferInstanceAs (Decidable (ref.ns = ns))

namespace Remote

open Server (Command Network Request)

/-! ## Commands of a namespace -/

theorem within_of_key {ns : Namespace} {command : Command} (k : KeyName) (hns : k.ns = ns)
    (named : command.keys = [k.text]) : command.Within ns := by
  refine ⟨?_, fun key inside => ?_⟩
  · rintro rfl
    cases named
  rw [named] at inside
  exact ⟨k, hns, (List.mem_singleton.mp inside).symm⟩

theorem registration_within (m : SeriesMetadata) :
    ∀ staged ∈ registration m, staged.command.Within m.ns := by
  intro staged inside
  simp only [registration, List.mem_cons, List.mem_map] at inside
  obtain rfl | rfl | ⟨tag, _, rfl⟩ := inside
  · exact within_of_key (.name m.ns m.name) rfl rfl
  · exact within_of_key (.descriptor m.ref) rfl rfl
  · exact within_of_key (.tag m.ns tag) rfl rfl

theorem removal_within (m : SeriesMetadata) :
    ∀ staged ∈ removal m, staged.command.Within m.ns := by
  intro staged inside
  simp only [removal, List.mem_cons, List.mem_map] at inside
  obtain rfl | ⟨tag, _, rfl⟩ := inside
  · refine ⟨(fun flush => by cases flush), fun key named => ?_⟩
    rcases List.mem_cons.mp named with rfl | named
    · exact ⟨.name m.ns m.name, rfl, rfl⟩
    · obtain rfl := List.mem_singleton.mp named
      exact ⟨.descriptor m.ref, rfl, rfl⟩
  · exact within_of_key (.tag m.ns tag) rfl rfl

theorem stagePoints_within {m : SeriesMetadata} {draws : Draws} {times : List UInt64}
    {values : List Binary64} {commands : List StagedCommand}
    (h : stagePoints m draws times values = .ok commands) :
    ∀ staged ∈ commands, staged.command.Within m.ns := by
  intro staged inside
  obtain ⟨bucket, ⟨added, rfl⟩ | ⟨second, rfl⟩⟩ := stagePoints_cases h staged inside
  · exact within_of_key (.data m.ref bucket) rfl rfl
  · exact within_of_key (.data m.ref bucket) rfl rfl

/-- A command that can be staged for a namespace: it names keys of the namespace, and changes keys
of points only. -/
def Stages (ns : Namespace) (staged : StagedCommand) : Prop :=
  staged.command.Within ns ∧ OnPoints staged.command

/-- Under each request something is staged, and that is staged for its namespace. -/
structure WellStaged (pending : Pending) : Prop where
  nonempty : ∀ req writes, pending.writes? req = some writes → writes.entries ≠ []
  stages : ∀ req writes, pending.writes? req = some writes → ∀ entry ∈ writes.entries,
    ∀ staged ∈ entry.2, Stages entry.1 staged

theorem wellStaged_empty : WellStaged .empty := ⟨nofun, nofun⟩

namespace WellStaged

variable {pending : Pending} (h : WellStaged pending)

include h

theorem remove (req : RequestId) : WellStaged (pending.remove req) where
  nonempty := fun req' writes found => h.nonempty req' writes (Pending.writes?_of_remove found)
  stages := fun req' writes found => h.stages req' writes (Pending.writes?_of_remove found)

theorem stage (req : RequestId) {ns : Namespace} {commands : List StagedCommand}
    (stages : ∀ staged ∈ commands, Stages ns staged) :
    WellStaged (pending.stage req ns commands) where
  nonempty := by
    intro req' writes found
    change (pending.requests.insert req _).get? req' = some writes at found
    rw [Table.get?_insert] at found
    split at found
    · obtain rfl := Option.some.inj found
      exact Table.insert_ne_nil _ _ _
    · exact h.nonempty req' writes found
  stages := Pending.forall_stage (E := fun _ entry => ∀ staged ∈ entry.2, Stages entry.1 staged)
    h.stages stages fun _ old => List.forall_mem_append.mpr ⟨old, stages⟩

end WellStaged

/-! ## Two runs of a task -/

/-- Two runs of a task from related sites answer the same and leave related sites. -/
def Relates {σ α : Type} [World σ] (R R' : Site σ → Site σ → Prop) (task : Task α) : Prop :=
  ∀ site site', R site site' →
    (site.outcome task).answer = (site'.outcome task).answer ∧
      R' (site.outcome task).state (site'.outcome task).state

namespace Relates

variable {σ α β : Type} [World σ] {R R' R'' : Site σ → Site σ → Prop}

theorem pure (a : α) : Relates R R (Pure.pure a : Task α) := fun _ _ h => ⟨rfl, h⟩

theorem throw (e : Error) : Relates R R (MonadExcept.throw e : Task α) := fun _ _ h => ⟨rfl, h⟩

theorem ofExcept (result : Except Error α) : Relates R R (Task.ofExcept result) := by
  intro site site' h
  simp only [Site.outcome_ofExcept]
  exact ⟨rfl, h⟩

theorem orFault (result : Except Fault α) : Relates R R (Remote.orFault result) := by
  intro site site' h
  simp only [Site.outcome_orFault]
  exact ⟨rfl, h⟩

theorem changes {f : Client → Client}
    (h : ∀ site site', R site site' →
      R' { site with client := f site.client } { site' with client := f site'.client }) :
    Relates R R' (modify f : Task Unit) := fun site site' related => ⟨rfl, h site site' related⟩

theorem weaken {task : Task α} (h : Relates R R' task) {P Q : Site σ → Site σ → Prop}
    (before : ∀ site site', P site site' → R site site')
    (after : ∀ site site', R' site site' → Q site site') : Relates P Q task :=
  fun site site' related =>
    ⟨(h site site' (before _ _ related)).1, after _ _ (h site site' (before _ _ related)).2⟩

/-- What follows a task may be asked for those answers only that the task can give. -/
theorem bind_of {task : Task α} {f : α → Task β} (h : Relates R R' task)
    (failed : ∀ site site', R' site site' → R'' site site')
    (hf : ∀ a, (∃ site : Site σ, (site.outcome task).answer = .ok a) → Relates R' R'' (f a)) :
    Relates R R'' (task >>= f) := by
  intro site site' related
  obtain ⟨same, after⟩ := h site site' related
  rw [Site.outcome_bind, Site.outcome_bind]
  cases answer : (site.outcome task).answer with
  | ok a =>
    rw [Outcome.andThen_eq_of_ok answer, Outcome.andThen_eq_of_ok (same.symm.trans answer)]
    exact hf a ⟨site, answer⟩ _ _ after
  | error e =>
    rw [Outcome.andThen_eq_of_error answer, Outcome.andThen_eq_of_error (same.symm.trans answer)]
    exact ⟨rfl, failed _ _ after⟩

theorem bind {task : Task α} {f : α → Task β} (h : Relates R R task)
    (hf : ∀ a, Relates R R (f a)) : Relates R R (task >>= f) :=
  bind_of h (fun _ _ related => related) fun a _ => hf a

/-- What follows if it depends on what both clients have in common. -/
theorem get_bind {f : Client → Task β}
    (h : ∀ site site', R site site' →
      f site.client = f site'.client ∧ Relates R R' (f site.client)) :
    Relates R R' (MonadState.get >>= f) := by
  intro site site' related
  obtain ⟨same, rest⟩ := h site site' related
  rw [Site.outcome_bind, Site.outcome_bind, Site.outcome_get, Site.outcome_get,
    Outcome.andThen_succeed, Outcome.andThen_succeed, ← same]
  exact rest site site' related

theorem ask {command : Command} (asked : ∀ server, Relates R R (request server (.single command)))
    (connections : Connections) (ns : Namespace) (read : Server.Reply → Except Fault α) :
    Relates R R (Remote.ask connections ns command read) :=
  bind (ofExcept _) fun _ => bind (asked _) fun _ => bind (orFault _) fun _ => orFault _

theorem loadMetadata {ref : SeriesRef}
    (asked : ∀ server, Relates R R (request server (.single (.get (Key.descriptor ref)))))
    (connections : Connections) : Relates R R (Remote.loadMetadata connections ref) := by
  refine bind (ask asked _ _ _) fun text => ?_
  cases text with
  | none => exact pure _
  | some text =>
    dsimp only
    split
    · exact pure _
    · exact throw _

theorem attempt {task : Task α} (h : Relates R R' task) : Relates R R' task.attempt := by
  intro site site' related
  obtain ⟨same, after⟩ := h site site' related
  rw [Site.outcome_attempt, Site.outcome_attempt]
  exact ⟨congrArg Except.ok same, after⟩

/-- A step that is taken on a condition only, before the rest. -/
theorem ite_bind {p : Prop} [Decidable p] {step : Task α} {next : α → Task β} {rest : Task β}
    (hstep : Relates R R step) (hnext : Relates R R rest → ∀ a, Relates R R (next a))
    (hrest : Relates R R rest) : Relates R R (if p then step >>= next else rest) := by
  split
  · exact bind hstep (hnext hrest)
  · exact hrest

/-- A batch is loaded by asking for the descriptors of its series. -/
theorem loadBatch {refs : List SeriesRef}
    (asked : ∀ ref ∈ refs, ∀ server,
      Relates R R (request server (.single (.get (Key.descriptor ref)))))
    (connections : Connections) : Relates R R (Remote.loadBatch connections refs) := by
  induction refs with
  | nil => exact pure _
  | cons ref rest ih =>
    refine bind (loadMetadata (asked ref List.mem_cons_self) connections) fun found => ?_
    cases found with
    | none => exact throw _
    | some m =>
      refine ite_bind (throw _) (fun kept _ => kept) ?_
      exact bind (ih fun r inside => asked r (List.mem_cons_of_mem _ inside)) fun _ => pure _

/-- Commands are executed by requests with some of them. -/
theorem execute (connections : Connections) (ns : Namespace) {commands : List StagedCommand}
    (asked : ∀ server (r : Request), (∀ c ∈ r.commands, c ∈ commands.map (·.command)) →
      Relates R R (request server r)) : Relates R R (Remote.execute connections ns commands) := by
  have together : ∀ server, Relates R R (executeTogether server commands) := fun server =>
    bind (asked server _ fun _ inside => inside) fun _ => bind (orFault _) fun _ => orFault _
  have singly : ∀ server (some : List StagedCommand), (∀ staged ∈ some, staged ∈ commands) →
      Relates R R (executeSingly server some) := by
    intro server some
    induction some with
    | nil => exact fun _ => pure 0
    | cons staged rest ih =>
      intro part
      refine bind (asked server _ fun c inside => ?_) fun _ =>
        bind (orFault _) fun _ => bind (orFault _) fun _ => bind (orFault _) fun _ =>
          bind (ih fun s inside => part s (List.mem_cons_of_mem _ inside)) fun _ => pure _
      obtain rfl := List.mem_singleton.mp inside
      exact List.mem_map_of_mem (part staged List.mem_cons_self)
  rw [execute_eq]
  split
  · exact pure ()
  · refine bind (ofExcept _) fun connection => bind ?_ fun stored => ?_
    · unfold sendAll
      split
      · exact together _
      · exact singly _ commands fun _ inside => inside
    · unfold checkCount
      split
      · exact throw _
      · exact pure ()

/-- What follows with the connections that both clients have. -/
theorem connected_bind {f : Connections → Task β}
    (same : ∀ site site', R site site' → site.client.connections = site'.client.connections)
    (failed : ∀ site site', R site site' → R' site site')
    (h : ∀ connections, Relates (fun site site' => R site site' ∧
      site.client.connections = some connections) R' (f connections)) :
    Relates R R' (Remote.connected >>= f) := by
  intro site site' related
  have shared := same site site' related
  rw [Site.outcome_bind, Site.outcome_bind]
  cases own : site.client.connections with
  | none =>
    rw [Site.outcome_connected_none own, Site.outcome_connected_none (shared.symm.trans own)]
    exact ⟨rfl, failed _ _ related⟩
  | some connections =>
    rw [Site.outcome_connected own, Site.outcome_connected (shared.symm.trans own)]
    exact h connections site site' ⟨related, own⟩

end Relates

/-! ## Two runs of a call -/

/-- What an access finds live is of the namespace of the access. -/
theorem live_ns {σ : Type} [World σ] {site : Site σ} {now : UInt64} {ref : SeriesRef}
    {m : SeriesMetadata} (h : (site.outcome (access now ref)).answer = .ok (.live m)) :
    m.ns = ref.ns := by
  unfold access at h
  rw [Site.outcome_bind] at h
  obtain ⟨connections, _, h⟩ := Outcome.answer_andThen_eq_ok_iff.mp h
  rw [Site.outcome_bind] at h
  obtain ⟨found, _, h⟩ := Outcome.answer_andThen_eq_ok_iff.mp h
  exact (Access.ofMetadata_eq_live_iff.mp (Except.ok.inj h)).2.1

/-- A relation between sites that a namespace's own requests, staged writes and cached descriptors
carry on. -/
structure Carries (ns : Namespace) (R : Site Network → Site Network → Prop) : Prop where
  options : ∀ site site', R site site' → site.client.options = site'.client.options
  connections : ∀ site site', R site site' → site.client.connections = site'.client.connections
  asked : ∀ server (r : Request), (∀ command ∈ r.commands, command.Within ns) →
    Relates R R (request server r)
  cached : ∀ f : Cache → Cache,
    Relates R R (modify fun client => { client with cache := f client.cache } : Task Unit)
  staged : ∀ site site', R site site' → WellStaged site.client.pending
  writes : ∀ site site', R site site' → ∀ req, site.client.pending.OnlyOf ns req →
    site.client.pending.writes? req = site'.client.pending.writes? req
  stage : ∀ req commands, (∀ staged ∈ commands, Stages ns staged) →
    Relates R R (modify fun client =>
      { client with pending := client.pending.stage req ns commands } : Task Unit)
  remove : ∀ req, Relates (fun site site' => R site site' ∧ site.client.pending.OnlyOf ns req) R
    (modify fun client => { client with pending := client.pending.remove req } : Task Unit)

/-- Between calls the descriptors of a namespace can be looked up, in the cache or on the server. -/
structure Looks (ns : Namespace) (B R : Site Network → Site Network → Prop) : Prop where
  between : ∀ site site', B site site' → R site site'
  named : ∀ connections n,
    Relates (fun site site' => B site site' ∧ site.client.connections = some connections)
      (fun site site' => B site site' ∧ site.client.connections = some connections)
      (lookupName connections ns n)
  looked : ∀ connections ref, ref.ns = ns →
    Relates (fun site site' => B site site' ∧ site.client.connections = some connections) B
      (cachedMetadata connections ref)

namespace Carries

variable {α : Type} {ns : Namespace} {R : Site Network → Site Network → Prop}
  (carries : Carries ns R)

include carries

theorem connected_bind {f : Connections → Task α} (h : ∀ connections, Relates R R (f connections)) :
    Relates R R (Remote.connected >>= f) :=
  Relates.connected_bind carries.connections (fun _ _ related => related) fun connections =>
    (h connections).weaken (fun _ _ related => related.1) fun _ _ related => related

theorem single {command : Command} (within : command.Within ns) (server : Nat) :
    Relates R R (request server (.single command)) :=
  carries.asked server _ fun c inside => by
    obtain rfl := List.mem_singleton.mp inside
    exact within

theorem ask {command : Command} (within : command.Within ns) (connections : Connections)
    (read : Server.Reply → Except Fault α) :
    Relates R R (Remote.ask connections ns command read) :=
  Relates.ask (carries.single within) connections ns read

theorem execute (connections : Connections) {commands : List StagedCommand}
    (within : ∀ staged ∈ commands, staged.command.Within ns) :
    Relates R R (Remote.execute connections ns commands) :=
  Relates.execute connections ns fun server r part => carries.asked server r fun c inside => by
    obtain ⟨staged, hstaged, rfl⟩ := List.mem_map.mp (part c inside)
    exact within staged hstaged

/-! ### Looking up -/

theorem lookupName (connections : Connections) (n : String) :
    Relates R R (Remote.lookupName connections ns n) :=
  .bind (carries.ask (within_of_key (.name ns n) rfl rfl) _ _) fun _ => .pure _

/-! ### Creating -/

theorem withLock (connections : Connections) (n : String) (chance : LockChance) {task : Task α}
    (h : Relates R R task) :
    Relates R R (Remote.withLock connections ns (Key.lock (Key.name ns n)) chance task) := by
  have tried : ∀ options, Relates R R
      (tryLock connections ns (Key.lock (Key.name ns n)) chance.token options) := fun options =>
    carries.ask (within_of_key (.lock ns n) rfl rfl) _ _
  have obtained : ∀ options retries, Relates R R
      (obtain connections ns (Key.lock (Key.name ns n)) chance.token options retries) := by
    intro options retries
    induction retries with
    | zero =>
      refine .bind (tried options) fun isFree => ?_
      cases isFree
      · exact .throw _
      · exact .pure _
    | succ retries ih =>
      refine .bind (tried options) fun isFree => ?_
      cases isFree
      · exact ih
      · exact .pure _
  refine Relates.get_bind fun site site' related => ⟨?_, ?_⟩
  · rw [carries.options site site' related]
  · exact .bind (obtained _ _) fun _ => .bind (.attempt h) fun _ =>
      .bind (.attempt (carries.ask (within_of_key (.lock ns n) rfl rfl) _ _)) fun _ =>
        .ofExcept _

theorem createOne (connections : Connections) (now : UInt64) (chance : LockChance)
    {input : SeriesInput} (hns : input.ns = ns) :
    Relates R R (Remote.createOne connections now chance input) := by
  subst hns
  refine .bind (carries.lookupName _ _) fun known => ?_
  cases known with
  | some known => exact .pure _
  | none =>
    refine carries.withLock _ _ _ (.bind (carries.lookupName _ _) fun taken => ?_)
    cases taken with
    | some taken => exact .pure _
    | none =>
      exact .bind (carries.ask (within_of_key (.counter input.ns) rfl rfl) _ _) fun number =>
        .bind (carries.execute _ (registration_within (input.describe ⟨number⟩ now))) fun _ =>
          .bind (carries.cached fun cache => cache.invalidate _) fun _ => .pure _

theorem create (now : UInt64) (chances : LockChances) {batch : CreateBatch}
    (hns : ∀ entry ∈ batch, entry.2.ns = ns) : Relates R R (Remote.create now chances batch) := by
  refine carries.connected_bind fun connections => ?_
  suffices ∀ i, Relates R R (createFrom connections now chances i batch) from this 0
  induction batch with
  | nil => exact fun _ => .pure _
  | cons entry rest ih =>
    exact fun i => .bind (carries.createOne _ _ _ (hns entry List.mem_cons_self)) fun _ =>
      .bind (ih (fun e inside => hns e (List.mem_cons_of_mem _ inside)) (i + 1)) fun _ => .pure _

/-! ### Deleting -/

theorem loadBatch (connections : Connections) {refs : List SeriesRef}
    (hns : ∀ ref ∈ refs, ref.ns = ns) : Relates R R (Remote.loadBatch connections refs) :=
  Relates.loadBatch (fun ref inside =>
    carries.single (within_of_key (.descriptor ref) (hns ref inside) rfl)) connections

theorem delete {refs : List SeriesRef} (hns : ∀ ref ∈ refs, ref.ns = ns) :
    Relates R R (Remote.delete refs) := by
  refine carries.connected_bind fun connections => ?_
  refine .bind_of (carries.loadBatch connections hns) (fun _ _ related => related) ?_
  rintro metas ⟨site, loaded⟩
  have same : ∀ m ∈ metas, m.ns = ns := by
    intro m hm
    obtain ⟨ref, href, own, _⟩ := exists_left_of_forall₂ (loadBatch_ok loaded) hm
    exact own.trans (hns ref href)
  rw [executeRemovals_one connections same]
  refine .bind (carries.execute connections fun staged inside => ?_) fun _ =>
    carries.cached fun cache => cache.invalidate _
  obtain ⟨m, hm, inside⟩ := List.mem_flatMap.mp inside
  rw [← same m hm]
  exact removal_within m staged inside

/-! ### Points -/

theorem append (req : RequestId) {m : SeriesMetadata} (hns : m.ns = ns) (draws : Draws)
    (times : List UInt64) (values : List Binary64) :
    Relates R R (Remote.append ns req m draws times values) := by
  refine carries.connected_bind fun connections => ?_
  refine .bind_of (.ofExcept _) (fun _ _ related => related) ?_
  rintro commands ⟨site, points⟩
  rw [Site.outcome_ofExcept] at points
  have within := stagePoints_within points
  rw [hns] at within
  split
  · exact carries.execute connections within
  · exact carries.stage req commands fun staged inside =>
      ⟨within staged inside, stagePoints_onPoints points staged inside⟩

theorem executeWrites (connections : Connections)
    {entries : List (Namespace × List StagedCommand)}
    (own : ∀ entry ∈ entries, entry.1 = ns ∧ ∀ staged ∈ entry.2, Stages ns staged) :
    Relates R R (Remote.executeWrites connections entries) := by
  induction entries with
  | nil => exact .pure _
  | cons entry rest ih =>
    obtain ⟨n, commands⟩ := entry
    obtain ⟨rfl, stages⟩ := own _ List.mem_cons_self
    exact .bind (carries.execute _ fun staged inside => (stages staged inside).1) fun _ =>
      ih fun e inside => own e (List.mem_cons_of_mem _ inside)

/-- All that is flushed has to be of the namespace. -/
theorem flush (req : RequestId) :
    Relates (fun site site' => R site site' ∧ site.client.pending.OnlyOf ns req) R
      (Remote.flush req) := by
  refine Relates.get_bind fun site site' ⟨related, only⟩ => ?_
  rw [carries.writes site site' related req only]
  refine ⟨rfl, ?_⟩
  rw [← carries.writes site site' related req only]
  cases found : site.client.pending.writes? req with
  | none => exact (Relates.throw _).weaken (fun _ _ both => both.1) fun _ _ related => related
  | some writes =>
    have stages := (carries.staged site site' related).stages req writes found
    refine .bind_of (carries.remove req) (fun _ _ related => related) fun _ _ =>
      carries.connected_bind fun connections => carries.executeWrites connections ?_
    intro entry inside
    obtain rfl := only entry (by rwa [Pending.under_of_writes? found])
    exact ⟨rfl, stages entry inside⟩

theorem fetch {ref : SeriesRef} (hns : ref.ns = ns) (window : Window) :
    Relates R R (Remote.fetch ref window) := by
  subst hns
  have within : ∀ bucket, (Command.pointsBetween (Key.data ref bucket) window.first
      window.upperKey).Within ref.ns := fun bucket =>
    within_of_key (.data ref bucket) rfl rfl
  have queried : ∀ connection : Connection, ∀ buckets : List UInt64, Relates R R
      (queryRanges connection <| buckets.map fun bucket =>
        .pointsBetween (Key.data ref bucket) window.first window.upperKey) := by
    intro connection buckets
    unfold queryRanges
    split
    · refine .bind (carries.asked _ _ fun c inside => ?_) fun _ => .bind (.orFault _) fun _ =>
        .orFault _
      obtain ⟨bucket, _, rfl⟩ := List.mem_map.mp inside
      exact within bucket
    · induction buckets with
      | nil => exact .pure _
      | cons bucket rest ih =>
        refine .bind (carries.asked _ _ fun c inside => ?_) fun _ => .bind (.orFault _) fun _ =>
          .bind (.orFault _) fun _ => .bind ih fun _ => .pure _
        obtain rfl := List.mem_singleton.mp inside
        exact within bucket
  refine carries.connected_bind fun connections =>
    .ite_bind (.throw _) (fun answered _ => answered) ?_
  refine .bind (.ofExcept _) fun buckets => .bind (.ofExcept _) fun connection =>
    .bind (queried _ _) fun members => .bind (.ofExcept _) fun scored => ?_
  exact .ite_bind (.throw _) (fun answered _ => answered) (.pure _)

/-! ### Calls -/

variable {B : Site Network → Site Network → Prop} (looks : Looks ns B R)

include looks

theorem search {query : Search} (hns : query.ns = ns) : Relates B R (Remote.search query) := by
  subst hns
  have apart : ∀ site site', B site site' → site.client.connections = site'.client.connections :=
    fun site site' related => carries.connections site site' (looks.between site site' related)
  refine .bind_of (.ofExcept _) looks.between fun _ _ =>
    Relates.connected_bind apart looks.between fun connections => ?_
  refine .bind_of (looks.named connections query.name)
    (fun _ _ related => looks.between _ _ related.1)
    fun known _ => ?_
  cases known with
  | none => exact (Relates.pure _).weaken (fun _ _ related => related) fun _ _ related =>
      looks.between _ _ related.1
  | some id =>
    refine .bind_of (looks.looked connections ⟨query.ns, id⟩ rfl) looks.between fun found _ => ?_
    cases found with
    | none => exact (Relates.throw _).weaken looks.between fun _ _ related => related
    | some m => exact (Relates.pure _).weaken looks.between fun _ _ related => related

theorem guarded (now : UInt64) {ref : SeriesRef} (hns : ref.ns = ns)
    {act : SeriesMetadata → Task α} (h : ∀ m, m.ns = ns → Relates R R (act m)) :
    Relates B R (Remote.guarded now ref act) := by
  have apart : ∀ site site', B site site' → site.client.connections = site'.client.connections :=
    fun site site' related => carries.connections site site' (looks.between site site' related)
  have accessed : Relates B R (Remote.access now ref) :=
    Relates.connected_bind apart looks.between fun connections =>
      .bind_of (looks.looked connections ref hns) looks.between fun _ _ =>
        (Relates.pure _).weaken looks.between fun _ _ related => related
  refine .bind_of accessed (fun _ _ related => related) ?_
  rintro found ⟨site, answered⟩
  cases found with
  | live m => exact h m ((live_ns answered).trans hns)
  | unknown => exact .throw _
  | expired m =>
    exact .bind (carries.delete fun r inside => by rw [List.mem_singleton.mp inside, hns]) fun _ =>
      .throw _

/-- **Two runs of a call** on the namespace. -/
theorem perform (now : UInt64) (call : Call) :
    Relates (fun site site' => B site site' ∧ call.Concerns site.client.pending ns) R
      (Remote.perform now call) := by
  have after {α : Type} {task : Task α} (f : α → Answer)
      (h : ∀ site : Site Network, call.Concerns site.client.pending ns → Relates B R task) :
      Relates (fun site site' => B site site' ∧ call.Concerns site.client.pending ns) R
        (task >>= fun a => Pure.pure (f a)) := by
    rintro site site' ⟨related, concerns⟩
    exact Relates.bind_of (h site concerns) (fun _ _ related => related) (fun a _ => .pure (f a))
      site site' related
  have upon {α : Type} {task : Task α} (h : Relates R R task) : Relates B R task :=
    h.weaken looks.between fun _ _ related => related
  cases call with
  | connect => exact fun _ _ both => both.2.elim
  | clear => exact fun _ _ both => both.2.elim
  | create chances batch =>
    exact after _ fun _ concerns => upon (carries.create now chances concerns)
  | delete refs => exact after _ fun _ concerns => upon (carries.delete concerns)
  | flush req =>
    refine Relates.bind_of ((carries.flush req).weaken ?_ fun _ _ related => related)
      (fun _ _ related => related) fun a _ => .pure _
    exact fun site site' both => ⟨looks.between site site' both.1, both.2⟩
  | search query => exact after _ fun _ concerns => carries.search looks concerns
  | write ref req draws times values =>
    refine after _ fun _ concerns => ?_
    obtain rfl : ref.ns = ns := concerns
    exact carries.guarded looks now rfl fun m hns => carries.append req hns draws times values
  | read ref window =>
    exact after _ fun _ concerns =>
      carries.guarded looks now concerns fun m _ => carries.fetch concerns window

end Carries

end Remote

end SeriesStorage
