import SeriesStorage.Proofs.Remote.Leads
import SeriesStorage.Proofs.Remote.PairedRuns
import SeriesStorage.Proofs.Remote.WithoutPoints

/-!
# Backed caches

A cached descriptor is backed if loading it from its server would give the same.  A call on one
namespace keeps all cached descriptors backed, unless it is refused a command: a creation or a
deletion changes descriptors before the cache forgets them, and only a refused command stops it in
between.

* `execute_settled`: commands whose counts nobody expects are executed, refused, or not sent.
* `outcome_cachedMetadata`: where the cache is backed it does not matter which descriptors are
  cached.
* `leads_perform`: what a call leaves of a backed cache.
-/

namespace SeriesStorage

namespace Remote

open Server (Command Network Node Reply Request)

/-! ## Refused commands -/

/-- An answer that a server refused a command. -/
def Refuses {α : Type} (answer : Except Error α) : Prop :=
  ∃ text, answer = .error (.redis (.refused text))

/-- A refusal fails all that follows. -/
theorem Refuses.error {α β : Type} {e : Error} (h : Refuses (.error e : Except Error α)) :
    Refuses (.error e : Except Error β) := by
  obtain ⟨text, same⟩ := h
  obtain rfl := Except.error.inj same
  exact ⟨text, rfl⟩

/-- A server is there. -/
def There (server : Nat) (site : Site Network) : Prop :=
  ∃ node, site.world.nodes[server]? = some node

theorem gather_settled (replies : List (Except String Reply)) :
    (∃ all, Server.gather replies = .ok all ∧ all.length = replies.length) ∨
      ∃ text, Server.gather replies = .error (.refused text) := by
  induction replies with
  | nil => exact Or.inl ⟨[], rfl, rfl⟩
  | cons reply rest ih =>
    cases reply with
    | error text => exact Or.inr ⟨text, rfl⟩
    | ok reply =>
      rcases ih with ⟨all, gathered, same⟩ | ⟨text, refused⟩
      · exact Or.inl ⟨reply :: all, by simp [Server.gather, gathered, Except.map], by simp [same]⟩
      · exact Or.inr ⟨text, by simp [Server.gather, refused, Except.map]⟩

/-- A request to a server that is there gets a reply to each command, unless one is refused. -/
theorem There.request (server : Nat) (r : Request) :
    Leads (There server) (Remote.request server r >>= orFault) fun answer site =>
      There server site ∧
        ((∃ replies, answer = .ok replies ∧ replies.length = r.commands.length) ∨
          Refuses answer) := by
  rintro site ⟨node, found⟩
  have reaches : Reaches site [(defaultNamespace, ⟨server, true⟩)] defaultNamespace
    ⟨server, true⟩ node := ⟨rfl, found⟩
  rw [Site.outcome_bind, reaches.request r, Outcome.andThen_succeed, Site.outcome_orFault]
  refine ⟨⟨_, (reaches.setKeys _).node⟩, ?_⟩
  rcases gather_settled (Server.execAll (Server.exec node.password) r.commands node.keyspace).1 with
    ⟨all, gathered, same⟩ | ⟨text, refused⟩
  · exact Or.inl ⟨all, congrArg (Except.mapError Error.redis) gathered,
      same.trans (Server.length_execAll _ _ _)⟩
  · exact Or.inr ⟨text, congrArg (Except.mapError Error.redis) refused⟩

section Execute

variable {commands : List StagedCommand} (unchecked : ∀ staged ∈ commands, staged.expected = none)

include unchecked

theorem There.executeTogether (server : Nat) :
    Leads (There server) (executeTogether server commands) fun answer _ =>
      answer = .ok (expectedTotal commands) ∨ Refuses answer := by
  unfold Remote.executeTogether
  rw [← bind_assoc]
  refine Leads.bind (There.request server _) (fun e site h => Or.inr ?_) fun replies => ?_
  · obtain ⟨_, ⟨_, impossible, _⟩ | refused⟩ := h
    · cases impossible
    · exact refused.error
  · rw [reportedTotal_unchecked unchecked]
    exact Leads.orFault fun _ _ => Or.inl rfl

theorem There.executeSingly (server : Nat) :
    Leads (There server) (executeSingly server commands) fun answer _ =>
      answer = .ok (expectedTotal commands) ∨ Refuses answer := by
  induction commands with
  | nil => exact Leads.pure fun _ _ => Or.inl rfl
  | cons staged rest ih =>
    have rest_unchecked := fun s inside => unchecked s (List.mem_cons_of_mem _ inside)
    unfold Remote.executeSingly
    rw [← bind_assoc]
    refine Leads.bind (There.request server _) (fun e site h => Or.inr ?_) fun replies => ?_
    · obtain ⟨_, ⟨_, impossible, _⟩ | refused⟩ := h
      · cases impossible
      · exact refused.error
    · rintro site ⟨there, ⟨_, same, one⟩ | ⟨_, impossible⟩⟩
      · obtain rfl := Except.ok.inj same
        obtain ⟨reply, rfl⟩ := List.length_eq_one_iff.mp one
        have alone : ∀ s ∈ [staged], s.expected = none := fun s inside =>
          unchecked s (List.mem_cons.mpr (Or.inl (List.mem_singleton.mp inside)))
        have first : reportedTotal [(staged, reply)] = .ok (expectedTotal [staged]) :=
          reportedTotal_unchecked alone [reply]
        have counted : expectedTotal (staged :: rest) =
          expectedTotal [staged] + expectedTotal rest := expectedTotal_append [staged] rest
        have read : site.outcome (orFault (only [reply])) = .succeed reply site := rfl
        have added : site.outcome (orFault (reportedTotal [(staged, reply)])) =
            .succeed (expectedTotal [staged]) site := by rw [first]; rfl
        rw [Site.outcome_bind, read, Outcome.andThen_succeed, Site.outcome_bind, added,
          Outcome.andThen_succeed, counted]
        refine Leads.bind (Q := fun answer _ =>
          answer = .ok (expectedTotal [staged] + expectedTotal rest) ∨ Refuses answer)
          (ih rest_unchecked) (fun e _ h => ?_) (fun n => ?_) site there
        · obtain impossible | refused := h
          · cases impossible
          · exact Or.inr refused.error
        · refine Leads.pure fun _ h => ?_
          obtain same | ⟨_, impossible⟩ := h
          · rw [Except.ok.inj same]
            exact Or.inl rfl
          · cases impossible
      · cases impossible

end Execute

/-- Commands whose counts nobody expects are executed, or refused, or not sent at all. -/
theorem execute_settled (site : Site Network) (connections : Connections) (ns : Namespace)
    {commands : List StagedCommand} (unchecked : ∀ staged ∈ commands, staged.expected = none) :
    let outcome := site.outcome (execute connections ns commands)
    outcome.answer = .ok () ∨ Refuses outcome.answer ∨ outcome.state = site := by
  intro outcome
  unfold outcome
  rw [execute_eq]
  split
  · exact Or.inl rfl
  · next some =>
    rw [Site.outcome_bind, Site.outcome_ofExcept]
    cases route : connections.route ns with
    | error e => exact Or.inr (Or.inr rfl)
    | ok c =>
      rw [Outcome.andThen_eq_of_ok rfl, Outcome.state_answered]
      cases found : site.world.nodes[c.server]? with
      | some node =>
        have sent : Leads (There c.server) (sendAll c commands) fun answer _ =>
            answer = .ok (expectedTotal commands) ∨ Refuses answer := by
          unfold sendAll
          split
          · exact There.executeTogether unchecked c.server
          · exact There.executeSingly unchecked c.server
        refine (Leads.bind (Q := fun answer _ => answer = .ok () ∨ Refuses answer) sent
          (fun e _ h => ?_) (fun n => ?_) site ⟨node, found⟩).imp_right Or.inl
        · exact h.imp nofun Refuses.error
        · intro last h
          obtain rfl := Except.ok.inj (h.resolve_right nofun)
          unfold checkCount
          rw [if_neg (by simp)]
          exact Or.inl rfl
      | none =>
        have unsent := Site.outcome_request_absent found
        have failed : site.outcome (sendAll c commands) =
            .fail (.redis (.io "Connection reset")) site := by
          unfold sendAll executeTogether
          split
          · rw [Site.outcome_bind, unsent]
            rfl
          · cases commands with
            | nil => exact absurd rfl some
            | cons staged rest =>
              unfold executeSingly
              rw [Site.outcome_bind, unsent]
              rfl
        rw [Site.outcome_bind, failed]
        exact Or.inr (Or.inr rfl)

/-! ## Backed descriptors -/

/-- Loading the descriptor of a series would give this one. -/
def Backed (site : Site Network) (ref : SeriesRef) (m : SeriesMetadata) : Prop :=
  ∃ connections, site.client.connections = some connections ∧
    (site.outcome (loadMetadata connections ref)).answer = .ok (some m)

/-- Every cached descriptor is backed, but for those of some series. -/
def BackedBut (gone : SeriesRef → Prop) (site : Site Network) : Prop :=
  ∀ ref m, site.client.cache.get? ref = some m → gone ref ∨ Backed site ref m

/-- Every cached descriptor is backed. -/
def CacheBacked (site : Site Network) : Prop :=
  ∀ ref m, site.client.cache.get? ref = some m → Backed site ref m

theorem CacheBacked.but {site : Site Network} (h : CacheBacked site) (gone : SeriesRef → Prop) :
    BackedBut gone site := fun ref m found => Or.inr (h ref m found)

/-- What is loaded depends on the key of the descriptor only. -/
theorem loadMetadata_agree {P : String → Prop} {site site' : Site Network}
    (h : site.world.AgreesOn P site'.world) {ref : SeriesRef} (named : P (Key.descriptor ref))
    (connections : Connections) :
    (site.outcome (loadMetadata connections ref)).answer =
      (site'.outcome (loadMetadata connections ref)).answer := by
  have asked : ∀ server, Relates (fun s s' : Site Network => s.world.AgreesOn P s'.world)
      (fun s s' => s.world.AgreesOn P s'.world)
      (request server (.single (.get (Key.descriptor ref)))) := by
    intro server s s' agrees
    obtain ⟨answer, after⟩ := Server.Network.serve_agree agrees server
      (.single (.get (Key.descriptor ref))) fun command inside key hkey => by
        obtain rfl := List.mem_singleton.mp inside
        obtain rfl := List.mem_singleton.mp hkey
        exact named
    exact ⟨congrArg Except.ok answer, after⟩
  exact (Relates.loadMetadata asked connections site site' h).1

theorem Backed.agree {P : String → Prop} {site site' : Site Network} {ref : SeriesRef}
    {m : SeriesMetadata} (h : Backed site ref m)
    (connections : site.client.connections = site'.client.connections)
    (world : site.world.AgreesOn P site'.world) (named : P (Key.descriptor ref)) :
    Backed site' ref m := by
  obtain ⟨own, here, loads⟩ := h
  exact ⟨own, connections.symm.trans here, (loadMetadata_agree world named own).symm.trans loads⟩

/-- A command changes no descriptor, but for those of some series. -/
def KeepsBut (gone : SeriesRef → Prop) (command : Command) : Prop :=
  ∀ ref, ¬ gone ref → ¬ command.Changes (Key.descriptor ref)

theorem keepsBut_of_key {gone : SeriesRef → Prop} {command : Command} (k : KeyName)
    (other : ∀ ref, ¬ gone ref → k ≠ .descriptor ref) (named : command.keys = [k.text]) :
    KeepsBut gone command := by
  intro ref stays changes
  have inside := changes.mem_keys (by rintro rfl; cases named)
  rw [named] at inside
  exact KeyName.text_ne (other ref stays) (List.mem_singleton.mp inside).symm

theorem registration_keeps (m : SeriesMetadata) :
    ∀ staged ∈ registration m, KeepsBut (· ∈ [m.ref]) staged.command := by
  intro staged inside
  simp only [registration, List.mem_cons, List.mem_map] at inside
  obtain rfl | rfl | ⟨tag, _, rfl⟩ := inside
  · exact keepsBut_of_key (.name m.ns m.name) (by simp) rfl
  · refine keepsBut_of_key (.descriptor m.ref) (fun ref stays same => stays ?_) rfl
    rw [KeyName.descriptor.inj same]
    exact List.mem_singleton_self _
  · exact keepsBut_of_key (.tag m.ns tag) (by simp) rfl

theorem removal_keeps (m : SeriesMetadata) :
    ∀ staged ∈ removal m, KeepsBut (· = m.ref) staged.command := by
  intro staged inside
  simp only [removal, List.mem_cons, List.mem_map] at inside
  obtain rfl | ⟨tag, _, rfl⟩ := inside
  · intro ref stays changes
    rcases List.mem_cons.mp (changes.mem_keys fun flush => by cases flush) with
      same | inside
    · have same : (KeyName.descriptor ref).text = (KeyName.name m.ns m.name).text := same
      cases KeyName.text_inj.mp same
    · have same : (KeyName.descriptor ref).text = (KeyName.descriptor m.ref).text :=
        List.mem_singleton.mp inside
      exact stays (KeyName.descriptor.inj (KeyName.text_inj.mp same))
  · exact keepsBut_of_key (.tag m.ns tag) (by simp) rfl

namespace Preserves

variable {gone : SeriesRef → Prop}

theorem backedBut_request (server : Nat) (r : Request)
    (keeps : ∀ command ∈ r.commands, KeepsBut gone command) :
    Preserves (BackedBut gone) (request server r) := by
  intro site backed ref m found
  refine (Classical.em (gone ref)).imp_right fun stays => ?_
  have kept : Backed site ref m := (backed ref m found).resolve_left stays
  refine kept.agree rfl (site.world.serve_leaves server r (P := fun key =>
    ∃ ref, ¬ gone ref ∧ Key.descriptor ref = key) fun command inside key named => ?_)
    ⟨ref, stays, rfl⟩
  obtain ⟨other, others, rfl⟩ := named
  exact keeps command inside other others

theorem backedBut_execute (connections : Connections) (ns : Namespace)
    {commands : List StagedCommand} (keeps : ∀ staged ∈ commands, KeepsBut gone staged.command) :
    Preserves (BackedBut gone) (Remote.execute connections ns commands) :=
  execute backedBut_request connections ns keeps

end Preserves

/-- The client changes, but not its connections, and it forgets descriptors. -/
theorem BackedBut.forget {gone : SeriesRef → Prop} {site : Site Network} (h : BackedBut gone site)
    {client : Client} (connections : client.connections = site.client.connections)
    (cache : ∀ ref m, client.cache.get? ref = some m →
      ¬ gone ref ∧ site.client.cache.get? ref = some m) : CacheBacked { site with client } := by
  intro ref m found
  obtain ⟨stays, before⟩ := cache ref m found
  have backed : Backed site ref m := (h ref m before).resolve_left stays
  exact backed.agree connections.symm (.refl (fun _ => True) _) trivial

/-- What else the client keeps does not matter. -/
theorem CacheBacked.onClient {site : Site Network} (h : CacheBacked site) {client : Client}
    (connections : client.connections = site.client.connections)
    (cache : client.cache = site.client.cache) : CacheBacked { site with client } :=
  (h.but fun _ => False).forget connections fun _ _ found => ⟨id, cache ▸ found⟩

/-- **Looking a descriptor up.**  Where the cache is backed it does not matter which descriptors it
keeps. -/
theorem outcome_cachedMetadata {site : Site Network} (backed : CacheBacked site)
    {connections : Connections} (own : site.client.connections = some connections)
    (ref : SeriesRef) :
    ∃ cache, site.outcome (cachedMetadata connections ref) =
        .answered (site.outcome (loadMetadata connections ref)).answer
          { site with client := { site.client with cache } } ∧
      CacheBacked { site with client := { site.client with cache } } := by
  have remembered : ∀ m, (site.outcome (loadMetadata connections ref)).answer = .ok (some m) →
      CacheBacked { site with
        client := { site.client with cache := site.client.cache.insert ref m } } := by
    intro m loads ref' m' found
    have before : Backed site ref' m' := by
      rcases Cache.get?_of_insert found with ⟨rfl, rfl⟩ | found
      · exact ⟨connections, own, loads⟩
      · exact backed ref' m' found
    exact before.agree rfl (.refl (fun _ => True) _) trivial
  unfold cachedMetadata
  rw [Site.outcome_bind, Site.outcome_get, Outcome.andThen_succeed]
  cases cached : site.client.cache.get? ref with
  | some m =>
    obtain ⟨own', here, loads⟩ := backed ref m cached
    obtain rfl := Option.some.inj (own.symm.trans here)
    exact ⟨_, by rw [loads]; rfl, remembered m loads⟩
  | none =>
    have unchanged := loadMetadata_unchanged site connections ref site rfl
    have loaded : site.outcome (loadMetadata connections ref) =
        .answered (site.outcome (loadMetadata connections ref)).answer site :=
      congrArg (Outcome.answered _) unchanged
    rw [Site.outcome_bind, loaded]
    cases answer : (site.outcome (loadMetadata connections ref)).answer with
    | error e => exact ⟨site.client.cache, rfl, backed⟩
    | ok found =>
      cases found with
      | none => exact ⟨site.client.cache, rfl, backed⟩
      | some m => exact ⟨_, rfl, remembered m answer⟩

/-! ## What calls leave of a backed cache -/

/-- From a backed cache a task leads to a backed cache, unless it is refused a command. -/
def Backs {α : Type} (task : Task α) : Prop :=
  Leads CacheBacked task fun answer site => CacheBacked site ∨ Refuses answer

namespace Backs

variable {α β : Type}

theorem of_preserves {task : Task α} (h : Preserves CacheBacked task) : Backs task :=
  fun site backed => Or.inl (h site backed)

theorem bind {task : Task α} {f : α → Task β} (h : Backs task) (hf : ∀ a, Backs (f a)) :
    Backs (task >>= f) :=
  Leads.bind h (fun _ _ left => left.imp_right Refuses.error) fun a =>
    (hf a).weaken fun _ left => left.resolve_right nofun

theorem connected_bind {f : Connections → Task α}
    (h : ∀ connections, Leads (fun site => CacheBacked site ∧
      site.client.connections = some connections) (f connections)
      fun answer site => CacheBacked site ∨ Refuses answer) :
    Backs (Remote.connected >>= f) :=
  Leads.connected_bind (fun _ backed _ => Or.inl backed) h

/-- Requests that change no descriptor. -/
theorem request (server : Nat) (r : Request)
    (keeps : ∀ command ∈ r.commands, KeepsBut (fun _ => False) command) :
    Preserves CacheBacked (request server r) := by
  intro site backed ref m found
  have kept := Preserves.backedBut_request server r keeps site (backed.but _)
  exact (kept ref m found).resolve_left id

theorem keylessRequest (server : Nat) (r : Request)
    (h : ∀ command ∈ r.commands, ∀ key, ¬ command.Changes key) :
    Preserves CacheBacked (Remote.request server r) :=
  request server r fun command inside _ _ => h command inside _

theorem ask {command : Command} (keeps : KeepsBut (fun _ => False) command)
    (connections : Connections) (ns : Namespace) (read : Reply → Except Fault α) :
    Preserves CacheBacked (Remote.ask connections ns command read) :=
  .askOne request keeps connections ns read

theorem lookupName (connections : Connections) (ns : Namespace) (n : String) :
    Preserves CacheBacked (Remote.lookupName connections ns n) :=
  .lookupName keylessRequest connections ns n

theorem cachedMetadata (connections : Connections) (ref : SeriesRef) :
    Leads (fun site => CacheBacked site ∧ site.client.connections = some connections)
      (Remote.cachedMetadata connections ref) fun _ site => CacheBacked site := by
  rintro site ⟨backed, own⟩
  obtain ⟨cache, found, after⟩ := outcome_cachedMetadata backed own ref
  rw [found]
  exact after

/-! ### Creating and deleting -/

/-- Descriptors are changed, and then the cache forgets them. -/
theorem execute_invalidate (connections : Connections) (ns : Namespace)
    {commands : List StagedCommand} (unchecked : ∀ staged ∈ commands, staged.expected = none)
    (refs : List SeriesRef) (keeps : ∀ staged ∈ commands, KeepsBut (· ∈ refs) staged.command) :
    Backs (Remote.execute connections ns commands >>= fun _ => invalidate refs) := by
  intro site backed
  have settled := execute_settled site connections ns unchecked
  have kept := Preserves.backedBut_execute connections ns keeps site (backed.but _)
  rw [Site.outcome_bind]
  cases answer : (site.outcome (Remote.execute connections ns commands)).answer with
  | ok done =>
    rw [Outcome.andThen_eq_of_ok answer]
    exact Or.inl (kept.forget rfl fun ref m found => Cache.get?_of_invalidate found)
  | error e =>
    rw [Outcome.andThen_eq_of_error answer]
    dsimp only at settled
    rw [answer] at settled
    rcases settled with impossible | refused | same
    · cases impossible
    · exact Or.inr refused.error
    · rw [same]
      exact Or.inl backed

theorem withLock (connections : Connections) (ns : Namespace) (n : String) (chance : LockChance)
    {task : Task α} (h : Backs task) :
    Backs (Remote.withLock connections ns (Key.lock (Key.name ns n)) chance task) := by
  have locks {command : Command} (named : command.keys = [Key.lock (Key.name ns n)]) :
      KeepsBut (fun _ => False) command :=
    keepsBut_of_key (.lock ns n) (fun _ _ => nofun) named
  refine bind (of_preserves .get) fun client => bind (of_preserves
    (.obtain (ask (locks rfl) _ _ _) _)) fun _ => Leads.attempt_bind h fun result site left => ?_
  rw [Site.outcome_bind, Site.outcome_attempt, Outcome.andThen_succeed, Site.outcome_ofExcept]
  refine left.imp_left fun backed => ?_
  exact ask (locks rfl) connections ns _ site backed

theorem createOne (connections : Connections) (now : UInt64) (chance : LockChance)
    (input : SeriesInput) : Backs (Remote.createOne connections now chance input) := by
  refine bind (of_preserves (lookupName _ _ _)) fun known => ?_
  cases known with
  | some known => exact of_preserves (.pure _)
  | none =>
    refine withLock _ _ _ _ (bind (of_preserves (lookupName _ _ _)) fun taken => ?_)
    cases taken with
    | some taken => exact of_preserves (.pure _)
    | none =>
      refine bind (of_preserves (ask ?_ _ _ _)) fun number => ?_
      · exact keepsBut_of_key (.counter input.ns) (fun _ _ => nofun) rfl
      rw [← bind_assoc]
      refine bind (execute_invalidate _ _ ?_ _ ?_) fun _ => of_preserves (.pure _)
      · exact registration_unchecked _
      · exact registration_keeps _

theorem create (now : UInt64) (chances : LockChances) (batch : CreateBatch) :
    Backs (Remote.create now chances batch) := by
  refine bind (of_preserves .connected) fun connections => ?_
  suffices ∀ i, Backs (createFrom connections now chances i batch) from this 0
  induction batch with
  | nil => exact fun _ => of_preserves (.pure _)
  | cons entry rest ih =>
    exact fun i => bind (createOne connections now _ entry.2) fun _ =>
      bind (ih (i + 1)) fun _ => of_preserves (.pure _)

theorem delete {ns : Namespace} {refs : List SeriesRef} (hns : ∀ ref ∈ refs, ref.ns = ns) :
    Backs (Remote.delete refs) := by
  refine bind (of_preserves .connected) fun connections => ?_
  intro site backed
  rw [Site.outcome_bind]
  have unchanged := loadBatch_unchanged site connections refs site rfl
  cases loaded : (site.outcome (loadBatch connections refs)).answer with
  | error e =>
    rw [Outcome.andThen_eq_of_error loaded, unchanged]
    exact Or.inl backed
  | ok metas =>
    rw [Outcome.andThen_eq_of_ok loaded, unchanged]
    have own : ∀ m ∈ metas, m.ns = ns := by
      intro m hm
      obtain ⟨ref, href, same, _⟩ := exists_left_of_forall₂ (loadBatch_ok loaded) hm
      exact same.trans (hns ref href)
    rw [executeRemovals_one connections own]
    refine execute_invalidate connections ns ?_ _ ?_ site backed
    · intro staged inside
      obtain ⟨m, _, inside⟩ := List.mem_flatMap.mp inside
      exact removal_unchecked m staged inside
    · intro staged inside
      obtain ⟨m, hm, inside⟩ := List.mem_flatMap.mp inside
      intro ref stays
      exact removal_keeps m staged inside ref fun same =>
        stays (List.mem_map.mpr ⟨m, hm, same.symm⟩)

/-! ### Looking up -/

theorem search (query : Search) : Backs (Remote.search query) := by
  refine bind (of_preserves (.ofExcept _)) fun _ => connected_bind fun connections => ?_
  rintro site ⟨backed, own⟩
  have unchanged :
      (site.outcome (Remote.lookupName connections query.ns query.name)).state = site :=
    Preserves.bind (Preserves.ask_get site _ _ _ _) (fun _ => Preserves.pure _) site rfl
  rw [Site.outcome_bind]
  cases known : (site.outcome (Remote.lookupName connections query.ns query.name)).answer with
  | error e =>
    rw [Outcome.andThen_eq_of_error known, unchanged]
    exact Or.inl backed
  | ok id =>
    rw [Outcome.andThen_eq_of_ok known, unchanged]
    cases id with
    | none => exact Or.inl backed
    | some id =>
      refine Leads.bind (Q := fun answer site => CacheBacked site ∨ Refuses answer)
        (cachedMetadata connections ⟨query.ns, id⟩) (fun _ _ after => Or.inl after)
        (fun found => ?_) site ⟨backed, own⟩
      cases found with
      | none => exact of_preserves (.throw _)
      | some m => exact of_preserves (.pure _)

theorem guarded (now : UInt64) (ref : SeriesRef) {act : SeriesMetadata → Task α}
    (h : ∀ m, Backs (act m)) : Backs (Remote.guarded now ref act) := by
  have accessed : Backs (Remote.access now ref) := by
    refine connected_bind fun connections => ?_
    exact Leads.bind (cachedMetadata connections ref) (fun _ _ after => Or.inl after)
      fun _ => of_preserves (.pure _)
  refine bind accessed fun found => ?_
  cases found with
  | live m => exact h m
  | unknown => exact of_preserves (.throw _)
  | expired m =>
    exact bind (delete fun r inside => by rw [List.mem_singleton.mp inside]) fun _ =>
      of_preserves (.throw _)

/-! ### Points -/

/-- Commands that change keys of points only. -/
theorem onPoints {command : Command} (h : OnPoints command) : KeepsBut (fun _ => False) command :=
  fun ref _ => h (.descriptor ref) fun _ _ => nofun

/-- Requests that change keys of points only. -/
theorem pointsRequest (server : Nat) (r : Request) (h : ∀ command ∈ r.commands, OnPoints command) :
    Preserves CacheBacked (Remote.request server r) :=
  request server r fun command inside => onPoints (h command inside)

theorem append (ns : Namespace) (req : RequestId) (m : SeriesMetadata) (draws : Draws)
    (times : List UInt64) (values : List Binary64) :
    Preserves CacheBacked (Remote.append ns req m draws times values) :=
  .append pointsRequest (fun _ => stagePoints_onPoints) fun _ _ _ backed => backed.onClient rfl rfl

theorem flush (req : RequestId) :
    Leads (fun site => CacheBacked site ∧ WellStaged site.client.pending)
      (Remote.flush req) fun _ site => CacheBacked site := by
  have kept : Preserves (fun site => CacheBacked site ∧ WellStaged site.client.pending)
      (Remote.flush req) := by
    refine .flush (fun server r h site both => ⟨pointsRequest server r h site both.1, both.2⟩)
      (fun site both req writes found entry inside staged staging => ?_)
      (fun req site both => ⟨both.1.onClient rfl rfl, both.2.remove req⟩) req
    exact (both.2.stages req writes found entry inside staged staging).2
  exact fun site both => (kept site both).1

theorem fetch (ref : SeriesRef) (window : Window) :
    Preserves CacheBacked (Remote.fetch ref window) :=
  .fetch keylessRequest ref window

end Backs

/-- **A call** on one namespace keeps the cache backed, unless it is refused a command. -/
theorem leads_perform (ns : Namespace) (now : UInt64) (call : Call) :
    Leads (fun site => CacheBacked site ∧ WellStaged site.client.pending ∧
        call.Concerns site.client.pending ns)
      (Remote.perform now call) fun answer site => CacheBacked site ∨ Refuses answer := by
  have after {α : Type} {task : Task α} (f : α → Answer)
      (h : ∀ site : Site Network, call.Concerns site.client.pending ns → Backs task) :
      Leads (fun site => CacheBacked site ∧ WellStaged site.client.pending ∧
          call.Concerns site.client.pending ns)
        (task >>= fun a => pure (f a)) fun answer site => CacheBacked site ∨ Refuses answer := by
    rintro site ⟨backed, _, concerns⟩
    exact (h site concerns).bind (fun a => .of_preserves (.pure (f a))) site backed
  cases call with
  | connect => exact fun _ left => left.2.2.elim
  | clear => exact fun _ left => left.2.2.elim
  | create chances batch => exact after _ fun _ _ => .create now chances batch
  | delete refs => exact after _ fun _ concerns => .delete concerns
  | flush req =>
    refine Leads.bind ((Backs.flush req).weaken fun _ left => ⟨left.1, left.2.1⟩)
      (fun _ _ backed => Or.inl backed) fun _ => Backs.of_preserves (.pure _)
  | search query => exact after _ fun _ _ => .search query
  | write ref req draws times values =>
    exact after _ fun _ _ => .guarded now ref fun m => .of_preserves (Backs.append _ _ _ _ _ _)
  | read ref window =>
    exact after _ fun _ _ => .guarded now ref fun m => .of_preserves (Backs.fetch _ _)

end Remote

end SeriesStorage
