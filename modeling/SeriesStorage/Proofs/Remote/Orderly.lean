import SeriesStorage.Proofs.Remote.StoringPoints
import SeriesStorage.Proofs.Remote.WithoutPoints

/-!
# Servers in order

A server is in order if its keys hold a well-formed catalogue for every namespace and no creation
lock is left (`Orderly`).  Whatever a client does keeps all servers in order, and no descriptor
changes unless its series is deleted (`Evolves`).

* `Preserves.since_create`, `Preserves.since_append` and their like: what each call preserves.
-/

namespace SeriesStorage

namespace Remote

open Server (Command Keyspace Network Node Reply Request)

/-! ## Servers in order -/

/-- The keys of a server hold a catalogue of every namespace, and no lock. -/
def Orderly (ks : Keyspace) : Prop :=
  ∀ ns, Unlocked ks ns ∧ ∃ cat : Catalogue, cat.WellFormed ns ∧ Holds ks ns cat

/-- Descriptors stay as they are, but for those of some series. -/
def Retains (gone : SeriesRef → Prop) (ks ks' : Keyspace) : Prop :=
  ∀ ref e, ¬ gone ref → ks.get? (Key.descriptor ref) = some e →
    ks'.get? (Key.descriptor ref) = some e

theorem orderly_empty : Orderly .empty := fun ns =>
  ⟨fun _ => rfl, .empty, Catalogue.wellFormed_empty ns, holds_empty ns⟩

variable {ks ks' last : Keyspace} {gone : SeriesRef → Prop}

theorem Retains.refl (ks : Keyspace) : Retains gone ks ks := fun _ _ _ h => h

theorem Retains.trans (h : Retains gone ks ks') (h' : Retains gone ks' last) :
    Retains gone ks last :=
  fun ref e there found => h' ref e there (h ref e there found)

/-- Keys other than those of points are left alone. -/
def DataOnly (ks ks' : Keyspace) : Prop :=
  ∀ k : KeyName, (∀ ref bucket, k ≠ .data ref bucket) → ks'.get? k.text = ks.get? k.text

theorem Orderly.dataOnly (h : Orderly ks) (same : DataOnly ks ks') : Orderly ks' := by
  intro ns
  obtain ⟨unlocked, cat, wf, holds⟩ := h ns
  refine ⟨fun n => (same (.lock ns n) (by simp)).trans (unlocked n), cat, wf,
    holds.congr fun k hk => same k ?_⟩
  rintro ref bucket rfl
  exact hk

theorem DataOnly.retains (same : DataOnly ks ks') : Retains gone ks ks' :=
  fun ref _ _ found => (same (.descriptor ref) (by simp)).trans found

/-- One namespace changes its catalogue. -/
theorem Orderly.confined (h : Orderly ks) {ns : Namespace} {cat : Catalogue}
    (wf : cat.WellFormed ns) (holds : Holds ks' ns cat) (confined : Confined ns ks ks') :
    Orderly ks' := by
  intro ns'
  obtain ⟨unlocked, cat', wf', holds'⟩ := h ns'
  refine ⟨fun n => (confined (.lock ns' n) (by exact id)).trans (unlocked n), ?_⟩
  by_cases same : ns' = ns
  · subst same
    exact ⟨cat, wf, holds⟩
  · exact ⟨cat', wf', holds'.confined confined same⟩

/-- The descriptors of other namespaces stay, and those that the catalogue keeps. -/
theorem Confined.retains {ns : Namespace} {cat cat' : Catalogue} (confined : Confined ns ks ks')
    (before : Holds ks ns cat) (after : Holds ks' ns cat')
    (kept : ∀ id m, ¬ gone ⟨ns, id⟩ → cat.records id = some m → cat'.records id = some m) :
    Retains gone ks ks' := by
  intro ref e there found
  by_cases same : ref.ns = ns
  · obtain ⟨_, id⟩ := ref
    subst same
    rw [before.records] at found
    rw [after.records]
    cases record : cat.records id with
    | none =>
      rw [record] at found
      cases found
    | some m =>
      rw [kept id m there record, ← record]
      exact found
  · exact (confined (.descriptor ref) same).trans found

/-! ## Networks in order -/

/-- The servers are those of before, they are in order, and descriptors stayed as they were, but for
those of some series. -/
structure Evolves (gone : SeriesRef → Prop) (net net' : Network) : Prop where
  size : net'.nodes.length = net.nodes.length
  each : ∀ (i : Nat) (node node' : Node), net.nodes[i]? = some node → net'.nodes[i]? = some node' →
    Orderly node'.keyspace ∧ Retains gone node.keyspace node'.keyspace

/-- All servers are in order. -/
def InOrder (net : Network) : Prop :=
  ∀ (i : Nat) (node : Node), net.nodes[i]? = some node → Orderly node.keyspace

variable {net net' : Network}

theorem InOrder.evolves (h : InOrder net) : Evolves gone net net where
  size := rfl
  each := by
    intro i node node' hnode hnode'
    obtain rfl := Option.some.inj (hnode.symm.trans hnode')
    exact ⟨h i node hnode, .refl _⟩

theorem Evolves.inOrder (h : Evolves gone net net') : InOrder net' := by
  intro i node' hnode'
  have inside : i < net.nodes.length := by
    rw [← h.size]
    exact (List.getElem?_eq_some_iff.mp hnode').1
  exact (h.each i _ node' (List.getElem?_eq_getElem inside) hnode').1

theorem Evolves.mono {gone' : SeriesRef → Prop} (h : Evolves gone net net')
    (more : ∀ ref, gone ref → gone' ref) : Evolves gone' net net' where
  size := h.size
  each := by
    intro i node node' hnode hnode'
    obtain ⟨orderly, retains⟩ := h.each i node node' hnode hnode'
    exact ⟨orderly, fun ref e there => retains ref e fun g => there (more ref g)⟩

theorem Evolves.trans {net'' : Network} (h : Evolves gone net net') (h' : Evolves gone net' net'') :
    Evolves gone net net'' where
  size := h'.size.trans h.size
  each := by
    intro i node node'' hnode hnode''
    have inside : i < net'.nodes.length := by
      rw [h.size]
      exact (List.getElem?_eq_some_iff.mp hnode).1
    have between := List.getElem?_eq_getElem inside
    obtain ⟨orderly, retains⟩ := h'.each i _ node'' between hnode''
    exact ⟨orderly, (h.each i node _ hnode between).2.trans retains⟩

/-- One server changes its keys. -/
theorem Evolves.setKeys (h : Evolves gone net net') {i : Nat} {node : Node}
    (hnode : net'.nodes[i]? = some node) {ks : Keyspace} (orderly : Orderly ks)
    (retains : Retains gone node.keyspace ks) : Evolves gone net (net'.setKeys i ks) where
  size := by
    show (net'.nodes.modify i _).length = _
    rw [List.length_modify, h.size]
  each := by
    intro k first last hfirst hlast
    change (net'.nodes.modify i _)[k]? = some last at hlast
    rw [List.getElem?_modify] at hlast
    split at hlast
    · next same =>
      subst same
      rw [hnode] at hlast
      obtain rfl := Option.some.inj hlast
      exact ⟨orderly, (h.each i first node hfirst hnode).2.trans retains⟩
    · exact h.each k first last hfirst (by simpa using hlast)

/-! ## What calls preserve -/

/-- A command changes no keys but those of points. -/
def OnPoints (command : Command) : Prop :=
  ∀ k : KeyName, (∀ ref bucket, k ≠ .data ref bucket) → ¬ command.Changes k.text

/-- Only points wait for a flush. -/
def PointsOnly (pending : Pending) : Prop :=
  ∀ req writes, pending.writes? req = some writes → ∀ entry ∈ writes.entries,
    ∀ staged ∈ entry.2, OnPoints staged.command

/-- The servers evolve since a network, and only points are staged. -/
structure Since (gone : SeriesRef → Prop) (net₀ : Network) (site : Site Network) : Prop where
  evolves : Evolves gone net₀ site.world
  staged : PointsOnly site.client.pending

variable {net₀ : Network}

theorem Since.mono {gone' : SeriesRef → Prop} {site : Site Network} (h : Since gone net₀ site)
    (more : ∀ ref, gone ref → gone' ref) : Since gone' net₀ site :=
  ⟨h.evolves.mono more, h.staged⟩

theorem PointsOnly.stage {pending : Pending} (h : PointsOnly pending) (req : RequestId)
    (ns : Namespace) {more : List StagedCommand}
    (hmore : ∀ staged ∈ more, OnPoints staged.command) :
    PointsOnly (pending.stage req ns more) :=
  Pending.forall_stage (E := fun _ entry => ∀ staged ∈ entry.2, OnPoints staged.command) h hmore
    fun _ old => List.forall_mem_append.mpr ⟨old, hmore⟩

theorem PointsOnly.remove {pending : Pending} (h : PointsOnly pending) (req : RequestId) :
    PointsOnly (pending.remove req) :=
  fun req' writes found => h req' writes (Pending.writes?_of_remove found)

/-- What is staged for points changes their keys only. -/
theorem stagePoints_onPoints {m : SeriesMetadata} {draws : Draws} {times : List UInt64}
    {values : List Binary64} {commands : List StagedCommand}
    (h : stagePoints m draws times values = .ok commands) :
    ∀ staged ∈ commands, OnPoints staged.command := by
  intro staged inside k other changes
  obtain ⟨bucket, ⟨added, rfl⟩ | ⟨second, rfl⟩⟩ := stagePoints_cases h staged inside
  · exact KeyName.text_ne (k := .data m.ref bucket) (other m.ref bucket).symm changes
  · exact KeyName.text_ne (k := .data m.ref bucket) (other m.ref bucket).symm changes

namespace Preserves

/-- Requests that change keys of points only, or none. -/
theorem since_request (server : Nat) (r : Request) (h : ∀ command ∈ r.commands, OnPoints command) :
    Preserves (Since gone net₀) (request server r) := by
  intro site since
  rw [Site.outcome_request]
  refine ⟨?_, since.staged⟩
  show Evolves gone net₀ (site.world.serve server r).2
  unfold Network.serve
  cases found : site.world.nodes[server]? with
  | none => exact since.evolves
  | some node =>
    have same : DataOnly node.keyspace (r.exec node.password node.keyspace).2 := fun k hk =>
      Server.get?_execAll node.password r.commands node.keyspace k.text fun c hc => h c hc k hk
    exact since.evolves.setKeys found ((since.evolves.inOrder server node found).dataOnly same)
      same.retains

theorem since_dial (address : String) (port : UInt16) :
    Preserves (Since gone net₀) (Task.ofSession (.dial address port .done)) := fun _ h => h

/-- What else the client keeps does not matter. -/
theorem since_modify {f : Client → Client} (h : ∀ client, (f client).pending = client.pending) :
    Preserves (Since gone net₀) (modify f : Task Unit) := by
  intro site since
  rw [Site.outcome_modify]
  exact ⟨since.evolves, by
    rw [Outcome.state_succeed, h]
    exact since.staged⟩

/-- Requests that change no key. -/
theorem since_keyless (server : Nat) (r : Request)
    (h : ∀ command ∈ r.commands, ∀ key, ¬ command.Changes key) :
    Preserves (Since gone net₀) (request server r) :=
  since_request server r fun command inside k _ => h command inside k.text

theorem since_connect : Preserves (Since gone net₀) Remote.connect :=
  connect since_dial since_keyless fun _ => since_modify fun _ => rfl

/-! ### Looking up and creating -/

theorem since_cachedMetadata (connections : Connections) (ref : SeriesRef) :
    Preserves (Since gone net₀) (Remote.cachedMetadata connections ref) :=
  cachedMetadata since_keyless (fun _ => since_modify fun _ => rfl) connections ref

theorem since_search (query : Search) : Preserves (Since gone net₀) (Remote.search query) :=
  search since_keyless (P := fun _ => True) (fun _ _ _ _ => trivial)
    (fun connections ref _ => since_cachedMetadata connections ref) query

theorem since_createOne (connections : Connections) (now : UInt64) (chance : LockChance)
    (input : SeriesInput) :
    Preserves (Since gone net₀) (Remote.createOne connections now chance input) := by
  intro site since
  obtain ⟨c, node, reaches⟩ | unreachable := reaches_or_unreachable site connections input.ns
  · obtain ⟨unlocked, cat, wf, holds⟩ :=
      since.evolves.inOrder c.server node reaches.node input.ns
    have result := reaches.createOne holds wf unlocked now chance
    generalize site.outcome (Remote.createOne connections now chance input) = outcome at result
    cases result with
    | found _ => exact since
    | @created ks absent room holds' confined =>
      have newId := wf.records_nextId room
      have wf' : (cat.count.add (input.describe cat.nextId now)).WellFormed input.ns :=
        (wf.count room).add rfl absent newId (by
          show 1 ≤ cat.nextId.number.toNat ∧ cat.nextId.number.toNat ≤ cat.lastId + 1
          rw [Catalogue.nextId_toNat room]
          omega)
      refine ⟨since.evolves.setKeys reaches.node
        ((since.evolves.inOrder c.server node reaches.node).confined wf' holds' confined)
        (confined.retains holds holds' fun id m _ hm => ?_), since.staged⟩
      show (if id = cat.nextId then _ else cat.records id) = some m
      rw [if_neg]
      · exact hm
      · rintro rfl
        rw [newId] at hm
        cases hm
    | @refused ks text _ _ same =>
      have only : DataOnly node.keyspace ks := fun k _ => same k
      exact ⟨since.evolves.setKeys reaches.node
        ((since.evolves.inOrder c.server node reaches.node).dataOnly only) only.retains,
        since.staged⟩
  · obtain ⟨e, failed, _⟩ := unreachable.ask (.get (Key.name input.ns input.name)) wordOrNothing
    unfold Remote.createOne Remote.lookupName
    rw [Site.outcome_bind, Site.outcome_bind, failed]
    exact since

theorem since_create (now : UInt64) (chances : LockChances) (batch : CreateBatch) :
    Preserves (Since gone net₀) (Remote.create now chances batch) :=
  createEach (fun connections => since_createOne connections now) chances batch

/-! ### Points -/

theorem since_flush (req : RequestId) : Preserves (Since gone net₀) (Remote.flush req) :=
  flush since_request (fun _ since => since.staged)
    (fun req _ since => ⟨since.evolves, since.staged.remove req⟩) req

theorem since_append (ns : Namespace) (req : RequestId) (m : SeriesMetadata) (draws : Draws)
    (times : List UInt64) (values : List Binary64) :
    Preserves (Since gone net₀) (Remote.append ns req m draws times values) :=
  append since_request (fun _ => stagePoints_onPoints)
    fun _ onPoints _ since => ⟨since.evolves, since.staged.stage req ns onPoints⟩

theorem since_fetch (ref : SeriesRef) (window : Window) :
    Preserves (Since gone net₀) (Remote.fetch ref window) :=
  fetch since_keyless ref window

theorem since_clear (all : ∀ ref, gone ref) : Preserves (Since gone net₀) Remote.clear := by
  refine clear (fun server site since => ?_) fun site since =>
    ⟨since.evolves, fun req writes staged => by cases staged⟩
  rw [Site.outcome_request]
  refine ⟨?_, since.staged⟩
  show Evolves gone net₀ (site.world.serve server (.single .flush)).2
  unfold Network.serve
  cases found : site.world.nodes[server]? with
  | none => exact since.evolves
  | some node =>
    exact since.evolves.setKeys found orderly_empty fun ref _ there => absurd (all ref) there

end Preserves

end Remote

end SeriesStorage
