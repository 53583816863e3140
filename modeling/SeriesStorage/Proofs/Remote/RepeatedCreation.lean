import SeriesStorage.Proofs.Remote.EnteredBatches

/-!
# Creating where nothing is refused

On servers with usable keys a creation batch succeeds as long as nothing is refused, no creation
lock is held and ids are left; what refused commands may have left behind does not matter.

* `Reaches.createOne_usable`: one series is found or created.
* `Repeatable.createFrom`: a batch succeeds, and the ids that it answers have records.
-/

namespace SeriesStorage

namespace Remote

open Server (Keyspace Network Node Rehearsal Reply Runs Stage)

/-! ## One series -/

/-- The commands of a registration succeed where tags hold sets. -/
theorem runs_registration (required : String) {m : SeriesMetadata} {ks : Keyspace}
    (sets : TagsHoldSets ks m.ns) :
    ∃ replies last, Runs required ((registration m).map (·.command)) ks replies last ∧
      ∀ k : KeyName, k ≠ .name m.ns m.name → k ≠ .descriptor m.ref → (∀ t, k ≠ .tag m.ns t) →
        last.get? k.text = ks.get? k.text := by
  let named := ks.insert (Key.name m.ns m.name) { value := .string (toString m.id) }
  let described := named.insert (Key.descriptor m.ref) { value := .string m.encode }
  have tags : TagSets described m.ns fun t s =>
      ∃ members, ks.set? (Key.tag m.ns t) = .ok members ∧ s ∈ members := by
    intro t
    obtain ⟨members, found⟩ := sets t
    have apart : Key.name m.ns m.name ≠ Key.tag m.ns t :=
      @KeyName.text_ne (.name m.ns m.name) (.tag m.ns t) (by simp)
    have apart' : Key.descriptor m.ref ≠ Key.tag m.ns t :=
      @KeyName.text_ne (.descriptor m.ref) (.tag m.ns t) (by simp)
    refine ⟨members, (set?_congr ?_).trans found, fun s => ⟨fun inside => ⟨members, found, inside⟩,
      ?_⟩⟩
    · simp only [described, named, Table.get?_insert, apart, apart', if_false]
    · rintro ⟨others, found', inside⟩
      obtain rfl := Except.ok.inj (found.symm.trans found')
      exact inside
  obtain ⟨replies, last, runs, _⟩ := tags.addMembers required m.tags (toString m.id)
  have all : Runs required ((registration m).map (·.command)) ks (.ok :: .ok :: replies) last := by
    rw [commands_registration]
    exact .step rfl (.step rfl runs)
  refine ⟨_, last, all, fun k hn hd ht => all.get?_eq fun command inside => ?_⟩
  rw [commands_registration] at inside
  rcases List.mem_cons.mp inside with rfl | inside
  · exact @KeyName.text_ne (.name m.ns m.name) k hn.symm
  rcases List.mem_cons.mp inside with rfl | inside
  · exact @KeyName.text_ne (.descriptor m.ref) k hd.symm
  · obtain ⟨t, _, rfl⟩ := List.mem_map.mp inside
    exact @KeyName.text_ne (.tag m.ns t) k (ht t).symm

/-- No lock changes, and at most one more id is given. -/
structure Spends (ks ks' : Keyspace) : Prop where
  locks : ∀ ns n, ks'.get? (Key.lock (Key.name ns n)) = ks.get? (Key.lock (Key.name ns n))
  counters : ∀ ns given, ks.get? (Key.counter ns) = counterEntry given →
    ∃ given' ≤ given + 1, ks'.get? (Key.counter ns) = counterEntry given'

theorem Spends.refl (ks : Keyspace) : Spends ks ks :=
  ⟨fun _ _ => rfl, fun _ given counter => ⟨given, Nat.le_succ given, counter⟩⟩

/-- A registration under the lock of its name spends one id, and the lock is released. -/
theorem spends_released {ks locked counted last : Keyspace} {m : SeriesMetadata} {given : Nat}
    (free : ks.get? (Key.lock (Key.name m.ns m.name)) = none)
    (counter : ks.get? (Key.counter m.ns) = counterEntry given)
    (others : ∀ k : KeyName, k ≠ .lock m.ns m.name → locked.get? k.text = ks.get? k.text)
    (beside : ∀ k : KeyName, k ≠ .counter m.ns → counted.get? k.text = locked.get? k.text)
    (counted' : counted.get? (Key.counter m.ns) = counterEntry (given + 1))
    (kept : ∀ k : KeyName, k ≠ .name m.ns m.name → k ≠ .descriptor m.ref →
      (∀ t, k ≠ .tag m.ns t) → last.get? k.text = counted.get? k.text) :
    Spends ks (last.erase (Key.lock (Key.name m.ns m.name))) where
  locks := fun ns n => Reaches.get?_unlocked (k := .lock ns n) free fun apart =>
    (kept (.lock ns n) (by simp) (by simp) (by simp)).trans <|
      (beside (.lock ns n) (by simp)).trans (others (.lock ns n) apart)
  counters := by
    intro ns given' there
    have released : (last.erase (Key.lock (Key.name m.ns m.name))).get? (Key.counter ns) =
        counted.get? (Key.counter ns) := by
      have apart : Key.lock (Key.name m.ns m.name) ≠ Key.counter ns :=
        @KeyName.text_ne (.lock m.ns m.name) (.counter ns) (by simp)
      rw [Table.get?_erase, if_neg apart]
      exact kept (.counter ns) (by simp) (by simp) (by simp)
    by_cases same : ns = m.ns
    · subst same
      have number := given_eq (counter.symm.trans there)
      exact ⟨given + 1, by omega, released.trans counted'⟩
    · exact ⟨given', by omega, released.trans ((beside (.counter ns) (by simpa using same)).trans
        ((others (.counter ns) (by simp)).trans there))⟩

namespace Reaches

variable {site : Site Network} {connections : Connections} {c : Connection} {node : Node}
  {input : SeriesInput}

/-- On usable keys a series is found or created. -/
theorem createOne_usable (h : Reaches site connections input.ns c node)
    (usable : Usable node.keyspace) (unlocked : Unlocked node.keyspace input.ns) {given : Nat}
    (counter : node.keyspace.get? (Key.counter input.ns) = counterEntry given)
    (room : given < maxInt64) (now : UInt64) (chance : LockChance) :
    ∃ created client ks, site.outcome (Remote.createOne connections now chance input) =
        .succeed created ⟨client, (site.setKeys c.server ks).world⟩ ∧ Spends node.keyspace ks := by
  obtain ⟨id, named, _⟩ := (usable.names input.ns).get? input.name
  cases id with
  | some id =>
    refine ⟨(id, false), site.client, node.keyspace, ?_, .refl _⟩
    unfold Remote.createOne
    rw [Site.outcome_bind, h.lookupName named, Outcome.andThen_succeed, h.setKeys_self]
    rfl
  | none =>
    have free := unlocked input.name
    let locked := lockedKeys site node chance input
    have others : ∀ k : KeyName, k ≠ .lock input.ns input.name →
        locked.get? k.text = node.keyspace.get? k.text := fun _ => get?_lockedKeys _ _ _ _
    have counter' : locked.get? (Key.counter input.ns) = counterEntry given :=
      (others (.counter input.ns) (by simp)).trans counter
    have run := exec_increment node.password counter' (Nat.le_of_lt room)
    rw [if_pos room] at run
    let counted := locked.setValue (Key.counter input.ns) (.string (toString ((given : Int) + 1)))
    have beside : ∀ k : KeyName, k ≠ .counter input.ns → counted.get? k.text = locked.get? k.text :=
      fun k hk => get?_incremented_ne locked _ hk
    have sets : TagsHoldSets counted input.ns := fun t => by
      obtain ⟨members, found⟩ := usable.tags input.ns t
      exact ⟨members, (set?_congr ((beside (.tag input.ns t) (by simp)).trans
        (others (.tag input.ns t) (by simp)))).trans found⟩
    obtain ⟨replies, last, runs, kept⟩ := @runs_registration node.password
      (input.describe (nextId given) now) counted sets
    have ran := (h.setKeys locked).createLocked_runs
      ((others (.name input.ns input.name) (by simp)).trans named) run
      (show UInt64.ofInt ((given : Int) + 1) = (nextId given).number from rfl) runs
    rw [Site.setKeys_setKeys] at ran
    have held : last.get? (Key.lock (Key.name input.ns input.name)) =
        some (lockEntry chance.token site.client.options) := by
      refine (kept (.lock input.ns input.name) (by simp) (by simp) (by simp)).trans ?_
      refine (beside (.lock input.ns input.name) (by simp)).trans ?_
      simp only [locked, lockedKeys, KeyName.text, Table.get?_insert, if_true]
    have created := h.createOne_absent named free ran ((h.setKeys last).invalidate _) held
    refine ⟨(nextId given, true), (site.invalidate [⟨input.ns, nextId given⟩]).client,
      last.erase (Key.lock (Key.name input.ns input.name)), created.trans ?_,
      @spends_released _ _ _ _ (input.describe (nextId given) now) given free counter others beside
        (get?_incremented counter') kept⟩
    show Outcome.succeed _ (⟨_, ((site.setKeys c.server last).setKeys c.server _).world⟩ :
      Site Network) = _
    rw [Site.setKeys_setKeys]
    rfl

end Reaches

/-! ## A batch -/

/-- A namespace is served, by a server that can give so many more ids. -/
def Room (connections : Connections) (stage : Stage) (ns : Namespace) (n : Nat) : Prop :=
  ∃ c r given, connections.route ns = .ok c ∧ stage.servers[c.server]? = some r ∧
    r.keyspace.get? (Key.counter ns) = counterEntry given ∧ given + n ≤ maxInt64

/-- Everything is there so that `n` series of some namespaces can be found or created. -/
structure Repeatable (connections : Connections) (namespaces : List Namespace) (n : Nat)
    (site : Site Stage) : Prop where
  calm : site.world.Calm
  own : site.client.connections = some connections
  usable : ∀ r ∈ site.world.servers, Usable r.keyspace
  unlocked : ∀ r ∈ site.world.servers, ∀ ns, Unlocked r.keyspace ns
  room : ∀ ns ∈ namespaces, Room connections site.world ns n

/-- Each server spends what one creation may spend. -/
def SpendsEach (stage after : Stage) : Prop :=
  ∀ i : Nat, Option.Rel (fun r r' : Rehearsal => Spends r.keyspace r'.keyspace) stage.servers[i]?
    after.servers[i]?

namespace SpendsEach

variable {stage after : Stage}

/-- One server spends. -/
theorem of_nodes {server : Nat} {r : Rehearsal} {ks : Keyspace}
    (found : stage.servers[server]? = some r) (spends : Spends r.keyspace ks)
    (nodes : ∀ i : Nat, after.servers[i]?.map (·.node) =
      if server = i then some { r.node with keyspace := ks }
      else stage.servers[i]?.map (·.node)) : SpendsEach stage after := by
  intro i
  have node := nodes i
  split at node
  · next here =>
    subst here
    obtain ⟨r', there, same⟩ := Option.map_eq_some_iff.mp node
    rw [found, there]
    refine .some ?_
    rwa [show r'.keyspace = ks from congrArg Server.Node.keyspace same]
  · cases before : stage.servers[i]? with
    | none =>
      rw [before] at node
      rw [Option.map_eq_none_iff.mp node]
      exact .none
    | some r₀ =>
      rw [before] at node
      obtain ⟨r', there, same⟩ := Option.map_eq_some_iff.mp node
      rw [there]
      refine .some ?_
      rw [show r'.keyspace = r₀.keyspace from congrArg Server.Node.keyspace same]
      exact .refl _

theorem unlocked (h : SpendsEach stage after)
    (unlocked : ∀ r ∈ stage.servers, ∀ ns, Unlocked r.keyspace ns) :
    ∀ r ∈ after.servers, ∀ ns, Unlocked r.keyspace ns := by
  intro r' inside ns n
  obtain ⟨i, there⟩ := List.mem_iff_getElem?.mp inside
  have spends := h i
  rw [there] at spends
  cases before : stage.servers[i]? with
  | none =>
    rw [before] at spends
    cases spends
  | some r =>
    rw [before] at spends
    cases spends with
    | some spends =>
      exact (spends.locks ns n).trans (unlocked r (List.mem_of_getElem? before) ns n)

theorem room (h : SpendsEach stage after) {connections : Connections} {ns : Namespace} {n : Nat}
    (room : Room connections stage ns (n + 1)) : Room connections after ns n := by
  obtain ⟨c, r, given, route, before, counter, fewer⟩ := room
  have spends := h c.server
  rw [before] at spends
  cases there : after.servers[c.server]? with
  | none =>
    rw [there] at spends
    cases spends
  | some r' =>
    rw [there] at spends
    cases spends with
    | some spends =>
      obtain ⟨given', one, counter'⟩ := spends.counters ns given counter
      exact ⟨c, r', given', route, there, counter', by omega⟩

end SpendsEach

namespace Repeatable

variable {connections : Connections} {namespaces : List Namespace} {n : Nat} {site : Site Stage}

/-- One series is found or created, and it has a record. -/
theorem createOne (h : Repeatable connections namespaces (n + 1) site) {input : SeriesInput}
    (inside : input.ns ∈ namespaces) (now : UInt64) (chance : LockChance) :
    let outcome := site.outcome (createOne connections now chance input)
    ∃ created, outcome.answer = .ok created ∧ Repeatable connections namespaces n outcome.state ∧
      ∃ m, Matched outcome.state ⟨input.ns, created.1⟩ m := by
  obtain ⟨c, r, given, route, found, counter, room⟩ := h.room input.ns inside
  have here := List.mem_of_getElem? found
  have reaches : Reaches site.onNetwork connections input.ns c r.node :=
    ⟨route, by rw [nodes_onNetwork, found]; rfl⟩
  obtain ⟨created, client, ks, ran, spends⟩ := reaches.createOne_usable (h.usable r here)
    (h.unlocked r here input.ns) counter (by omega) now chance
  obtain ⟨same, calm⟩ := site.outcome_network h.calm (Remote.createOne connections now chance input)
  have entered := (EnteredFully.refl (fun r inside => (h.calm r inside).interventions)
    h.usable).createOne h.own now chance input
  rw [ran] at same
  dsimp only at entered ⊢
  generalize site.outcome (Remote.createOne connections now chance input) = outcome
    at same calm entered
  have answer : outcome.answer = .ok created := congrArg Outcome.answer same
  rw [answer] at entered
  obtain ⟨entered, record⟩ := entered.resolve_right fun half => by cases half.1
  have spent : SpendsEach site.world outcome.state.world := by
    refine .of_nodes found spends fun i => ?_
    have state := congrArg (fun net => net.state.world.nodes[i]?) same
    refine (nodes_onNetwork outcome.state i).symm.trans (state.trans ?_)
    refine (Site.nodes_setKeys site.onNetwork c.server i ks).trans ?_
    split
    · next here =>
      subst here
      rw [nodes_onNetwork, found]
      rfl
    · exact nodes_onNetwork site i
  exact ⟨created, answer, ⟨calm, entered.connections.trans h.own, entered.usable,
    spent.unlocked h.unlocked, fun ns inside => spent.room (h.room ns inside)⟩,
    record created.1 created.2 rfl⟩

/-- **A batch is found or created**, and every id that is answered has a record. -/
theorem createFrom {batch : CreateBatch} (h : Repeatable connections namespaces batch.length site)
    (inside : ∀ entry ∈ batch, entry.2.ns ∈ namespaces) (now : UInt64) (chances : LockChances)
    (i : Nat) :
    let outcome := site.outcome (createFrom connections now chances i batch)
    ∃ rows, outcome.answer = .ok rows ∧ outcome.state.world.Calm ∧
      List.Forall₂ (fun entry row => row.mark = entry.1 ∧
        ∃ m, Matched outcome.state ⟨entry.2.ns, row.id⟩ m) batch rows := by
  induction batch generalizing site i with
  | nil => exact ⟨[], rfl, h.calm, .nil⟩
  | cons entry rest ih =>
    obtain ⟨mark, input⟩ := entry
    obtain ⟨⟨id, isNew⟩, first, next, m, matched⟩ :=
      h.createOne (inside _ List.mem_cons_self) now (chances i)
    obtain ⟨rows, others, calm, records⟩ :=
      ih next (fun entry hentry => inside entry (List.mem_cons_of_mem _ hentry)) (i + 1)
    -- the record of the first series stays
    have entered := leads_createFrom next.own now chances (i + 1) rest _
      (.refl (fun r inside => (next.calm r inside).interventions) next.usable)
    rw [others] at entered
    have kept := (entered.resolve_right fun half => by cases half.1).kept _ _ matched
    dsimp only
    unfold Remote.createFrom
    rw [Site.outcome_bind, Outcome.andThen_eq_of_ok first]
    dsimp only
    rw [Site.outcome_bind, Outcome.andThen_eq_of_ok others]
    exact ⟨⟨mark, id, isNew⟩ :: rows, rfl, calm, .cons ⟨rfl, m, kept⟩ records⟩

end Repeatable

end Remote

end SeriesStorage
