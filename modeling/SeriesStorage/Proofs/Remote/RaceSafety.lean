import SeriesStorage.Proofs.Remote.Race
import SeriesStorage.Proofs.Remote.UsableNames

/-!
# Races are safe

However creators race for the series of a namespace, all that return with a name agree on its id, at
most one of them created it, and other names have other ids (`race_consistent`).

The argument is `Safe`, which every step of a race keeps.  A creator under the lock holds it with its
own token, so no other one is under the lock of the same name.  Until it has entered its series the
name is not there, and the id that it got is one that nobody else got and that has no record.
-/

namespace SeriesStorage

namespace Remote

open Server (Keyspace Network Node)

/-! ## What phases say -/

namespace Phase

/-- The lock is held. -/
def Locked : Phase → Prop
  | .rechecking => True
  | .counting => True
  | .entering _ => True
  | .releasing _ => True
  | _ => False

/-- The name was not there, and is still to be entered. -/
def Creating : Phase → Prop
  | .counting => True
  | .entering _ => True
  | _ => False

theorem Creating.locked {phase : Phase} (h : phase.Creating) : phase.Locked := by
  cases phase <;> first | exact trivial | exact h.elim

/-- The id that the creator got from the counter. -/
def ownId? : Phase → Option SeriesId
  | .entering id => some id
  | .releasing result => newId? result
  | .finished result => newId? result
  | _ => none
where
  newId? : Except Error (SeriesId × Bool) → Option SeriesId
    | .ok (id, true) => some id
    | _ => none

/-- What the creator answers, or is going to answer. -/
def answer? : Phase → Option (SeriesId × Bool)
  | .releasing result => result.toOption
  | .finished result => result.toOption
  | _ => none

end Phase

/-! ## The invariant -/

section Safety

variable {ι : Type} {creators : ι → Creator} {ns : Namespace} {server : Nat}

/-- Creators of series of one namespace on one server, each with a token of its own. -/
structure Compete (creators : ι → Creator) (ns : Namespace) (server : Nat) : Prop where
  namespaces : ∀ i, (creators i).input.ns = ns
  /-- One server takes transactions; it is a cluster that does not. -/
  routes : ∀ i, (creators i).connections.route ns = .ok ⟨server, true⟩
  tokens : Function.Injective fun i => (creators i).chance.token

/-- What holds of the phases of creators and of the keys of their server. -/
structure Safe (creators : ι → Creator) (ns : Namespace) (stopped : Set ι) (phases : ι → Phase)
    (ks : Keyspace) (last : Nat) : Prop where
  filed : Filed ks ns last
  refer : NamesRefer ks ns
  locked : ∀ i, i ∉ stopped → (phases i).Locked →
    ks.get? (creators i).lockKey = some (creators i).lock
  absent : ∀ i, i ∉ stopped → (phases i).Creating → ks.get? (creators i).nameKey = none
  unrecorded : ∀ i id, phases i = .entering id → ks.get? (Key.descriptor ⟨ns, id⟩) = none
  given : ∀ i id, (phases i).ownId? = some id → 1 ≤ id.number.toNat ∧ id.number.toNat ≤ last
  apart : ∀ i j id, (phases i).ownId? = some id → (phases j).ownId? = some id → i = j
  answered : ∀ i id isNew, (phases i).answer? = some (id, isNew) →
    ks.get? (creators i).nameKey = textEntry (some (toString id))

namespace Safe

variable {stopped : Set ι} {phases : ι → Phase} {ks ks' : Keyspace} {last : Nat}

/-- At the beginning nobody has done anything. -/
theorem start (filed : Filed ks ns last) (refer : NamesRefer ks ns) :
    Safe creators ns ∅ (fun _ => .looking) ks last where
  filed := filed
  refer := refer
  locked := fun _ _ h => h.elim
  absent := fun _ _ h => h.elim
  unrecorded := fun _ _ h => by cases h
  given := fun _ _ h => by cases h
  apart := fun _ _ _ h => by cases h
  answered := fun _ _ _ h => by cases h

/-- **Two creators are not under the lock of one name**, unless one of them has stopped. -/
theorem exclusive (h : Safe creators ns stopped phases ks last) (compete : Compete creators ns server)
    {i j : ι} (runs : i ∉ stopped) (runs' : j ∉ stopped) (under : (phases i).Locked)
    (under' : (phases j).Locked) (same : (creators i).lockKey = (creators j).lockKey) : i = j := by
  have mine := h.locked i runs under
  rw [same, h.locked j runs' under'] at mine
  have tokens := congrArg Server.Entry.value (Option.some.inj mine)
  exact compete.tokens (Server.Value.string.inj tokens).symm

/-! ### Steps that leave the phases -/

/-- Somebody stops. -/
theorem stop (h : Safe creators ns stopped phases ks last) (i : ι) :
    Safe creators ns (insert i stopped) phases ks last :=
  { h with
    locked := fun j runs => h.locked j fun inside => runs (Set.mem_insert_of_mem i inside)
    absent := fun j runs => h.absent j fun inside => runs (Set.mem_insert_of_mem i inside) }

/-- A lock changes that nobody holds who may still act. -/
theorem relock (h : Safe creators ns stopped phases ks last) (ns' : Namespace) (n : String)
    (others : ∀ key, Key.lock (Key.name ns' n) ≠ key → ks'.get? key = ks.get? key)
    (unneeded : ∀ i, i ∉ stopped → (phases i).Locked →
      Key.lock (Key.name ns' n) ≠ (creators i).lockKey) :
    Safe creators ns stopped phases ks' last := by
  have same : ApartFromLocks ks ks' := fun k hk =>
    others k.text (@KeyName.text_ne (.lock ns' n) k (hk ns' n).symm)
  have names : ∀ ns n, ks'.get? (Key.name ns n) = ks.get? (Key.name ns n) :=
    fun ns n => same (.name ns n) (by simp)
  have records : ∀ id, ks'.get? (Key.descriptor ⟨ns, id⟩) = ks.get? (Key.descriptor ⟨ns, id⟩) :=
    fun id => same (.descriptor ⟨ns, id⟩) (by simp)
  exact { h with
    filed := h.filed.congr (same (.counter ns) (by simp)) records
    refer := h.refer.congr (names ns) fun id e found => (records id).trans found
    locked := fun i runs under =>
      (others _ (unneeded i runs under)).trans (h.locked i runs under)
    absent := fun i runs creating => (names _ _).trans (h.absent i runs creating)
    unrecorded := fun i id entering => (records id).trans (h.unrecorded i id entering)
    answered := fun i id isNew answer => (names _ _).trans (h.answered i id isNew answer) }

/-- One more id is given. -/
theorem recount (h : Safe creators ns stopped phases ks last) (filed : Filed ks' ns (last + 1))
    (others : ∀ k : KeyName, k ≠ .counter ns → ks'.get? k.text = ks.get? k.text) :
    Safe creators ns stopped phases ks' (last + 1) := by
  have names : ∀ ns' n, ks'.get? (Key.name ns' n) = ks.get? (Key.name ns' n) :=
    fun ns' n => others (.name ns' n) (by simp)
  have records : ∀ id, ks'.get? (Key.descriptor ⟨ns, id⟩) = ks.get? (Key.descriptor ⟨ns, id⟩) :=
    fun id => others (.descriptor ⟨ns, id⟩) (by simp)
  exact { h with
    filed := filed
    refer := h.refer.congr (names ns) fun id e found => (records id).trans found
    locked := fun i runs under =>
      (others (.lock (creators i).input.ns _) (by simp)).trans (h.locked i runs under)
    absent := fun i runs creating => (names _ _).trans (h.absent i runs creating)
    unrecorded := fun i id entering => (records id).trans (h.unrecorded i id entering)
    given := fun i id own => ⟨(h.given i id own).1, Nat.le_succ_of_le (h.given i id own).2⟩
    answered := fun i id isNew answer => (names _ _).trans (h.answered i id isNew answer) }

/-- A series is entered that nobody else is creating. -/
theorem enter (h : Safe creators ns stopped phases ks last) {m : SeriesMetadata}
    {set : List (String × String)} (entered : Entered m ks true true ks' set)
    (absent : ks.get? (Key.name m.ns m.name) = none)
    (unrecorded : ks.get? (Key.descriptor m.ref) = none)
    (given : 1 ≤ m.id.number.toNat ∧ m.id.number.toNat ≤ last)
    (names : ∀ i, i ∉ stopped → (phases i).Creating →
      KeyName.name (creators i).input.ns (creators i).input.name ≠ .name m.ns m.name)
    (ids : ∀ i, phases i ≠ .entering m.id) : Safe creators ns stopped phases ks' last := by
  have name : ∀ ns' n, KeyName.name ns' n ≠ .name m.ns m.name →
      ks'.get? (Key.name ns' n) = ks.get? (Key.name ns' n) :=
    fun ns' n apart => entered.others (.name ns' n) apart (by simp) (by simp)
  exact { h with
    filed := entered.filed h.filed fun _ => given
    refer := entered.namesRefer h.refer absent unrecorded fun _ => rfl
    locked := fun i runs under =>
      (entered.others (.lock (creators i).input.ns _) (by simp) (by simp) (by simp)).trans
        (h.locked i runs under)
    absent := fun i runs creating =>
      (name _ _ (names i runs creating)).trans (h.absent i runs creating)
    unrecorded := by
      intro i id entering
      have apart : (⟨ns, id⟩ : SeriesRef) ≠ m.ref := by
        intro same
        obtain ⟨_, rfl⟩ := SeriesRef.mk.inj same
        exact ids i entering
      exact (entered.others (.descriptor ⟨ns, id⟩) (by simp) (by simpa using apart)
        (by simp)).trans (h.unrecorded i id entering)
    answered := by
      intro i id isNew answer
      have before := h.answered i id isNew answer
      refine (name _ _ fun same => ?_).trans before
      obtain ⟨sameNs, sameName⟩ := KeyName.name.inj same
      rw [Creator.nameKey, sameNs, sameName, absent] at before
      cases before }

/-! ### Steps of one creator -/

section Stepping

variable [DecidableEq ι] {i : ι} {phase : Phase}

/-- A creator goes on to another phase. -/
theorem rephase (h : Safe creators ns stopped phases ks last)
    (locked : phase.Locked → ks.get? (creators i).lockKey = some (creators i).lock)
    (absent : phase.Creating → ks.get? (creators i).nameKey = none)
    (unrecorded : ∀ id, phase = .entering id → ks.get? (Key.descriptor ⟨ns, id⟩) = none)
    (own : ∀ id, phase.ownId? = some id → (1 ≤ id.number.toNat ∧ id.number.toNat ≤ last) ∧
      ∀ j, j ≠ i → (phases j).ownId? ≠ some id)
    (answered : ∀ id isNew, phase.answer? = some (id, isNew) →
      ks.get? (creators i).nameKey = textEntry (some (toString id))) :
    Safe creators ns stopped (Function.update phases i phase) ks last := by
  exact { h with
    locked := (Function.forall_update_iff phases fun j p => j ∉ stopped → p.Locked →
      ks.get? (creators j).lockKey = some (creators j).lock).mpr
        ⟨fun _ => locked, fun j _ => h.locked j⟩
    absent := (Function.forall_update_iff phases fun j p => j ∉ stopped → p.Creating →
      ks.get? (creators j).nameKey = none).mpr ⟨fun _ => absent, fun j _ => h.absent j⟩
    unrecorded := (Function.forall_update_iff phases fun _ p => ∀ id, p = .entering id →
      ks.get? (Key.descriptor ⟨ns, id⟩) = none).mpr ⟨unrecorded, fun j _ => h.unrecorded j⟩
    given := (Function.forall_update_iff phases fun _ p => ∀ id, p.ownId? = some id →
      1 ≤ id.number.toNat ∧ id.number.toNat ≤ last).mpr
        ⟨fun id owned => (own id owned).1, fun j _ => h.given j⟩
    apart := by
      intro j k id owned owned'
      by_cases same : j = i <;> by_cases same' : k = i
      · rw [same, same']
      · rw [same, Function.update_self] at owned
        rw [Function.update_of_ne same'] at owned'
        exact absurd owned' ((own id owned).2 k same')
      · rw [same', Function.update_self] at owned'
        rw [Function.update_of_ne same] at owned
        exact absurd owned ((own id owned').2 j same)
      · rw [Function.update_of_ne same] at owned
        rw [Function.update_of_ne same'] at owned'
        exact h.apart j k id owned owned'
    answered := (Function.forall_update_iff phases fun j p => ∀ id isNew,
      p.answer? = some (id, isNew) →
        ks.get? (creators j).nameKey = textEntry (some (toString id))).mpr
          ⟨answered, fun j _ => h.answered j⟩ }

/-- A creator goes on to a phase in which it creates nothing. -/
theorem rephase_idle (h : Safe creators ns stopped phases ks last)
    (locked : phase.Locked → ks.get? (creators i).lockKey = some (creators i).lock)
    (idle : ¬ phase.Creating) (unowned : phase.ownId? = none)
    (answered : ∀ id isNew, phase.answer? = some (id, isNew) →
      ks.get? (creators i).nameKey = textEntry (some (toString id))) :
    Safe creators ns stopped (Function.update phases i phase) ks last := by
  refine h.rephase locked (fun creating => absurd creating idle) ?_ ?_ answered
  · rintro id rfl
    exact absurd trivial idle
  · intro id own
    rw [unowned] at own
    cases own

theorem looked (h : Safe creators ns stopped phases ks last)
    (ours : (creators i).input.ns = ns) {answer : Except Error (Option SeriesId)}
    (looked : LookedUp ks (creators i).nameKey answer) :
    Safe creators ns stopped (Function.update phases i ((creators i).looked answer)) ks last := by
  rcases answer with e | _ | id
  · exact h.rephase_idle (fun h => h.elim) (fun h => h) rfl fun _ _ h => by cases h
  · exact h.rephase_idle (fun h => h.elim) (fun h => h) rfl fun _ _ h => by cases h
  · refine h.rephase_idle (fun h => h.elim) (fun h => h) rfl fun id' isNew answer => ?_
    cases answer
    subst ours
    exact h.refer.lookedUp looked

theorem rechecked (h : Safe creators ns stopped phases ks last)
    (ours : (creators i).input.ns = ns)
    (locked : ks.get? (creators i).lockKey = some (creators i).lock)
    {answer : Except Error (Option SeriesId)} (looked : LookedUp ks (creators i).nameKey answer) :
    Safe creators ns stopped (Function.update phases i (.rechecked answer)) ks last := by
  rcases answer with e | _ | id
  · exact h.rephase_idle (fun _ => locked) (fun h => h) rfl fun _ _ h => by cases h
  · refine h.rephase (fun _ => locked) (fun _ => ?_) (fun _ h => by cases h)
      (fun _ h => by cases h) fun _ _ h => by cases h
    cases looked with
    | absent missing => exact missing
  · refine h.rephase_idle (fun _ => locked) (fun h => h) rfl fun id' isNew answer => ?_
    cases answer
    subst ours
    exact h.refer.lookedUp looked

/-- A lock that is free is taken. -/
theorem take (h : Safe creators ns stopped phases ks last)
    (free : ks.get? (creators i).lockKey = none) :
    Safe creators ns stopped (Function.update phases i .rechecking)
      (ks.insert (creators i).lockKey (creators i).lock) last := by
  have taken : Safe creators ns stopped phases
      (ks.insert (creators i).lockKey (creators i).lock) last := by
    refine h.relock (creators i).input.ns (creators i).input.name (fun key apart => ?_)
      fun j runs under same => ?_
    · rw [Table.get?_insert]
      exact if_neg apart
    · rw [Creator.lockKey, Creator.nameKey, same, h.locked j runs under] at free
      cases free
  refine taken.rephase_idle (fun _ => ?_) (fun h => h) rfl fun _ _ h => by cases h
  rw [Table.get?_insert, if_pos rfl]

/-- The lock is released. -/
theorem release (h : Safe creators ns stopped phases ks last) (compete : Compete creators ns server)
    (runs : i ∉ stopped) {result : Except Error (SeriesId × Bool)}
    (releasing : phases i = .releasing result)
    (released : ks' = ks ∨ ks' = ks.erase (creators i).lockKey) :
    Safe creators ns stopped (Function.update phases i (.finished result)) ks' last := by
  have finished : Safe creators ns stopped (Function.update phases i (.finished result)) ks last := by
    refine h.rephase (fun under => under.elim) (fun creating => creating.elim)
      (fun _ h => by cases h) (fun id own => ?_) fun id isNew answer => ?_
    · have own' : (phases i).ownId? = some id := by
        rw [releasing]
        exact own
      exact ⟨h.given i id own', fun j apart owned => apart (h.apart j i id owned own')⟩
    · refine h.answered i id isNew ?_
      rw [releasing]
      exact answer
  obtain rfl | rfl := released
  · exact finished
  · refine finished.relock (creators i).input.ns (creators i).input.name (fun key apart => ?_)
      fun j runs' under same => ?_
    · rw [Creator.lockKey, Creator.nameKey, Table.get?_erase, if_neg apart]
    · by_cases itself : j = i
      · rw [itself, Function.update_self] at under
        exact under
      · rw [Function.update_of_ne itself] at under
        refine itself (h.exclusive compete runs' runs under ?_ same.symm)
        rw [releasing]
        trivial

/-- The counter gives an id, or it does not. -/
theorem count (h : Safe creators ns stopped phases ks last) (ours : (creators i).input.ns = ns)
    (runs : i ∉ stopped) (counting : phases i = .counting) {required : String}
    {reply : Except String Server.Reply}
    (attempt : Server.Attempt required (.increment (Key.counter (creators i).input.ns)) ks reply
      ks') :
    ∃ last', Safe creators ns stopped (Function.update phases i
      (.counted ((reply.mapError .refused >>= wordOfInteger).mapError .redis))) ks' last' := by
  subst ours
  have locked := h.locked i runs (by rw [counting]; trivial)
  obtain ⟨text, rfl, rfl⟩ | ⟨rfl, room, filed, others⟩ := h.filed.increment attempt
  · exact ⟨last, h.rephase_idle (fun _ => locked) (fun h => h) rfl fun _ _ h => by cases h⟩
  · refine ⟨last + 1, (h.recount filed others).rephase (fun _ => ?_) (fun _ => ?_) ?_ ?_
      fun _ _ h => by cases h⟩
    · exact (others (.lock _ (creators i).input.name) (by simp)).trans locked
    · exact (others (.name _ (creators i).input.name) (by simp)).trans
        (h.absent i runs (by rw [counting]; trivial))
    · intro id entering
      cases entering
      exact (others (.descriptor ⟨_, nextId last⟩) (by simp)).trans (h.filed.unrecorded room)
    · intro id own
      have number := nextId_toNat room
      cases own
      refine ⟨nextId_counted room, fun j _ owned => ?_⟩
      have counted : (nextId last).number.toNat ≤ last := (h.given j _ owned).2
      omega

/-- A series is entered by its creator. -/
theorem register (h : Safe creators ns stopped phases ks last)
    (compete : Compete creators ns server) (runs : i ∉ stopped) {id : SeriesId}
    (entering : phases i = .entering id) {set : List (String × String)}
    (entered : Entered ((creators i).input.describe id (creators i).now) ks true true ks' set)
    (result : Except Error Unit) :
    Safe creators ns stopped
      (Function.update phases i (.releasing (result.map fun _ => (id, true)))) ks' last := by
  have ours := compete.namespaces i
  have under : (phases i).Locked := by rw [entering]; trivial
  have own : (phases i).ownId? = some id := by rw [entering]; rfl
  -- while the creator is set aside nobody else creates a series of its name
  have aside : Safe creators ns stopped (Function.update phases i .looking) ks last :=
    h.rephase_idle (fun under => under.elim) (fun h => h) rfl fun _ _ h => by cases h
  have absent := h.absent i runs (by rw [entering]; trivial)
  have unrecorded : ks.get? (Key.descriptor ⟨(creators i).input.ns, id⟩) = none := by
    rw [ours]
    exact h.unrecorded i id entering
  have registered : Safe creators ns stopped (Function.update phases i .looking) ks' last := by
    refine aside.enter entered absent unrecorded (h.given i id own)
      (fun j runs' creating same => ?_) fun j entering' => ?_
    · by_cases itself : j = i
      · rw [itself, Function.update_self] at creating
        exact creating
      · rw [Function.update_of_ne itself] at creating
        exact itself (h.exclusive compete runs' runs creating.locked under
          (congrArg (fun k : KeyName => Key.lock k.text) same))
    · by_cases itself : j = i
      · rw [itself, Function.update_self] at entering'
        cases entering'
      · rw [Function.update_of_ne itself] at entering'
        exact itself (h.apart j i id (by rw [entering']; rfl) own)
  rw [← Function.update_idem .looking]
  refine registered.rephase (fun _ => ?_) (fun creating => creating.elim) (fun _ h => by cases h)
    ?_ ?_
  · exact (entered.others (.lock _ (creators i).input.name) (by simp) (by simp) (by simp)).trans
      (h.locked i runs under)
  · intro id' own'
    cases result with
    | error e => cases own'
    | ok done =>
      cases own'
      refine ⟨h.given i id own, fun j apart owned => ?_⟩
      rw [Function.update_of_ne apart] at owned
      exact apart (h.apart j i id owned own)
  · intro id' isNew answer
    cases result with
    | error e => cases answer
    | ok done =>
      cases answer
      exact entered.name

/-- **What one creator does next is safe.** -/
theorem next (h : Safe creators ns stopped phases ks last) (compete : Compete creators ns server)
    (runs : i ∉ stopped) {required : String}
    (next : Next (creators i) required (phases i) ks phase ks') :
    ∃ last', Safe creators ns stopped (Function.update phases i phase) ks' last' := by
  have ours := compete.namespaces i
  generalize before : phases i = current at next
  cases next with
  | looked looked => exact ⟨last, h.looked ours looked⟩
  | locked free => exact ⟨last, h.take free⟩
  | held => exact ⟨last, h.rephase_idle (fun h => h.elim) (fun h => h) rfl fun _ _ h => by cases h⟩
  | timedOut =>
    exact ⟨last, h.rephase_idle (fun h => h.elim) (fun h => h) rfl fun _ _ h => by cases h⟩
  | rechecked looked =>
    exact ⟨last, h.rechecked ours (h.locked i runs (by rw [before]; trivial)) looked⟩
  | counted attempt => exact h.count ours runs before attempt
  | entered result entered => exact ⟨last, h.register compete runs before entered result⟩
  | released released => exact ⟨last, h.release compete runs before (released.imp_right And.right)⟩

end Stepping

end Safe

/-! ## Races -/

namespace Race

/-- The creators of a race are in phases that are safe with the keys of the server. -/
structure Underway (creators : ι → Creator) (ns : Namespace) (server : Nat) (race : Race ι)
    (phases : ι → Phase) (node : Node) (last : Nat) : Prop where
  found : race.world.nodes[server]? = some node
  is : ∀ i, (creators i).Is (phases i) (race.sessions i)
  safe : Safe creators ns race.stopped phases node.keyspace last

variable {race race' : Race ι} {phases : ι → Phase} {node : Node} {last : Nat}

/-- What holds of those that have returned: the name of each holds its id, with a record of the name;
equal names have equal ids, and other names other ids; and no two created the same name. -/
structure Consistent (creators : ι → Creator) (ns : Namespace) (race : Race ι) (ks : Keyspace) :
    Prop where
  named : ∀ i id isNew, race.answer? i = some (id, isNew) →
    ks.get? (Key.name ns (creators i).input.name) = textEntry (some (toString id))
  recorded : ∀ i id isNew, race.answer? i = some (id, isNew) →
    ∃ m, HoldsRecord ks ⟨ns, id⟩ m ∧ m.name = (creators i).input.name
  same : ∀ i j id id' isNew isNew', race.answer? i = some (id, isNew) →
    race.answer? j = some (id', isNew') →
    ((creators i).input.name = (creators j).input.name ↔ id = id')
  once : ∀ i j id id', race.answer? i = some (id, true) → race.answer? j = some (id', true) →
    (creators i).input.name = (creators j).input.name → i = j

/-- Who has returned has finished with what it answered. -/
theorem Underway.finished (h : race.Underway creators ns server phases node last)
    (compete : Compete creators ns server) {i : ι} {answer : SeriesId × Bool}
    (returned : race.answer? i = some answer) : phases i = .finished (.ok answer) := by
  have route := compete.routes i
  rw [← compete.namespaces i] at route
  unfold Race.answer? at returned
  obtain ⟨result, client, finished, done⟩ | ⟨_, _, _, _, _, acts⟩ := (h.is i).acts route h.found
  · rw [done] at returned
    cases result with
    | error e => cases returned
    | ok answer' =>
      obtain rfl := Option.some.inj returned
      exact finished
  · obtain ⟨r, next, sends⟩ := acts.sends
    rw [sends] at returned
    cases returned

theorem Underway.consistent (h : race.Underway creators ns server phases node last)
    (compete : Compete creators ns server) : race.Consistent creators ns node.keyspace := by
  have named : ∀ i id isNew, race.answer? i = some (id, isNew) →
      node.keyspace.get? (Key.name ns (creators i).input.name) =
        textEntry (some (toString id)) := by
    intro i id isNew returned
    rw [← compete.namespaces i]
    refine h.safe.answered i id isNew ?_
    rw [h.finished compete returned]
    rfl
  have recorded : ∀ i id isNew, race.answer? i = some (id, isNew) →
      ∃ m, HoldsRecord node.keyspace ⟨ns, id⟩ m ∧ m.name = (creators i).input.name := by
    intro i id isNew returned
    obtain ⟨held, entry, record⟩ := h.safe.refer.get? (creators i).input.name
    rw [named i id isNew returned] at entry
    cases held with
    | none => cases entry
    | some id' =>
      obtain rfl : id = id' := toString_id_inj.mp (textEntry_inj.mp entry)
      exact record id rfl
  have same : ∀ i j id id' isNew isNew', race.answer? i = some (id, isNew) →
      race.answer? j = some (id', isNew') →
      ((creators i).input.name = (creators j).input.name ↔ id = id') := by
    intro i j id id' isNew isNew' returned returned'
    constructor
    · intro names
      have mine := named i id isNew returned
      rw [names, named j id' isNew' returned'] at mine
      exact (toString_id_inj.mp (textEntry_inj.mp mine)).symm
    · rintro rfl
      obtain ⟨m, record, name⟩ := recorded i id isNew returned
      obtain ⟨m', record', name'⟩ := recorded j id isNew' returned'
      rw [← name, ← name', record.unique record']
  refine ⟨named, recorded, same, fun i j id id' returned returned' names => ?_⟩
  obtain rfl := (same i j id id' true true returned returned').mp names
  refine h.safe.apart i j id ?_ ?_
  · rw [h.finished compete returned]
    rfl
  · rw [h.finished compete returned']
    rfl

/-! ### Steps of a race -/

variable [DecidableEq ι]

theorem Underway.act (h : race.Underway creators ns server phases node last)
    (compete : Compete creators ns server) {i : ι} (runs : i ∉ race.stopped) :
    ∃ phases' node' last', (race.act i).Underway creators ns server phases' node' last' := by
  have route := compete.routes i
  rw [← compete.namespaces i] at route
  obtain ⟨result, client, _, done⟩ | ⟨phase, session, ks, next, is, acts⟩ :=
    (h.is i).acts route h.found
  · have same : race.act i = race := by
      rw [act_eq, done]
      show (⟨Function.update race.sessions i (.done (result, client)), _, _⟩ : Race ι) = race
      rw [← done, Function.update_eq_self, done]
      rfl
    rw [same]
    exact ⟨phases, node, last, h⟩
  · obtain ⟨last', safe⟩ := h.safe.next compete runs next
    rw [act_eq, acts.left]
    refine ⟨_, _, last', acts.keys, fun j => ?_, safe⟩
    show (creators j).Is (Function.update phases i phase j)
      (Function.update race.sessions i session j)
    by_cases itself : j = i
    · subst itself
      rw [Function.update_self, Function.update_self]
      exact is
    · rw [Function.update_of_ne itself, Function.update_of_ne itself]
      exact h.is j

/-- Every step of a race keeps it safe. -/
theorem Underway.step (h : race.Underway creators ns server phases node last)
    (compete : Compete creators ns server) (step : Step creators race race') :
    ∃ phases' node' last', race'.Underway creators ns server phases' node' last' := by
  cases step with
  | act runs => exact h.act compete runs
  | stop i => exact ⟨phases, node, last, h.found, h.is, h.safe.stop i⟩
  | @lapse server' node' ns' n found unneeded =>
    by_cases here : server' = server
    · subst here
      obtain rfl := Option.some.inj (h.found.symm.trans found)
      refine ⟨phases, { node with keyspace := node.keyspace.erase (Key.lock (Key.name ns' n)) },
        last, ?_, h.is, h.safe.relock ns' n (fun key apart => ?_) fun i runs under same => ?_⟩
      · rw [Network.getElem?_setKeys, if_pos rfl, h.found]
        rfl
      · rw [Table.get?_erase, if_neg apart]
      · refine runs (unneeded i ?_)
        have held := h.safe.locked i runs under
        unfold Keyspace.string?
        rw [same, held]
        rfl
    · refine ⟨phases, node, last, ?_, h.is, h.safe⟩
      rw [Network.getElem?_setKeys, if_neg here]
      exact h.found

theorem underway (compete : Compete creators ns server) {world : Network}
    (found : world.nodes[server]? = some node) (filed : Filed node.keyspace ns last)
    (refer : NamesRefer node.keyspace ns)
    (reached : Relation.ReflTransGen (Step creators) (.start creators world) race) :
    ∃ phases node' last', race.Underway creators ns server phases node' last' := by
  induction reached with
  | refl => exact ⟨_, node, last, found, fun i => (creators i).is_looking, .start filed refer⟩
  | tail _ step ih =>
    obtain ⟨phases, node', last', h⟩ := ih
    exact h.step compete step

end Race

/-- **Races are consistent**, whenever one looks. -/
theorem race_consistent [DecidableEq ι] {race : Race ι} {world : Network} {node : Node} {last : Nat}
    (compete : Compete creators ns server) (found : world.nodes[server]? = some node)
    (filed : Filed node.keyspace ns last)
    (refer : NamesRefer node.keyspace ns)
    (reached : Relation.ReflTransGen (Race.Step creators) (.start creators world) race) :
    ∃ node', race.world.nodes[server]? = some node' ∧
      race.Consistent creators ns node'.keyspace := by
  obtain ⟨phases, node', last', h⟩ := Race.underway compete found filed refer reached
  exact ⟨node', h.found, h.consistent compete⟩

/-- Creators act in an order. -/
def Race.play [DecidableEq ι] (race : Race ι) (order : List ι) : Race ι := order.foldl Race.act race

theorem Race.play_reached [DecidableEq ι] {race : Race ι} (order : List ι)
    (runs : ∀ i ∈ order, i ∉ race.stopped) :
    Relation.ReflTransGen (Step creators) race (race.play order) := by
  induction order generalizing race with
  | nil => exact .refl
  | cons i rest ih =>
    refine .head (.act (runs i List.mem_cons_self)) (ih fun j inside => ?_)
    rw [act_eq]
    exact runs j (List.mem_cons_of_mem i inside)

end Safety

/-- A server that holds nothing. -/
def emptyNetwork : Network := ⟨[⟨"", .empty⟩], [⟨"a", 1, 0⟩]⟩

/-- Two creators of one name, and one of another name. -/
def racers (i : Fin 3) : Creator where
  client := .ofOptions { connections := [(⟨0⟩, ⟨"a", 1, "", 0, .server⟩)] }
  connections := [(⟨0⟩, ⟨0, true⟩)]
  now := 0
  chance := ⟨toString i.val, 1⟩
  input := ⟨⟨0⟩, if i = 2 then "wind" else "load", ["a"], none⟩

/-- The second creator waits for the lock of the first one, and the third one overtakes both. -/
def raceOrder : List (Fin 3) := [0, 1, 0, 2, 1, 2, 0, 2, 2, 0, 2, 0, 0, 1, 2, 1, 1]

/-- The first creator creates its series, the second one finds it, and the third one creates its
own. -/
theorem race_consistent_overtaken :
    let race := (Race.start racers emptyNetwork).play raceOrder
    race.answer? 0 = some (⟨2⟩, true) ∧ race.answer? 1 = some (⟨2⟩, false) ∧
      race.answer? 2 = some (⟨1⟩, true) ∧
      ∃ node, race.world.nodes[0]? = some node ∧ race.Consistent racers ⟨0⟩ node.keyspace := by
  refine ⟨by decide +kernel, by decide +kernel, by decide +kernel, ?_⟩
  have tokens : ∀ i j, (racers i).chance.token = (racers j).chance.token → i = j := by
    decide +kernel
  exact race_consistent ⟨fun _ => rfl, fun _ => rfl, fun i j => tokens i j⟩ rfl (filed_empty _)
    (fun n e found => by cases found) (Race.play_reached raceOrder fun i _ stopped => stopped)

end Remote

end SeriesStorage
