import SeriesStorage.Proofs.Memory.AcceptedPoints

/-!
# Stores of a deployment

Whatever happens to a deployment (its backends are called in any order and told whom to report
expired series to, while the clock goes in any direction), its stores in memory stay consistent as
long as their counters of ids have room.

* `Event`, `Deployment.run`: what happens, and what was answered at which place.
* `createdSinceClear`: how many ids a store has given since it was cleared.
* `Counted`: a consistent store that counted its ids.
* `counted_run`: all stores are, after any events.
-/

namespace SeriesStorage

/-! ## Events -/

/-- Something that happens to a deployment: the backend at a place is called, or linked. -/
inductive Event
  | call (place : Nat) (v : Visit)
  | link (place : Nat) (link : Link)

/-- An answer, and the place of the backend that gave it. -/
abbrev PlacedEntry := Nat × TraceEntry

namespace Deployment

/-- Serves a visit with the backend at a place. -/
def visitAt (d : Deployment) (place : Nat) (v : Visit) : Outcome Deployment Answer :=
  (d.setTime v.time).perform place v.call

/-- Lets events happen one after the other. -/
def run (d : Deployment) : List Event → List PlacedEntry × Deployment
  | [] => ([], d)
  | .call place v :: rest =>
    let outcome := d.visitAt place v
    let (trace, d) := outcome.state.run rest
    ((place, v, outcome.answer) :: trace, d)
  | .link place link :: rest => (d.setLink place link).run rest

end Deployment

/-- Whether everything is forgotten with an entry. -/
def clears : TraceEntry → Bool
  | (⟨_, .clear⟩, .ok _) => true
  | _ => false

/-- How many series were created since the last clearing, after one more entry. -/
def recount (count : Nat) (e : TraceEntry) : Nat :=
  if clears e then 0 else count + createdBy e

/-- How many series the backend at a place created since it was cleared, after one more entry. -/
def recountAt (place count : Nat) (entry : PlacedEntry) : Nat :=
  if entry.1 = place then recount count entry.2 else count

/-- How many series the backend at a place created since it was cleared. -/
def createdSinceClear (place : Nat) (trace : List PlacedEntry) : Nat :=
  trace.foldl (recountAt place) 0

/-- A call that answers nothing about new series does not count. -/
theorem recount_map {α : Type} (count : Nat) {v : Visit}
    (keeps : ∀ answer, clears (v, answer) = false) (answer : Except Error α)
    {f : α → Answer} (noRows : ∀ a rows, f a ≠ .created rows) :
    recount count (v, answer.map f) = count := by
  unfold recount
  rw [keeps, if_neg Bool.false_ne_true]
  cases answer with
  | error e => rfl
  | ok a =>
    show count + createdBy (v, .ok (f a)) = count
    cases answered : f a with
    | created rows => exact absurd answered (noRows a rows)
    | _ => rfl

/-! ## Stores that counted their ids -/

namespace Memory.Store

/-- As long as the counter of ids has room, the store is consistent, and its counter says how many
series were created. -/
def Counted (s : Store) (count : Nat) : Prop :=
  count < 0x10000000000000000 → s.Consistent ∧ s.lastId.toNat = count

theorem counted_empty : empty.Counted 0 := fun _ => ⟨consistent_empty, rfl⟩

namespace Counted

variable {s : Store} {count : Nat}

theorem delete (h : s.Counted count) (refs : List SeriesRef) :
    (s.delete refs).state.Counted count := by
  by_cases has : ∀ ref ∈ refs, s.Has ref
  · rw [delete_of_has has]
    intro room
    obtain ⟨hc, counted⟩ := h room
    exact ⟨hc.without has, (congrArg UInt64.toNat (lastId_without s refs)).trans counted⟩
  · obtain ⟨e, _, hfail⟩ := delete_of_not_has has
    rw [hfail]
    exact h

theorem append (h : s.Counted count) {ref : SeriesRef} (has : s.Has ref)
    (more : List KeyedValue) : (s.append ref more).Counted count := by
  intro room
  obtain ⟨hc, counted⟩ := h room
  exact ⟨hc.append has more, counted⟩

/-- A creation counts the ids that it gives. -/
theorem create (h : s.Counted count) (time : Instant) (chances : LockChances) (now : UInt64)
    (batch : CreateBatch) : (s.create now batch).state.Counted (recount count
      (⟨time, .create chances batch⟩, (s.create now batch).answer.map .created)) := by
  intro room
  obtain ⟨hc, counted⟩ := h (Nat.lt_of_le_of_lt (Nat.le_add_right _ _) room)
  obtain ⟨rows, all, s', hcreate, hinserts, hperm⟩ := hc.linked.create now batch
  rw [hcreate] at room ⊢
  change count + newCount rows < _ at room
  show s'.Consistent ∧ s'.lastId.toNat = count + newCount rows
  rw [newCount_perm hperm] at room ⊢
  obtain ⟨hc', counted'⟩ := hinserts.consistent hc (by omega)
  exact ⟨hc', by omega⟩

end Counted

/-- An access finds a live series only if the series is there. -/
theorem has_of_live {s : Store} {now : UInt64} {ref : SeriesRef} {m : SeriesMetadata}
    (live : s.access now ref = .live m) : s.Has ref := by
  obtain ⟨found, hns, _⟩ := Access.ofMetadata_eq_live_iff.mp live
  exact ⟨m, found, hns⟩

end Memory.Store

/-! ## What events do to stores -/

namespace Deployment

open Memory (Store)

/-- Something is true of every store, which may depend on its place. -/
def Each (d : Deployment) (P : Nat → Store → Prop) : Prop :=
  ∀ place store link, d.participants[place]? = some ⟨.memory store, link⟩ → P place store

theorem get?_setLink (d : Deployment) (place k : Nat) (link : Link) :
    (d.setLink place link).participants[k]? = d.participants[k]?.map fun p =>
      if place = k then { p with link := some link } else p := by
  simp [Deployment.setLink, List.getElem?_modify]

theorem get?_setBackend (d : Deployment) (place k : Nat) (backend : Backend) :
    (d.setBackend place backend).participants[k]? = d.participants[k]?.map fun p =>
      if place = k then { p with backend } else p := by
  simp [Deployment.setBackend, List.getElem?_modify]

namespace Each

variable {d : Deployment} {P Q : Nat → Store → Prop} {place : Nat}

theorem setLink (h : d.Each P) (link : Link) : (d.setLink place link).Each P := by
  intro k store link' found
  rw [get?_setLink, Option.map_eq_some_iff] at found
  obtain ⟨p, found, same⟩ := found
  have backend : p.backend = .memory store := by
    refine Eq.trans ?_ (congrArg Participant.backend same)
    split <;> rfl
  exact h k store p.link (by rw [found, ← backend])

theorem setBackend (h : d.Each P) (others : ∀ k store, k ≠ place → P k store → Q k store)
    {backend : Backend} (own : ∀ store, backend = .memory store → Q place store) :
    (d.setBackend place backend).Each Q := by
  intro k store link found
  rw [get?_setBackend, Option.map_eq_some_iff] at found
  obtain ⟨p, found, same⟩ := found
  split at same
  · next here =>
    subst here
    exact own store (congrArg Participant.backend same)
  · next elsewhere =>
    obtain rfl := same
    exact others k store (Ne.symm elsewhere) (h k store link found)

/-- What a backend does changes no store but its own, as the call of a store does. -/
theorem onBackend {α : Type} {memory : Store → Outcome Store α} {remote : Remote.Task α}
    (h : d.Each P) (others : ∀ k store, k ≠ place → P k store → Q k store)
    (own : ∀ store, P place store → (d.onBackend place memory remote).answer =
      (memory store).answer → Q place (memory store).state) :
    (d.onBackend place memory remote).state.Each Q := by
  unfold Deployment.onBackend at own ⊢
  split at own
  · next absent =>
    intro k store link found
    refine others k store ?_ (h k store link found)
    rintro rfl
    cases absent.symm.trans found
  · next store link here =>
    refine h.setBackend others fun store' same => ?_
    obtain rfl := Backend.memory.inj same
    exact own store (h place store link here) rfl
  · next client link here =>
    exact h.setBackend others fun store' same => by cases same

/-- What a backend does keeps what calls of its store keep. -/
theorem onBackend_keeps {α : Type} {memory : Store → Outcome Store α} {remote : Remote.Task α}
    (h : d.Each P) (own : ∀ store, P place store → P place (memory store).state) :
    (d.onBackend place memory remote).state.Each P :=
  h.onBackend (fun _ _ _ old => old) fun store old _ => own store old

end Each

/-- What deletions keep. -/
def Deletable (P : Nat → Store → Prop) : Prop :=
  ∀ place store refs, P place store → P place (store.delete refs).state

theorem Each.delete {d : Deployment} {P : Nat → Store → Prop} (h : d.Each P)
    (deletable : Deletable P) (place : Nat) (refs : List SeriesRef) :
    (d.delete place refs).state.Each P :=
  h.onBackend_keeps fun store old => deletable place store refs old

/-- Getting rid of an expired series deletes at most that series, wherever its link says. -/
theorem Each.expire {d : Deployment} {P : Nat → Store → Prop} (h : d.Each P)
    (deletable : Deletable P) (place : Nat) (ref : SeriesRef) :
    (d.expire place ref).state.Each P := by
  unfold Deployment.expire
  split
  · next deleter _ =>
    cases deleter with
    | backend k => exact Each.delete (d := d.report [ref]) h deletable k [ref]
    | failing e => exact h
    | idle => exact h
  · exact h.delete deletable place [ref]

/-- What an access finds in a store is what the store finds. -/
theorem Each.access {d : Deployment} {P : Nat → Store → Prop} (h : d.Each P) (place : Nat)
    (ref : SeriesRef) :
    (d.access place ref).state.Each fun k store => P k store ∧
      (k = place → (d.access place ref).answer = .ok (store.access d.now.seconds ref)) :=
  h.onBackend (fun _ _ elsewhere old => ⟨old, fun here => absurd here elsewhere⟩)
    fun _ old answered => ⟨old, fun _ => answered⟩

/-- What deletions keep, and what is done with a live series, is kept by a guarded call. -/
theorem Each.guarded {α : Type} {d : Deployment} {P : Nat → Store → Prop} (h : d.Each P)
    (deletable : Deletable P) {place : Nat} {ref : SeriesRef}
    {act : SeriesMetadata → Deployment → Outcome Deployment α}
    (acts : ∀ m d', (d'.Each fun k store => P k store ∧ (k = place → store.Has ref)) →
      (act m d').state.Each P) :
    (d.guarded place ref act).state.Each P := by
  have looked := h.access place ref
  have kept : (d.access place ref).state.Each P := fun k store link here =>
    (looked k store link here).1
  unfold Deployment.guarded
  cases answered : (d.access place ref).answer with
  | error e =>
    rw [Outcome.andThen_eq_of_error answered]
    exact kept
  | ok found =>
    rw [Outcome.andThen_eq_of_ok answered]
    cases found with
    | live m =>
      refine acts m _ fun k store link here => ⟨kept k store link here, fun same => ?_⟩
      have lives := (looked k store link here).2 same
      rw [answered] at lives
      exact Memory.Store.has_of_live (Except.ok.inj lives).symm
    | unknown => exact kept
    | expired m =>
      have gone := kept.expire deletable place ref
      dsimp only
      cases removed : ((d.access place ref).state.expire place ref).answer with
      | error e =>
        rw [Outcome.andThen_eq_of_error removed]
        exact gone
      | ok _ =>
        rw [Outcome.andThen_eq_of_ok removed]
        exact gone

end Deployment

/-! ## All stores have counted their ids -/

namespace Deployment

open Memory (Store)

/-- The stores have counted what was created at their places. -/
def AllCounted (counts : Nat → Nat) (d : Deployment) : Prop :=
  d.Each fun place store => store.Counted (counts place)

/-- What a call of a store does to its count decides what the call does to all counts. -/
theorem AllCounted.onBackend {d : Deployment} {counts : Nat → Nat} (h : d.AllCounted counts)
    {place : Nat} {memory : Store → Outcome Store Answer} {remote : Remote.Task Answer} {v : Visit}
    (own : ∀ store count, store.Counted count →
      (memory store).state.Counted (recount count (v, (memory store).answer))) :
    (d.onBackend place memory remote).state.AllCounted
      fun k => recountAt k (counts k) (place, v, (d.onBackend place memory remote).answer) := by
  refine Each.onBackend h (fun k store elsewhere old => ?_) fun store old answered => ?_
  · show store.Counted (if place = k then _ else counts k)
    rwa [if_neg (Ne.symm elsewhere)]
  · show (memory store).state.Counted (if place = place then recount _ _ else _)
    rw [if_pos rfl, answered]
    exact own store _ old

theorem map_guarded {α β : Type} (d : Deployment) (place : Nat) (ref : SeriesRef)
    (act : SeriesMetadata → Deployment → Outcome Deployment α) (f : α → β) :
    (d.guarded place ref act).map f = d.guarded place ref fun m d => (act m d).map f := by
  unfold guarded
  rw [Outcome.map_andThen]
  congr 1
  funext found d
  cases found with
  | live m => rfl
  | unknown => rfl
  | expired m => exact Outcome.map_andThen f _ _

/-- A guarded call counts nothing if it answers nothing about new series. -/
theorem AllCounted.guarded {α : Type} {d : Deployment} {counts : Nat → Nat}
    (h : d.AllCounted counts) {place : Nat} {ref : SeriesRef} {memory : Store → Outcome Store α}
    {remote : SeriesMetadata → Remote.Task α} {f : α → Answer} {v : Visit}
    (keeps : ∀ answer, clears (v, answer) = false) (noRows : ∀ a rows, f a ≠ .created rows)
    (own : ∀ store count, store.Has ref → store.Counted count →
      (memory store).state.Counted count) :
    let outcome := d.guarded place ref fun m d => (d.onBackend place memory (remote m)).map f
    outcome.state.AllCounted fun k => recountAt k (counts k) (place, v, outcome.answer) := by
  have kept : (d.guarded place ref fun m d =>
      d.onBackend place memory (remote m)).state.AllCounted counts := by
    refine Each.guarded h (fun _ _ refs old => old.delete refs) fun m d' there => ?_
    exact there.onBackend (fun _ _ _ old => old.1) fun store old _ => own store _ (old.2 rfl) old.1
  intro outcome
  have mapped : outcome =
      (d.guarded place ref fun m d => d.onBackend place memory (remote m)).map f :=
    (map_guarded d place ref _ f).symm
  have same : (fun k => recountAt k (counts k) (place, v, outcome.answer)) = counts := by
    funext k
    rw [mapped]
    exact ite_eq_right_iff.mpr fun _ => recount_map _ keeps _ noRows
  rw [same, mapped]
  exact kept

/-- **One call.**  It keeps the counts, as its answer tells. -/
theorem AllCounted.visitAt {d : Deployment} {counts : Nat → Nat} (h : d.AllCounted counts)
    (place : Nat) (v : Visit) :
    (d.visitAt place v).state.AllCounted
      fun k => recountAt k (counts k) (place, v, (d.visitAt place v).answer) := by
  obtain ⟨time, call⟩ := v
  have h : (d.setTime time).AllCounted counts := h
  cases call with
  | connect => exact h.onBackend fun store count old => old
  | flush req => exact h.onBackend fun store count old => old
  | clear => exact h.onBackend fun store count old => Memory.Store.counted_empty
  | search query =>
    refine h.onBackend fun store count old => ?_
    show store.Counted (recount count (_, (store.search query).map .found))
    rwa [recount_map count (fun _ => rfl) _ (by nofun)]
  | create chances batch => exact h.onBackend fun store count old => old.create time chances _ batch
  | delete refs =>
    refine h.onBackend fun store count old => ?_
    show (store.delete refs).state.Counted
      (recount count (_, (store.delete refs).answer.map fun _ => .done))
    rw [recount_map count (fun _ => rfl) _ (by nofun)]
    exact old.delete refs
  | write ref req draws times values =>
    exact h.guarded (fun _ => rfl) (by nofun) fun store count has old => old.append has _
  | read ref window =>
    exact h.guarded (fun _ => rfl) (by nofun) fun store count has old => old

/-- **All events.**  After any events all stores have counted what was created at their places. -/
theorem AllCounted.run {d : Deployment} {counts : Nat → Nat} (h : d.AllCounted counts)
    (events : List Event) :
    (d.run events).2.AllCounted fun k => (d.run events).1.foldl (recountAt k) (counts k) := by
  induction events generalizing d counts with
  | nil => exact h
  | cons event rest ih =>
    cases event with
    | call place v => exact ih (h.visitAt place v)
    | link place link => exact ih (Each.setLink h link)

/-- **Reached stores.**  Whatever happens to a deployment whose stores are empty at first, each
store stays consistent and counts its ids, as long as its counter has room. -/
theorem counted_run {start : Deployment} (fresh : ∀ store ∈ start.stores, store = .empty)
    (events : List Event) {place : Nat} {store : Store} {link : Option Link}
    (here : (start.run events).2.participants[place]? = some ⟨.memory store, link⟩) :
    store.Counted (createdSinceClear place (start.run events).1) := by
  have counted : start.AllCounted fun _ => 0 := by
    intro k first link' found
    rw [fresh first]
    · exact Memory.Store.counted_empty
    · exact List.mem_filterMap.mpr ⟨_, List.mem_of_getElem? found, rfl⟩
  exact counted.run events place store link here

end Deployment

/-! ## A store of its own -/

namespace Memory.Store

/-- **A visit** counts what it creates. -/
theorem Counted.visit {s : Store} {count : Nat} (h : s.Counted count) (v : Visit) :
    (s.visit v).state.Counted (recount count (v, (s.visit v).answer)) := by
  have lone : (Deployment.lone (.memory s) ⟨[], [], []⟩ v.time).AllCounted fun _ => count := by
    intro place store link found
    obtain ⟨same, _⟩ := Participant.mk.inj (List.mem_singleton.mp (List.mem_of_getElem? found))
    obtain rfl := Backend.memory.inj same
    exact h
  have after := lone.visitAt 0 v
  rw [show (Deployment.lone (.memory s) ⟨[], [], []⟩ v.time).visitAt 0 v = _ from
    Deployment.visit_lone_memory s _ v.time v] at after
  exact after 0 (s.visit v).state none rfl

theorem Counted.visits {s : Store} {count : Nat} (h : s.Counted count) (vs : List Visit) :
    (s.visits vs).2.Counted ((s.visits vs).1.foldl recount count) := by
  induction vs generalizing s count with
  | nil => exact h
  | cons v rest ih => exact ih (h.visit v)

theorem clears_eq_false {v : Visit} (keeps : v.call ≠ .clear) (answer : Except Error Answer) :
    clears (v, answer) = false := by
  obtain ⟨time, call⟩ := v
  cases call with
  | clear => exact absurd rfl keeps
  | _ => rfl

/-- Without a clearing the count never goes back. -/
theorem le_recount (s : Store) (vs : List Visit) (keeps : ∀ v ∈ vs, v.call ≠ .clear)
    (count : Nat) : count ≤ (s.visits vs).1.foldl recount count := by
  induction vs generalizing s count with
  | nil => exact Nat.le_refl count
  | cons v rest ih =>
    have kept : ∀ w ∈ rest, w.call ≠ .clear := fun w hw => keeps w (List.mem_cons_of_mem _ hw)
    refine Nat.le_trans ?_ (ih (s.visit v).state kept _)
    unfold recount
    rw [clears_eq_false (keeps v List.mem_cons_self), if_neg Bool.false_ne_true]
    exact Nat.le_add_right _ _

end Memory.Store

end SeriesStorage
