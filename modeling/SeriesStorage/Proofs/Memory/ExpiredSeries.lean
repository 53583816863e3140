import SeriesStorage.Proofs.Memory.ReachedStores

/-!
# Expired series of a store

A read or a write that finds its series expired has it deleted and fails.  Who deletes it depends on
the link of the backend: without a living link the backend does, and a link may lead back to it.

* `Described`: every descriptor has a name of its own.  This holds of all reached stores, also when
  ids repeat because their counter went round (`described_run`).
* `Forgets`: a store lost one series and nothing else.
* `visitAt_expires`: what a read or a write does with a series that is there.
-/

namespace SeriesStorage

/-- The series that a read or a write is about. -/
def Call.accessed? : Call → Option SeriesRef
  | .write ref _ _ _ _ => some ref
  | .read ref _ => some ref
  | _ => none

/-- Expired series of the backend at a place are deleted from it: there is no link, the receiver of
its reports is gone, or the link leads back to this backend. -/
def DeletesAt (place : Nat) (link : Option Link) : Prop :=
  ∀ l ∈ link, l.alive = true → l.deleter = .backend place

theorem Outcome.state_andThen_succeed {σ α β : Type} (first : Outcome σ α) (f : α → β) :
    (first.andThen fun a s => .succeed (f a) s).state = first.state := by
  obtain ⟨answer, state⟩ := first
  cases answer <;> rfl

/-- Failing after a call gives its error, if it has one. -/
theorem Outcome.andThen_fail_eq {σ α β : Type} (first : Outcome σ α) (e : Error) :
    (first.andThen fun _ s => .fail e s : Outcome σ β) =
      .fail (match first.answer with | .ok _ => e | .error e' => e') first.state := by
  obtain ⟨answer, state⟩ := first
  cases answer <;> rfl

/-! ## Names of their own -/

namespace Memory.Store

/-- Every descriptor is found under its id and under its name. -/
def Described (s : Store) : Prop :=
  ∀ id m, s.records.get? id = some m → m.id = id ∧ s.names.get? (m.ns, m.name) = some id

theorem described_empty : empty.Described := by
  intro id m found
  cases found

theorem names_eq_none_of_lookupName {s : Store} {ns : Namespace} {name : String}
    (absent : s.lookupName ns name = .ok none) : s.names.get? (ns, name) = none := by
  unfold lookupName at absent
  cases found : s.names.get? (ns, name) with
  | none => rfl
  | some id =>
    rw [found] at absent
    dsimp only at absent
    split at absent <;> cases absent

namespace Described

variable {s : Store}

/-- Two series do not share a name. -/
theorem id_eq (h : s.Described) {id id' : SeriesId} {m m' : SeriesMetadata}
    (found : s.records.get? id = some m) (found' : s.records.get? id' = some m')
    (name : (m.ns, m.name) = (m'.ns, m'.name)) : id = id' := by
  have named := (h id m found).2
  rw [name, (h id' m' found').2] at named
  exact (Option.some.inj named).symm

theorem createSeries (h : s.Described) (now : UInt64) {input : SeriesInput}
    (absent : s.names.get? (input.ns, input.name) = none) :
    (s.createSeries now input).Described := by
  intro id m found
  rw [records_createSeries, Table.get?_insert] at found
  rw [names_createSeries, Table.get?_insert]
  -- An id that was in use gets the new descriptor, and the old one is no longer found.
  split at found
  · next same =>
    obtain rfl := Option.some.inj found
    exact ⟨same, by simp [SeriesInput.describe, same]⟩
  · obtain ⟨own, named⟩ := h id m found
    refine ⟨own, ?_⟩
    rw [if_neg]
    · exact named
    · intro same
      rw [← same, absent] at named
      cases named

theorem insertPass (h : s.Described) (now : UInt64) (batch : CreateBatch) :
    (Store.insertPass now batch s).state.Described := by
  induction batch generalizing s with
  | nil => exact h
  | cons entry rest ih =>
    obtain ⟨mark, input⟩ := entry
    rw [Store.insertPass]
    split
    · exact h
    · rw [Outcome.state_andThen_succeed]
      exact ih h
    · next absent =>
      rw [Outcome.state_andThen_succeed]
      exact ih (h.createSeries now (names_eq_none_of_lookupName absent))

theorem create (h : s.Described) (now : UInt64) (batch : CreateBatch) :
    (s.create now batch).state.Described := by
  unfold Store.create
  split
  · exact h
  · rw [Outcome.state_andThen_succeed]
    exact h.insertPass now _

theorem unregisterId (h : s.Described) (id : SeriesId) : (s.unregisterId id).Described := by
  intro other m found
  rw [records_unregisterId] at found
  split at found
  · cases found
  · next apart =>
    obtain ⟨own, named⟩ := h other m found
    refine ⟨own, ?_⟩
    unfold Store.unregisterId
    cases gone : s.records.get? id with
    | none => exact named
    | some m' =>
      show (s.names.erase (m'.ns, m'.name)).get? (m.ns, m.name) = some other
      rw [Table.get?_erase, if_neg fun same => apart (h.id_eq gone found same), named]

theorem foldl_unregisterId (h : s.Described) (refs : List SeriesRef) :
    (refs.foldl (fun s ref => s.unregisterId ref.id) s).Described := by
  induction refs generalizing s with
  | nil => exact h
  | cons ref rest ih => exact ih (h.unregisterId ref.id)

theorem delete (h : s.Described) (refs : List SeriesRef) : (s.delete refs).state.Described := by
  by_cases has : ∀ ref ∈ refs, s.Has ref
  · rw [delete_of_has has]
    exact h.foldl_unregisterId refs
  · obtain ⟨e, _, refused⟩ := delete_of_not_has has
    rw [refused]
    exact h

end Described

/-- A read of points finds some or none. -/
theorem pointsIn_cases (s : Store) (ref : SeriesRef) (window : Window) :
    s.pointsIn ref window = .error .noDataFound ∨
      ∃ points, s.pointsIn ref window = .ok points := by
  unfold pointsIn
  split
  · exact Or.inl rfl
  · split
    · exact Or.inl rfl
    · exact Or.inr ⟨_, rfl⟩

/-! ## Losing one series -/

/-- What is left after the deletion of one series, which had a descriptor: its descriptor, its name
and its points are gone, and everything else is as it was. -/
structure Forgets (s : Store) (ref : SeriesRef) (m : SeriesMetadata) (after : Store) : Prop where
  deleted : s.delete [ref] = .succeed () after
  record : after.records.get? ref.id = none
  name : after.names.get? (m.ns, m.name) = none
  points : after.points.get? ref = none
  otherSeries : ∀ id m', id ≠ ref.id → s.records.get? id = some m' →
    after.records.get? id = some m' ∧ after.names.get? (m'.ns, m'.name) = some id
  otherRecords : ∀ id, id ≠ ref.id → after.records.get? id = s.records.get? id
  otherNames : ∀ key, key ≠ (m.ns, m.name) → after.names.get? key = s.names.get? key
  otherPoints : ∀ other, other ≠ ref → after.points.get? other = s.points.get? other
  counter : after.lastId = s.lastId

theorem Described.forgets {s : Store} (h : s.Described) {ref : SeriesRef} {m : SeriesMetadata}
    (there : s.records.get? ref.id = some m) (owner : m.ns = ref.ns) :
    s.Forgets ref m (s.without [ref]) := by
  have names : (s.without [ref]).names = s.names.erase (m.ns, m.name) := by
    show (s.unregisterId ref.id).names = _
    unfold Store.unregisterId
    rw [there]
  have kept : ∀ id, id ≠ ref.id → (s.without [ref]).records.get? id = s.records.get? id := by
    intro id apart
    rw [records_without, if_neg (by simpa using Ne.symm apart)]
  refine
    { deleted := delete_of_has ?_
      record := by rw [records_without, if_pos ⟨ref, List.mem_singleton_self ref, rfl⟩]
      name := by rw [names, Table.get?_erase, if_pos rfl]
      points := by rw [points_without, if_pos (List.mem_singleton_self ref)]
      otherSeries := ?_
      otherRecords := kept
      otherNames := ?_
      otherPoints := ?_
      counter := lastId_without s [ref] }
  · intro other inside
    obtain rfl := List.mem_singleton.mp inside
    exact ⟨m, there, owner⟩
  · intro id m' apart found
    refine ⟨(kept id apart).trans found, ?_⟩
    rw [names, Table.get?_erase, if_neg fun same => apart (h.id_eq there found same).symm]
    exact (h id m' found).2
  · intro key apart
    rw [names, Table.get?_erase, if_neg (Ne.symm apart)]
  · intro other apart
    rw [points_without, if_neg (by simpa using apart)]

end Memory.Store

/-! ## Properties of all stores -/

namespace Deployment

open Memory (Store)

/-- What creations, deletions and writes keep, and what is true of an empty store, is kept by every
call. -/
theorem Each.visitAt {P : Store → Prop} (empty : P .empty)
    (creates : ∀ s now batch, P s → P (s.create now batch).state)
    (deletes : ∀ s refs, P s → P (s.delete refs).state)
    (appends : ∀ s ref more, P s → P (s.append ref more)) {d : Deployment}
    (h : d.Each fun _ => P) (place : Nat) (v : Visit) :
    (d.visitAt place v).state.Each fun _ => P := by
  obtain ⟨time, call⟩ := v
  have h : (d.setTime time).Each fun _ => P := h
  have deletable : Deletable fun _ => P := fun _ s refs => deletes s refs
  cases call with
  | connect => exact h.onBackend_keeps fun s old => old
  | flush req => exact h.onBackend_keeps fun s old => old
  | clear => exact h.onBackend_keeps fun s old => empty
  | search query => exact h.onBackend_keeps fun s old => old
  | create chances batch => exact h.onBackend_keeps fun s old => creates s _ batch old
  | delete refs => exact h.onBackend_keeps fun s old => deletes s refs old
  | write ref req draws times values =>
    refine h.guarded deletable fun m d' there => ?_
    exact there.onBackend (fun _ _ _ old => old.1) fun s old _ => appends s ref _ old.1
  | read ref window =>
    refine h.guarded deletable fun m d' there => ?_
    exact there.onBackend (fun _ _ _ old => old.1) fun s old _ => old.1

/-- The descriptors of all stores have names of their own, whatever happens. -/
theorem described_run {start : Deployment} (fresh : ∀ store ∈ start.stores, store = .empty)
    (events : List Event) : (start.run events).2.Each fun _ => Store.Described := by
  have described : start.Each fun _ => Store.Described := by
    intro k first link found
    rw [fresh first]
    · exact Store.described_empty
    · exact List.mem_filterMap.mpr ⟨_, List.mem_of_getElem? found, rfl⟩
  clear fresh
  induction events generalizing start with
  | nil => exact described
  | cons event rest ih =>
    cases event with
    | call place v =>
      exact ih (Each.visitAt Store.described_empty (fun s now batch old => old.create now batch)
        (fun s refs old => old.delete refs) (fun s ref more old => old) described place v)
    | link place link => exact ih (described.setLink link)

/-! ## An access to a series that is there -/

variable {d : Deployment} {place : Nat} {s : Store} {link : Option Link}

theorem setBackend_self {backend : Backend}
    (here : d.participants[place]? = some ⟨backend, link⟩) : d.setBackend place backend = d := by
  obtain ⟨participants, stage, now, reports⟩ := d
  unfold setBackend
  congr 1
  refine List.ext_getElem? fun k => ?_
  rw [List.getElem?_modify]
  split
  · next same =>
    subst same
    rw [show participants[place]? = _ from here]
    rfl
  · exact Option.map_id'

/-- A call of the store at a place, and what is at the place afterwards. -/
theorem onBackend_memory {α : Type} (here : d.participants[place]? = some ⟨.memory s, link⟩)
    (memory : Store → Outcome Store α) (remote : Remote.Task α) :
    d.onBackend place memory remote =
        ⟨(memory s).answer, d.setBackend place (.memory (memory s).state)⟩ ∧
      (d.onBackend place memory remote).state.participants[place]? =
        some ⟨.memory (memory s).state, link⟩ := by
  have same : d.onBackend place memory remote =
      ⟨(memory s).answer, d.setBackend place (.memory (memory s).state)⟩ := by
    unfold onBackend
    rw [here]
  refine ⟨same, ?_⟩
  rw [same, get?_setBackend, here, Option.map_some, if_pos rfl]

theorem access_memory (here : d.participants[place]? = some ⟨.memory s, link⟩) (ref : SeriesRef) :
    d.access place ref = .succeed (s.access d.now.seconds ref) d := by
  unfold access
  rw [(onBackend_memory here _ _).1]
  exact congrArg (Outcome.succeed _) (setBackend_self here)

variable {ref : SeriesRef} {m : SeriesMetadata}

/-- A deletion of a series that is there. -/
theorem delete_memory (here : d.participants[place]? = some ⟨.memory s, link⟩)
    (has : s.Has ref) : (d.delete place [ref]).answer = .ok () ∧
      (d.delete place [ref]).state.participants[place]? =
        some ⟨.memory (s.without [ref]), link⟩ := by
  have deleted : s.delete [ref] = .succeed () (s.without [ref]) := by
    refine Store.delete_of_has fun other inside => ?_
    obtain rfl := List.mem_singleton.mp inside
    exact has
  unfold delete
  obtain ⟨served, left⟩ := onBackend_memory here (·.delete [ref]) (Remote.delete [ref])
  rw [left, served, deleted]
  exact ⟨rfl, rfl⟩

/-- An expired series is deleted where the link says. -/
theorem expire_memory (here : d.participants[place]? = some ⟨.memory s, link⟩)
    (has : s.Has ref) (deletes : DeletesAt place link) : (d.expire place ref).answer = .ok () ∧
      (d.expire place ref).state.participants[place]? =
        some ⟨.memory (s.without [ref]), link⟩ := by
  unfold expire
  rw [here, Option.bind_some]
  split
  · next deleter linked =>
    obtain rfl : deleter = .backend place := deletes ⟨deleter, true⟩ linked rfl
    exact delete_memory (d := d.report [ref]) here has
  · exact delete_memory here has

/-- A read or a write of an expired series gets rid of the series and fails. -/
theorem guarded_expired {α : Type} {act : SeriesMetadata → Deployment → Outcome Deployment α}
    (here : d.participants[place]? = some ⟨.memory s, link⟩)
    (found : s.access d.now.seconds ref = .expired m) :
    d.guarded place ref act =
      (d.expire place ref).andThen fun _ d => .fail .seriesExpired d := by
  unfold guarded
  rw [access_memory here, found]
  rfl

theorem guarded_live {α : Type} {act : SeriesMetadata → Deployment → Outcome Deployment α}
    (here : d.participants[place]? = some ⟨.memory s, link⟩)
    (found : s.access d.now.seconds ref = .live m) : d.guarded place ref act = act m d := by
  unfold guarded
  rw [access_memory here, found]
  rfl

/-- A store stays at its place, whatever another backend or the store itself does. -/
theorem onBackend_stays {α : Type} {k : Nat} {memory : Store → Outcome Store α}
    {remote : Remote.Task α} (here : d.participants[place]? = some ⟨.memory s, link⟩) :
    ∃ after, (d.onBackend k memory remote).state.participants[place]? =
      some ⟨.memory after, link⟩ := by
  by_cases same : k = place
  · subst same
    exact ⟨_, (onBackend_memory here _ _).2⟩
  · refine ⟨s, ?_⟩
    unfold onBackend
    split
    · exact here
    · rw [get?_setBackend, here, Option.map_some, if_neg same]
    · show (d.setBackend k _).participants[place]? = _
      rw [get?_setBackend, here, Option.map_some, if_neg same]

theorem expire_stays (here : d.participants[place]? = some ⟨.memory s, link⟩) (ref : SeriesRef) :
    ∃ after, (d.expire place ref).state.participants[place]? = some ⟨.memory after, link⟩ := by
  unfold expire
  split
  · next deleter _ =>
    cases deleter with
    | backend k => exact onBackend_stays (d := d.report [ref]) here
    | failing e => exact ⟨s, here⟩
    | idle => exact ⟨s, here⟩
  · exact onBackend_stays here

/-- A read or a write of a live series changes no descriptor, and it finds the series. -/
theorem perform_live (here : d.participants[place]? = some ⟨.memory s, link⟩)
    (found : s.access d.now.seconds ref = .live m) {call : Call}
    (accesses : call.accessed? = some ref) :
    ∃ after, (d.perform place call).state.participants[place]? = some ⟨.memory after, link⟩ ∧
      (d.perform place call).answer ≠ .error .metadataNotFound ∧
      (d.perform place call).answer ≠ .error .seriesExpired ∧
      after.records = s.records ∧ after.names = s.names ∧ after.lastId = s.lastId := by
  cases call with
  | write ref' req draws times values =>
    obtain rfl := Option.some.inj accesses
    refine ⟨s.append ref' (Store.keyedValues draws times values), ?_⟩
    rw [perform, guarded_live here found]
    obtain ⟨served, left⟩ := onBackend_memory here
      (fun s => .succeed () (s.append ref' (Store.keyedValues draws times values)))
      (Remote.append ref'.ns req m draws times values)
    refine ⟨left, ?_, ?_, rfl, rfl, rfl⟩ <;>
    · rw [served]
      exact nofun
  | read ref' window =>
    obtain rfl := Option.some.inj accesses
    refine ⟨s, ?_⟩
    rw [perform, guarded_live here found]
    obtain ⟨served, left⟩ := onBackend_memory here (fun s => .answered (s.pointsIn ref' window) s)
      (Remote.fetch ref' window)
    refine ⟨left, ?_⟩
    rw [served]
    rcases Store.pointsIn_cases s ref' window with none | ⟨points, some⟩
    · rw [none]
      exact ⟨nofun, nofun, rfl, rfl, rfl⟩
    · rw [some]
      exact ⟨nofun, nofun, rfl, rfl, rfl⟩
  | _ => cases accesses

theorem perform_expired (here : d.participants[place]? = some ⟨.memory s, link⟩)
    (found : s.access d.now.seconds ref = .expired m) {call : Call}
    (accesses : call.accessed? = some ref) :
    d.perform place call = (d.expire place ref).andThen fun _ d => .fail .seriesExpired d := by
  cases call with
  | write ref' req draws times values =>
    obtain rfl := Option.some.inj accesses
    exact guarded_expired here found
  | read ref' window =>
    obtain rfl := Option.some.inj accesses
    exact guarded_expired here found
  | _ => cases accesses

end Deployment

open Memory (Store)

/-- **Access to a series of a store.**  In every reached state, a read or a write of a series that
is there finds it as long as its time has not passed, and then changes no descriptor.  Once the time
has passed the call fails, and what becomes of the series depends on the link: if expired series are
deleted from this very backend, the call says that the series expired and leaves what a deletion of
this one series leaves; if the link fails, the call fails with its error and nothing changes. -/
theorem visitAt_expires {start : Deployment} (fresh : ∀ store ∈ start.stores, store = .empty)
    (events : List Event) {place : Nat} {s : Store} {link : Option Link}
    (here : (start.run events).2.participants[place]? = some ⟨.memory s, link⟩)
    {ref : SeriesRef} {m : SeriesMetadata} (there : s.records.get? ref.id = some m)
    (owner : m.ns = ref.ns) (v : Visit) (accesses : v.call.accessed? = some ref) :
    let outcome := (start.run events).2.visitAt place v
    ∃ after, outcome.state.participants[place]? = some ⟨.memory after, link⟩ ∧
      ((∀ last, m.expireAt = some last → v.time.seconds ≤ last) →
        outcome.answer ≠ .error .metadataNotFound ∧ outcome.answer ≠ .error .seriesExpired ∧
          after.records = s.records ∧ after.names = s.names ∧ after.lastId = s.lastId) ∧
      ∀ last, m.expireAt = some last → last < v.time.seconds →
        (∀ result, outcome.answer ≠ .ok result) ∧
        (DeletesAt place link → outcome.answer = .error .seriesExpired ∧ s.Forgets ref m after) ∧
        ∀ e, link = some ⟨.failing e, true⟩ → outcome.answer = .error e ∧ after = s := by
  have described : s.Described := Deployment.described_run fresh events place s link here
  generalize (start.run events).2 = d at here
  obtain ⟨time, call⟩ := v
  have here : (d.setTime time).participants[place]? = some ⟨.memory s, link⟩ := here
  intro outcome
  have looked : s.access time.seconds ref =
      if m.isExpired time.seconds then .expired m else .live m := by
    unfold Store.access Access.ofMetadata
    rw [there]
    exact if_neg (not_not_intro owner)
  cases gone : m.isExpired time.seconds with
  | false =>
    rw [gone, if_neg Bool.false_ne_true] at looked
    obtain ⟨after, left, known, inTime, kept⟩ := Deployment.perform_live here looked accesses
    refine ⟨after, left, fun _ => ⟨known, inTime, kept⟩, fun last ends passed => ?_⟩
    rw [(m.isExpired_iff _).mpr ⟨last, ends, passed⟩] at gone
    cases gone
  | true =>
    rw [gone, if_pos rfl] at looked
    have removes := Deployment.perform_expired here looked accesses
    rw [Outcome.andThen_fail_eq] at removes
    change outcome = _ at removes
    obtain ⟨after, left⟩ := Deployment.expire_stays here ref
    rw [removes]
    refine ⟨after, left, fun inTime => ?_, fun last ends passed => ⟨fun _ => nofun, ?_, ?_⟩⟩
    · obtain ⟨last, ends, passed⟩ := (m.isExpired_iff _).mp gone
      exact absurd (UInt64.lt_of_lt_of_le passed (inTime last ends)) (UInt64.lt_irrefl _)
    · intro deletes
      obtain ⟨done, without⟩ := Deployment.expire_memory here ⟨m, there, owner⟩ deletes
      obtain ⟨same, _⟩ := Participant.mk.inj (Option.some.inj (left.symm.trans without))
      obtain rfl := Backend.memory.inj same
      rw [done]
      exact ⟨rfl, described.forgets there owner⟩
    · rintro e rfl
      have fails : (d.setTime time).expire place ref =
          .fail e ((d.setTime time).report [ref]) := by
        unfold Deployment.expire
        rw [here]
        rfl
      rw [fails] at left ⊢
      obtain ⟨same, _⟩ := Participant.mk.inj (Option.some.inj (left.symm.trans here))
      exact ⟨rfl, Backend.memory.inj same⟩

/-- Of a store that is linked back to itself, a series that expired two seconds ago disappears with
its points when it is read. -/
theorem visitAt_expires_linked_back :
    let ref : SeriesRef := ⟨⟨0⟩, ⟨1⟩⟩
    let events : List Event :=
      [.call 0 ⟨⟨0⟩, .create (fun _ => default) [(⟨7⟩, ⟨⟨0⟩, "load", [], some 3⟩)]⟩,
        .call 0 ⟨⟨1000⟩, .write ref .empty (fun _ _ => .zero) [5] [.ofUInt64 3]⟩,
        .link 0 ⟨.backend 0, true⟩]
    let d := ((Deployment.ofBackends [.memory .empty] ⟨0⟩).run events).2
    ∃ s after m, d.participants[0]? = some ⟨.memory s, some ⟨.backend 0, true⟩⟩ ∧
      s.pointCount ref = 1 ∧ s.records.get? ref.id = some m ∧
      (d.visitAt 0 ⟨⟨5000⟩, .read ref ⟨0, 10⟩⟩).answer = .error .seriesExpired ∧
      s.Forgets ref m after := by
  intro ref events d
  have fresh : ∀ store ∈ (Deployment.ofBackends [.memory .empty] ⟨0⟩).stores, store = .empty := by
    decide +kernel
  obtain ⟨after, _, _, expired⟩ := @visitAt_expires _ fresh events 0 _ _ rfl ref
    ⟨⟨1⟩, ⟨0⟩, "load", [], some 3⟩ rfl rfl ⟨⟨5000⟩, .read ref ⟨0, 10⟩⟩ rfl
  obtain ⟨_, deleted, _⟩ := expired 3 rfl (by decide)
  refine ⟨_, after, _, rfl, rfl, rfl, deleted ?_⟩
  intro l linked _
  rw [← Option.some.inj linked]

end SeriesStorage
