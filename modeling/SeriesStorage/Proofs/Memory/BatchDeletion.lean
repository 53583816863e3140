import SeriesStorage.Proofs.Memory.ConcurrentCalls
import SeriesStorage.Proofs.Memory.ExpiredSeries

/-!
# Deletions of batches

A deletion looks at its whole batch before it removes anything.  It fails for the first entry whose
id has no descriptor, or one of another namespace (`Refuses`), and then nothing has changed.
Otherwise it removes the series of the batch and nothing else (`Loses`), however often an entry is
repeated.

This holds of all stores in which descriptors have names of their own, and so of all that calls can
reach, one after the other or at the same time (`Concurrent.play_described`).

* `delete_exact`: what a deletion on a reached store does.
-/

namespace SeriesStorage

namespace Memory

open Store (Described)

/-! ## Reached stores -/

namespace Store.Described

variable {s : Store}

theorem unregister (h : s.Described) (refs : List SeriesRef) :
    (s.unregister refs).state.Described := by
  unfold Store.unregister
  split
  · exact h
  · exact h.foldl_unregisterId refs

/-- A section of a creation keeps descriptors with names of their own. -/
theorem actCreation (h : s.Described) (c : Creation) (now : UInt64) :
    (c.act now s).2.Described := by
  obtain ⟨batch, phase⟩ := c
  cases phase with
  | looking =>
    simp only [Creation.act]
    split <;> exact h
  | inserting found missing => exact h.insertPass now missing
  | returned answer => exact h

/-- A section of any call keeps descriptors with names of their own. -/
theorem act (h : s.Described) (a : Activity) (now : UInt64) : (a.act now s).2.Described := by
  cases a with
  | accessing ref purpose expiry =>
    simp only [Activity.act]
    split
    · exact h
    · exact h
    · split <;> exact h
  | serving ref purpose => cases purpose <;> exact h
  | unregistering refs answer =>
    simp only [Activity.act]
    split <;> exact h.unregister refs
  | dropping refs answer => exact h
  | creating c =>
    simp only [Activity.act]
    split <;> exact h.actCreation c now
  | searching query => exact h
  | clearing => exact described_empty
  | returned answer => exact h

end Store.Described

/-- Calls that take turns keep descriptors with names of their own. -/
theorem Concurrent.play_described {cs : Concurrent} (h : cs.store.Described)
    (schedule : List Turn) : (cs.play schedule).store.Described := by
  induction schedule generalizing cs with
  | nil => exact h
  | cons t rest ih =>
    refine ih ?_
    unfold turn
    split
    · exact h
    · next a _ => exact h.act a t.now

namespace Store

/-! ## What a deletion refuses -/

/-- A series is refused: its id has no descriptor, or one of another namespace. -/
inductive Refuses (s : Store) (ref : SeriesRef) : Error → Prop
  | unknown : s.records.get? ref.id = none → Refuses s ref .metadataNotFound
  | foreign {m : SeriesMetadata} : s.records.get? ref.id = some m → m.ns ≠ ref.ns →
      Refuses s ref .namespaceMismatch

/-- What is refused is not there. -/
theorem Refuses.not_has {s : Store} {ref : SeriesRef} {e : Error} (h : s.Refuses ref e) :
    ¬ s.Has ref := by
  rintro ⟨m, record, owner⟩
  cases h with
  | unknown absent => cases absent.symm.trans record
  | foreign found apart => exact apart (Option.some.inj (found.symm.trans record) ▸ owner)

theorem refuses_of_refusal? {s : Store} {ref : SeriesRef} {e : Error}
    (refused : s.refusal? ref = some e) : s.Refuses ref e := by
  unfold refusal? at refused
  split at refused
  · next absent =>
    obtain rfl := Option.some.inj refused
    exact .unknown absent
  · next m found =>
    split at refused
    · next apart =>
      obtain rfl := Option.some.inj refused
      exact .foreign found apart
    · cases refused

/-- A deletion that is refused fails for the first entry that is refused, and changes nothing. -/
theorem delete_refused {s : Store} {refs : List SeriesRef} (h : ¬ ∀ ref ∈ refs, s.Has ref) :
    ∃ before ref after e, refs = before ++ ref :: after ∧ (∀ other ∈ before, s.Has other) ∧
      s.Refuses ref e ∧ s.delete refs = .fail e s := by
  obtain ⟨e, first, failed⟩ := delete_of_not_has h
  obtain ⟨before, ref, after, split, refused, accepted⟩ := List.findSome?_eq_some_iff.mp first
  exact ⟨before, ref, after, e, split,
    fun other inside => (refusal?_eq_none_iff s other).mp (accepted other inside),
    refuses_of_refusal? refused, failed⟩

/-! ## What a deletion removes -/

/-- The name of a series of the batch. -/
def NamedIn (s : Store) (refs : List SeriesRef) (key : Namespace × String) : Prop :=
  ∃ ref ∈ refs, ∃ m, s.records.get? ref.id = some m ∧ (m.ns, m.name) = key

/-- What is left of a store after the deletion of a batch: the descriptors, names and points of its
series are gone, and everything else is as it was.  A series that is left keeps its name. -/
structure Loses (s : Store) (refs : List SeriesRef) (after : Store) : Prop where
  gone : ∀ ref ∈ refs, after.records.get? ref.id = none ∧ after.points.get? ref = none
  namesGone : ∀ key, s.NamedIn refs key → after.names.get? key = none
  records : ∀ id, (∀ ref ∈ refs, ref.id ≠ id) → after.records.get? id = s.records.get? id
  names : ∀ key, ¬ s.NamedIn refs key → after.names.get? key = s.names.get? key
  points : ∀ ref, ref ∉ refs → after.points.get? ref = s.points.get? ref
  counter : after.lastId = s.lastId
  others : ∀ id m, (∀ ref ∈ refs, ref.id ≠ id) → s.records.get? id = some m →
    after.names.get? (m.ns, m.name) = some id

/-- Only the name of the removed descriptor goes away. -/
theorem names_unregisterId (s : Store) (id : SeriesId) (key : Namespace × String) :
    (s.unregisterId id).names.get? key =
      if ∃ m, s.records.get? id = some m ∧ (m.ns, m.name) = key then none
      else s.names.get? key := by
  unfold unregisterId
  cases s.records.get? id with
  | none => simp
  | some m => simp

/-- The names of the batch go away, also where entries are repeated, and no others. -/
theorem names_without (s : Store) (refs : List SeriesRef) (key : Namespace × String) :
    (s.NamedIn refs key → (s.without refs).names.get? key = none) ∧
      (¬ s.NamedIn refs key → (s.without refs).names.get? key = s.names.get? key) := by
  show (_ → (refs.foldl (fun s ref => s.unregisterId ref.id) s).names.get? key = none) ∧
    (_ → (refs.foldl (fun s ref => s.unregisterId ref.id) s).names.get? key = _)
  induction refs generalizing s with
  | nil => exact ⟨fun ⟨_, inside, _⟩ => absurd inside List.not_mem_nil, fun _ => rfl⟩
  | cons ref rest ih =>
    obtain ⟨gone, kept⟩ := ih (s.unregisterId ref.id)
    rw [List.foldl_cons]
    by_cases first : ∃ m, s.records.get? ref.id = some m ∧ (m.ns, m.name) = key
    · have removed : (s.unregisterId ref.id).names.get? key = none := by
        rw [names_unregisterId, if_pos first]
      refine ⟨fun _ => ?_, fun unnamed => absurd ⟨ref, List.mem_cons_self, first⟩ unnamed⟩
      by_cases later : (s.unregisterId ref.id).NamedIn rest key
      · exact gone later
      · rw [kept later, removed]
    · have left : (s.unregisterId ref.id).names.get? key = s.names.get? key := by
        rw [names_unregisterId, if_neg first]
      have later : (s.unregisterId ref.id).NamedIn rest key ↔ s.NamedIn (ref :: rest) key := by
        constructor
        · rintro ⟨other, inside, m, found, name⟩
          rw [records_unregisterId] at found
          split at found
          · cases found
          · exact ⟨other, List.mem_cons_of_mem _ inside, m, found, name⟩
        · rintro ⟨other, inside, m, found, name⟩
          have apart : ref.id ≠ other.id := fun same => first ⟨m, same ▸ found, name⟩
          refine ⟨other, (List.mem_cons.mp inside).resolve_left ?_, m, ?_, name⟩
          · rintro rfl
            exact apart rfl
          · rw [records_unregisterId, if_neg apart, found]
      rw [← later, ← left]
      exact ⟨gone, kept⟩

/-- A deletion whose series are all there removes them and nothing else. -/
theorem Described.loses {s : Store} (h : s.Described) (refs : List SeriesRef) :
    s.Loses refs (s.without refs) := by
  refine ⟨fun ref inside => ⟨?_, ?_⟩, fun key named => ?_, fun id apart => ?_, fun key apart => ?_,
    fun ref apart => ?_, lastId_without s refs, fun id m apart found => ?_⟩
  · rw [records_without, if_pos ⟨ref, inside, rfl⟩]
  · rw [points_without, if_pos inside]
  · exact (names_without s refs key).1 named
  · rw [records_without, if_neg fun ⟨ref, inside, same⟩ => apart ref inside same]
  · exact (names_without s refs key).2 apart
  · rw [points_without, if_neg apart]
  · rw [(names_without s refs _).2]
    · exact (h id m found).2
    · rintro ⟨ref, inside, m', found', name⟩
      exact apart ref inside (h.id_eq found' found name)

end Store

end Memory

open Memory in
/-- **Deletions are atomic and exact.**  On a store that a deployment reached, and that any calls at
the same time have changed since, a deletion fails for the first entry that it refuses, with the
error for that entry, and changes nothing; or all of its series are there, and then it succeeds and
removes them and nothing else.  Entries may be repeated and be of several namespaces. -/
theorem delete_exact {start : Deployment} (fresh : ∀ store ∈ start.stores, store = .empty)
    (events : List Event) {place : Nat} {store : Store} {link : Option Link}
    (here : (start.run events).2.participants[place]? = some ⟨.memory store, link⟩)
    (calls : List (Call × Expiry)) (schedule : List Turn) (refs : List SeriesRef) :
    let s := ((Concurrent.begin store calls).play schedule).store
    (∃ before ref after e, refs = before ++ ref :: after ∧ (∀ other ∈ before, s.Has other) ∧
        s.Refuses ref e ∧ s.delete refs = .fail e s) ∨
      ((∀ ref ∈ refs, s.Has ref) ∧
        ∃ left, s.delete refs = .succeed () left ∧ s.Loses refs left) := by
  intro s
  have described : s.Described := Concurrent.play_described
    (Deployment.described_run fresh events place store link here) schedule
  by_cases has : ∀ ref ∈ refs, s.Has ref
  · exact Or.inr ⟨has, _, Store.delete_of_has has, described.loses refs⟩
  · exact Or.inl (Store.delete_refused has)

open Memory in
/-- A series of a namespace and one of the same name in another one are deleted, the first of them
twice, while a third one stays; a batch with a foreign id changes nothing. -/
theorem delete_exact_twice :
    let run := (Deployment.ofBackends [.memory .empty] ⟨0⟩).run
      [.call 0 ⟨⟨0⟩, .create (fun _ => default)
        [(⟨7⟩, ⟨⟨0⟩, "load", [], none⟩), (⟨8⟩, ⟨⟨1⟩, "load", [], none⟩)]⟩]
    ∃ store, run.2.stores = [store] ∧
      let s := ((Concurrent.begin store
        [(.create (fun _ => default) [(⟨9⟩, ⟨⟨0⟩, "rain", [], none⟩)], .own),
          (.write ⟨⟨1⟩, ⟨2⟩⟩ .empty (fun _ _ => .zero) [5] [.ofUInt64 3], .own)]).play
        [⟨0, 0⟩, ⟨1, 0⟩, ⟨0, 0⟩, ⟨1, 0⟩]).store
      (∃ left, s.delete [⟨⟨0⟩, ⟨1⟩⟩, ⟨⟨1⟩, ⟨2⟩⟩, ⟨⟨0⟩, ⟨1⟩⟩] = .succeed () left ∧
          s.Loses [⟨⟨0⟩, ⟨1⟩⟩, ⟨⟨1⟩, ⟨2⟩⟩, ⟨⟨0⟩, ⟨1⟩⟩] left ∧ left.seriesCount = 1) ∧
        ∃ e, s.delete [⟨⟨0⟩, ⟨1⟩⟩, ⟨⟨0⟩, ⟨2⟩⟩] = .fail e s := by
  intro run
  have fresh : ∀ store ∈ (Deployment.ofBackends [.memory .empty] ⟨0⟩).stores, store = .empty :=
    fun store h => List.mem_singleton.mp h
  have here : run.2.participants[0]? = some ⟨.memory
      ((Store.empty.createSeries 0 ⟨⟨0⟩, "load", [], none⟩).createSeries 0
        ⟨⟨1⟩, "load", [], none⟩), none⟩ := rfl
  refine ⟨_, rfl, ?_⟩
  intro s
  have exactly := delete_exact fresh _ here
    [(.create (fun _ => default) [(⟨9⟩, ⟨⟨0⟩, "rain", [], none⟩)], .own),
      (.write ⟨⟨1⟩, ⟨2⟩⟩ .empty (fun _ _ => .zero) [5] [.ofUInt64 3], .own)]
    [⟨0, 0⟩, ⟨1, 0⟩, ⟨0, 0⟩, ⟨1, 0⟩]
  have first : s.Has ⟨⟨0⟩, ⟨1⟩⟩ := ⟨_, rfl, rfl⟩
  have second : s.Has ⟨⟨1⟩, ⟨2⟩⟩ := ⟨_, rfl, rfl⟩
  constructor
  · obtain ⟨before, ref, after, e, split, _, refused, _⟩ | ⟨_, left, deleted, loses⟩ :=
      exactly [⟨⟨0⟩, ⟨1⟩⟩, ⟨⟨1⟩, ⟨2⟩⟩, ⟨⟨0⟩, ⟨1⟩⟩]
    · have has : ∀ other ∈ before ++ ref :: after, s.Has other := by
        rw [← split]
        simp [first, second]
      exact absurd (has ref (by simp)) refused.not_has
    · refine ⟨left, deleted, loses, ?_⟩
      obtain rfl : _ = left := congrArg Outcome.state deleted
      decide +kernel
  · obtain ⟨_, _, _, e, _, _, _, failed⟩ | ⟨has, _⟩ := exactly [⟨⟨0⟩, ⟨1⟩⟩, ⟨⟨0⟩, ⟨2⟩⟩]
    · exact ⟨e, failed⟩
    · have foreign := has ⟨⟨0⟩, ⟨2⟩⟩ (by simp)
      cases foreign.unique second rfl

end SeriesStorage
