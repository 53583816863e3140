import Mathlib.Data.List.Nodup
import SeriesStorage.Proofs.Deployment.Lifetimes
import SeriesStorage.Proofs.Memory.BatchCreation

/-!
# Spent ids of a store

The counter of a store tells which ids were given.  As long as it has room, a visit that does not
clear the store is a step of its register (`Consistent.step`), and so all visits are a history
(`Tracked.history`).
-/

namespace SeriesStorage

open Remote (Uses exists_left_of_forall₂)

namespace Memory.Store

/-- What a store says about its series, where these points were handed in. -/
def registered (s : Store) (given : SeriesRef → AcceptedPoint → Prop) : Register SeriesId where
  has := s.Has
  spent := fun id => id.number.toNat ≤ s.lastId.toNat
  given := given

/-- Every series afterwards was there before, or an entry of its namespace created it. -/
theorem Inserts.owner {now : UInt64} {batch : CreateBatch} {s s' : Store} {rows : List Created}
    (h : Inserts now batch s rows s') {id : SeriesId} {m : SeriesMetadata}
    (hm : s'.records.get? id = some m) :
    s.records.get? id = some m ∨ ∃ row ∈ rows, row.isNew = true ∧ row.id = id ∧
      ∃ input, (row.mark, input) ∈ batch ∧ input.ns = m.ns := by
  have later {entry : CreateMark × SeriesInput} {rest : CreateBatch} {first : Created}
      {rows : List Created} : (∃ row ∈ rows, row.isNew = true ∧ row.id = id ∧
        ∃ input, (row.mark, input) ∈ rest ∧ input.ns = m.ns) →
      ∃ row ∈ first :: rows, row.isNew = true ∧ row.id = id ∧
        ∃ input, (row.mark, input) ∈ entry :: rest ∧ input.ns = m.ns := by
    rintro ⟨row, hrow, isNew, same, input, inside, ns⟩
    exact ⟨row, List.mem_cons_of_mem _ hrow, isNew, same, input, List.mem_cons_of_mem _ inside, ns⟩
  induction h with
  | done => exact Or.inl hm
  | found _ _ ih => exact (ih hm).imp_right later
  | @created mark input rest s s' rows absent _ ih =>
    rcases ih hm with old | new
    · rw [records_createSeries, Table.get?_insert] at old
      split at old
      · next same =>
        obtain rfl := Option.some.inj old
        exact Or.inr ⟨_, List.mem_cons_self, rfl, same, input, List.mem_cons_self, rfl⟩
      · exact Or.inl old
    · exact Or.inr (later new)

section OneVisit

variable {s : Store} {given : SeriesRef → AcceptedPoint → Prop}

theorem Consistent.spent (h : s.Consistent) (ref : SeriesRef) (has : s.Has ref) :
    ref.id.number.toNat ≤ s.lastId.toNat := by
  obtain ⟨m, hm, _⟩ := has
  exact (h.counted ref.id m hm).2

/-- A creation gives ids that are new. -/
theorem Consistent.step_create (h : s.Consistent) {time : Instant} {chances : LockChances}
    {now : UInt64} {batch : CreateBatch} {rows all : List Created} {s' : Store}
    (marked : (batch.map (·.1)).Nodup) (inserts : Inserts now batch s all s')
    (perm : rows.Perm all)
    (room : s.lastId.toNat + newCount all < 0x10000000000000000) {e : TraceEntry}
    (entry : e = (⟨time, .create chances batch⟩, .ok (.created rows))) :
    Step SeriesRef.id (s.registered given) (s'.registered ((s.registered given).after e).given)
      e := by
  obtain ⟨_, counted⟩ := inserts.consistent h room
  have ids : ((issuedBy e).map SeriesRef.id).Perm ((all.filter (·.isNew)).map (·.id)) := by
    subst entry
    show (((rows.filter (·.isNew)).map fun row => (⟨batch.nsOf row.mark, row.id⟩ : SeriesRef)).map
      SeriesRef.id).Perm _
    rw [List.map_map]
    exact (perm.filter _).map _
  have new : ∀ ref ∈ issuedBy e, ∃ row ∈ all, row.isNew = true ∧ row.id = ref.id := by
    intro ref inside
    obtain ⟨row, hrow, same⟩ := List.mem_map.mp (ids.mem_iff.mp (List.mem_map_of_mem inside))
    exact ⟨row, (List.mem_filter.mp hrow).1, (List.mem_filter.mp hrow).2, same⟩
  have range := inserts.newIds room
  refine .creation entry h.spent ?_ (fun ref inside => ?_) (fun id spent => ?_)
    (fun ref spent absent => ?_) (fun _ ref there => ?_) rfl
  · refine ids.nodup_iff.mpr (List.Nodup.of_map (fun id => id.number.toNat) ?_)
    rw [List.map_map]
    show ((all.filter (·.isNew)).map (·.id.number.toNat)).Nodup
    rw [range]
    exact List.nodup_range' 1
  · obtain ⟨row, hrow, isNew, same⟩ := new ref inside
    have fresh := inserts.fresh room hrow isNew
    have inRange : row.id.number.toNat ∈ List.range' (s.lastId.toNat + 1) (newCount all) := by
      rw [← range]
      exact List.mem_map.mpr ⟨row, List.mem_filter.mpr ⟨hrow, isNew⟩, rfl⟩
    obtain ⟨_, bound⟩ := List.mem_range'_1.mp inRange
    show ¬ ref.id.number.toNat ≤ s.lastId.toNat ∧ ref.id.number.toNat ≤ s'.lastId.toNat
    rw [← same]
    omega
  · change id.number.toNat ≤ s.lastId.toNat at spent
    show id.number.toNat ≤ s'.lastId.toNat
    omega
  · rintro ⟨m, hm, hns⟩
    rcases inserts.origin hm with old | ⟨row, hrow, isNew, same⟩
    · exact absent ⟨m, old, hns⟩
    · have fresh := inserts.fresh room hrow isNew
      rw [same] at fresh
      exact Nat.not_le.mpr fresh spent
  · obtain ⟨m, hm, hns⟩ := there
    rcases inserts.owner hm with old | ⟨row, hrow, isNew, same, input, inside, ns⟩
    · exact Or.inl ⟨m, old, hns⟩
    · refine Or.inr ?_
      subst entry
      refine List.mem_map.mpr ⟨row, List.mem_filter.mpr ⟨perm.mem_iff.mpr hrow, isNew⟩, ?_⟩
      rw [CreateBatch.nsOf_of_mem marked inside, ns, hns, same]

/-- A series that is found expired is removed. -/
theorem Consistent.step_expired (h : s.Consistent) {e : TraceEntry} {ref : SeriesRef}
    (has : s.Has ref) (uses : Uses e.1 ref) (expired : e.2 = .error .seriesExpired) :
    Step SeriesRef.id (s.registered given)
      ((s.without [ref]).registered ((s.registered given).after e).given) e := by
  refine .removal [ref] h.spent uses.issuedBy_eq (List.forall_mem_singleton.mpr has)
    (fun ref' removed => List.mem_singleton.mpr (uses.removes removed).1) (fun ref' uses' => ?_)
    (fun id spent => ?_) (fun ref' left => has_without left) rfl
  · obtain rfl := uses.unique uses'
    exact ⟨has, expired⟩
  · show id.number.toNat ≤ (s.without [ref]).lastId.toNat
    rw [lastId_without]
    exact spent

/-- A deletion removes all its series, or fails and removes none. -/
theorem Consistent.step_delete (h : s.Consistent) (time : Instant) (refs : List SeriesRef) :
    let v : Visit := ⟨time, .delete refs⟩
    Step SeriesRef.id (s.registered given) ((s.visit v).state.registered
      ((s.registered given).after (v, (s.visit v).answer)).given) (v, (s.visit v).answer) := by
  intro v
  by_cases has : ∀ ref ∈ refs, s.Has ref
  · have visited : s.visit v = .succeed .done (s.without refs) := by
      show (s.delete refs).map (fun _ => Answer.done) = _
      rw [delete_of_has has]
      rfl
    rw [visited]
    refine .removal refs h.spent rfl has (fun ref removed => ?_) (fun _ => False.elim)
      (fun id spent => ?_) (fun ref left => has_without left) rfl
    · simpa [removes, v] using removed
    · show id.number.toNat ≤ (s.without refs).lastId.toNat
      rw [lastId_without]
      exact spent
  · obtain ⟨e, _, failed⟩ := delete_of_not_has has
    have visited : s.visit v = .fail e s := by
      show (s.delete refs).map (fun _ => Answer.done) = _
      rw [failed]
      rfl
    rw [visited]
    exact .quiet h.spent rfl (fun _ => rfl) fun _ => id

/-- What is shown of stored values was handed in. -/
theorem Stored.shownGiven {ref : SeriesRef} {accepted : List AcceptedPoint}
    (stored : Stored accepted (s.valuesOf ref)) (fed : ∀ p ∈ accepted, given ref p)
    {window : Window} {points : List Point}
    (shown : (s.pointsIn ref window).map Answer.points = .ok (.points points)) :
    ∀ p ∈ points, ∃ q, given ref q ∧ p.ShowsGiven q := by
  intro p inside
  rcases stored.shows_pointsIn window with ⟨_, none⟩ | ⟨points', same, _, perm, _⟩
  · rw [none] at shown
    cases shown
  · obtain rfl : points' = points := by
      have := same.symm.trans shown
      simpa using this
    obtain ⟨q, hq, rfl⟩ := List.mem_map.mp (List.mem_filter.mp (perm.mem_iff.mp inside)).1
    exact ⟨q, fed q hq, rfl, rfl⟩

/-- **One visit** that does not clear the store is a step. -/
theorem Consistent.step (h : s.Consistent) {accepted : SeriesRef → List AcceptedPoint}
    (stored : ∀ ref, Stored (accepted ref) (s.valuesOf ref))
    (fed : ∀ ref, ∀ p ∈ accepted ref, given ref p) (v : Visit) (marked : v.call.Marked)
    (keeps : v.call ≠ .clear)
    (room : s.lastId.toNat + createdBy (v, (s.visit v).answer) < 0x10000000000000000) :
    Step SeriesRef.id (s.registered given) ((s.visit v).state.registered
      ((s.registered given).after (v, (s.visit v).answer)).given) (v, (s.visit v).answer) := by
  obtain ⟨time, call⟩ := v
  cases call with
  | clear => exact absurd rfl keeps
  | connect => exact .quiet h.spent rfl (fun _ => rfl) fun _ => id
  | flush req => exact .quiet h.spent rfl (fun _ => rfl) fun _ => id
  | search query => exact .quiet h.spent rfl (fun _ => rfl) fun _ => id
  | create chances batch =>
    obtain ⟨rows, all, s', created, inserts, perm⟩ := h.linked.create time.seconds batch
    have visited : s.visit ⟨time, .create chances batch⟩ = .succeed (.created rows) s' := by
      show (s.create time.seconds batch).map Answer.created = _
      rw [created]
      rfl
    rw [visited] at room ⊢
    exact h.step_create marked inserts perm (newCount_perm perm ▸ room) rfl
  | delete refs => exact h.step_delete time refs
  | write ref req draws times values =>
    rw [visit_write]
    obtain ⟨absent, missing⟩ | ⟨m, hm, hns, ⟨_, expired⟩ | ⟨_, live⟩⟩ :=
      s.guarded_cases time.seconds ref
        (.succeed Answer.done (s.append ref (keyedValues draws times values)))
    · rw [missing]
      exact .missing rfl h.spent rfl
    · rw [expired]
      exact h.step_expired ⟨m, hm, hns⟩ rfl rfl
    · rw [live]
      have has : (s.registered given).has ref := ⟨m, hm, hns⟩
      exact .use rfl h.spent (by simp) (Or.inl has) (by simp)
  | read ref window =>
    rw [visit_read]
    obtain ⟨absent, missing⟩ | ⟨m, hm, hns, ⟨_, expired⟩ | ⟨_, live⟩⟩ :=
      s.guarded_cases time.seconds ref
        (.answered ((s.pointsIn ref window).map Answer.points) s)
    · rw [missing]
      exact .missing rfl h.spent rfl
    · rw [expired]
      exact h.step_expired ⟨m, hm, hns⟩ rfl rfl
    · rw [live]
      refine .use rfl h.spent (fun expired => ?_) (Or.inl ⟨m, hm, hns⟩) fun points shown =>
        (stored ref).shownGiven (fed ref) shown
      cases none : s.pointsIn ref window with
      | ok points =>
        rw [none] at expired
        cases expired
      | error e =>
        obtain rfl := pointsIn_error none
        rw [none] at expired
        cases expired

end OneVisit

/-! ## All visits -/

/-- The values of every series are among the points that were handed in for it. -/
def Sourced (s : Store) (given : SeriesRef → AcceptedPoint → Prop) : Prop :=
  ∀ ref, ∀ v ∈ s.valuesOf ref, ∃ p, given ref p ∧ v.value = p.2 ∧ IsKeyOf p.1 v.key

theorem mem_handedTo_of_acceptedBy {ref : SeriesRef} {e : TraceEntry} {p : AcceptedPoint}
    (h : p ∈ acceptedBy ref e) : p ∈ handedTo ref e := by
  obtain ⟨⟨time, call⟩, answer⟩ := e
  cases call with
  | write ref' req draws times values =>
    cases answer with
    | ok a => simpa [acceptedBy, handedTo, touches] using h
    | error e => cases h
  | _ => cases h

theorem mem_of_mem_follow {begins : TraceEntry → Bool} {ref : SeriesRef}
    {soFar : List AcceptedPoint} {e : TraceEntry} {p : AcceptedPoint}
    (h : p ∈ follow begins ref soFar e) : p ∈ soFar ∨ p ∈ handedTo ref e := by
  unfold follow at h
  split at h
  · cases h
  · exact (List.mem_append.mp h).imp_right mem_handedTo_of_acceptedBy

/-- Counting never goes back. -/
theorem le_createdFrom (count : Nat) (trace : Trace) :
    count ≤ trace.foldl (fun n e => n + createdBy e) count := by
  induction trace generalizing count with
  | nil => exact Nat.le_refl count
  | cons e rest ih => exact Nat.le_trans (Nat.le_add_right _ _) (ih _)

/-- **All visits** that do not clear the store are a history, and leave the values of every series
among the points that were handed in for it. -/
theorem Tracked.history {s : Store} {sinceRemoval sinceCreation : SeriesRef → List AcceptedPoint}
    {count : Nat} (h : Tracked s sinceRemoval sinceCreation count)
    {given : SeriesRef → AcceptedPoint → Prop} (fed : ∀ ref, ∀ p ∈ sinceRemoval ref, given ref p)
    (vs : List Visit) (marked : ∀ v ∈ vs, v.call.Marked) (keeps : ∀ v ∈ vs, v.call ≠ .clear)
    (room : (s.visits vs).1.foldl (fun n e => n + createdBy e) count < 0x10000000000000000) :
    ∃ given', History SeriesRef.id (s.registered given) (s.visits vs).1
        ((s.visits vs).2.registered given') ∧ (s.visits vs).2.Sourced given' := by
  induction vs generalizing s sinceRemoval sinceCreation count given with
  | nil =>
    refine ⟨given, .nil _, fun ref v inside => ?_⟩
    obtain ⟨p, hp, same⟩ := exists_left_of_forall₂ (h.stored ref) inside
    exact ⟨p, fed ref p hp, same⟩
  | cons v rest ih =>
    change (s.visit v).state.visits rest |>.1.foldl _ (count + createdBy (v, (s.visit v).answer))
      < _ at room
    have now := Nat.lt_of_le_of_lt (le_createdFrom _ _) room
    obtain ⟨consistent, counted, _⟩ := h.counted (by omega)
    have step := consistent.step h.stored fed v (marked v List.mem_cons_self)
      (keeps v List.mem_cons_self) (by omega)
    obtain ⟨given', later, sourced⟩ := ih (h.step (effect_visit s v)) (fun ref p inside =>
      (mem_of_mem_follow inside).imp_left (fed ref p))
      (fun v hv => marked v (List.mem_cons_of_mem _ hv))
      (fun v hv => keeps v (List.mem_cons_of_mem _ hv)) room
    exact ⟨given', .cons step later, sourced⟩

end Memory.Store

end SeriesStorage
