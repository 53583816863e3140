import Mathlib.Data.List.Forall2
import SeriesStorage.Proofs.Deployment.Visits
import SeriesStorage.Proofs.Memory.Consistency
import SeriesStorage.Proofs.Point.PaddedKey

/-!
# Reads answer what was accepted

A trace tells which points a series has accepted since it was created: the points of the writes that
succeeded, up to the last creation or removal (`acceptedSince`).  A read of a live series answers
exactly those of them that lie in its window, in the order of time.

* `Stored`: the values of a series are those of the accepted points, each under a key of its
  timestamp.
* `Tracked`: the store holds what the trace tells.  A visit keeps it (`Tracked.step`), and so do all
  visits (`Tracked.visits`).
* `visit_read_accepted`: the answer of a read.
-/

namespace SeriesStorage

/-! ## What a trace tells about a series -/

/-- The time under which a point of a timestamp is found: the timestamp as a double, cut off. -/
def storedTime (time : UInt64) : UInt64 := keyTime (.ofUInt64 time)

/-- A point that was accepted: the timestamp and the value given to the write. -/
abbrev AcceptedPoint := UInt64 × Binary64

/-- The points that a series accepts with one entry of a trace. -/
def acceptedBy (ref : SeriesRef) : TraceEntry → List AcceptedPoint
  | (⟨_, .write ref' _ _ times values⟩, .ok _) => if ref' = ref then times.zip values else []
  | _ => []

/-- Whether a series is gone after an entry: all were cleared, it was deleted, or found expired. -/
def removes (ref : SeriesRef) : TraceEntry → Bool
  | (⟨_, .clear⟩, .ok _) => true
  | (⟨_, .delete refs⟩, .ok _) => refs.contains ref
  | (⟨_, .write ref' _ _ _ _⟩, .error e) => e = .seriesExpired && ref' = ref
  | (⟨_, .read ref' _⟩, .error e) => e = .seriesExpired && ref' = ref
  | _ => false

/-- Whether an entry creates a series of this id. -/
def creates (id : SeriesId) : TraceEntry → Bool
  | (⟨_, .create _ _⟩, .ok (.created rows)) => rows.any fun row => row.isNew && row.id = id
  | _ => false

/-- What was accepted so far, after one more entry. -/
def follow (begins : TraceEntry → Bool) (ref : SeriesRef)
    (soFar : List AcceptedPoint) (entry : TraceEntry) : List AcceptedPoint :=
  if begins entry then [] else soFar ++ acceptedBy ref entry

/-- The points that a series accepted since the last entry that begins a new count. -/
def acceptedSince (begins : TraceEntry → Bool) (ref : SeriesRef)
    (trace : Trace) : List AcceptedPoint :=
  trace.foldl (follow begins ref) []

/-- How many series an entry creates. -/
def createdBy : TraceEntry → Nat
  | (_, .ok (.created rows)) => Memory.Store.newCount rows
  | _ => 0

/-- How many series a trace creates. -/
def createdCount (trace : Trace) : Nat := trace.foldl (fun n entry => n + createdBy entry) 0

/-- The points of a window among accepted ones, as a read shows them. -/
def pointsOfWindow (window : Window) (accepted : List AcceptedPoint) : List Point :=
  (accepted.map fun p => ⟨storedTime p.1, p.2⟩).filter fun p =>
    window.first ≤ p.time && p.time ≤ window.last

/-- A window that ends before it begins shows nothing. -/
theorem pointsOfWindow_eq_nil {window : Window} (before : window.last < window.first)
    (accepted : List AcceptedPoint) : pointsOfWindow window accepted = [] := by
  refine List.filter_eq_nil_iff.mpr fun p _ => ?_
  simp only [Bool.and_eq_true, decide_eq_true_eq, not_and]
  intro low high
  exact absurd (UInt64.lt_of_lt_of_le before (UInt64.le_trans low high)) (UInt64.lt_irrefl _)

/-- An answer to a read: all accepted points of the window and no others, in the order of time, or
no data if there are none. -/
def Shows (window : Window) (accepted : List AcceptedPoint) (answer : Except Error Answer) : Prop :=
  (pointsOfWindow window accepted = [] ∧ answer = .error .noDataFound) ∨
    ∃ points, answer = .ok (.points points) ∧ points ≠ [] ∧
      points.Perm (pointsOfWindow window accepted) ∧
      points.Pairwise fun p q => p.time ≤ q.time

/-! ## Stored points -/

namespace Memory

/-- The point that a read makes of a stored value. -/
def KeyedValue.point (v : KeyedValue) : Point := ⟨keyTime v.key, v.value⟩

namespace Store

/-- The values that are stored for a series. -/
def valuesOf (s : Store) (ref : SeriesRef) : List KeyedValue := (s.points.get? ref).getD []

/-- Stored values are those of accepted points, each under a key of its timestamp. -/
def Stored (accepted : List AcceptedPoint) (values : List KeyedValue) : Prop :=
  List.Forall₂ (fun p v => v.value = p.2 ∧ IsKeyOf p.1 v.key) accepted values

theorem stored_nil : Stored [] [] := .nil

theorem stored_keyedValues (draws : Draws) (times : List UInt64) (values : List Binary64) :
    Stored (times.zip values) (keyedValues draws times values) := by
  unfold keyedValues
  generalize times.zip values = accepted
  suffices ∀ i, Stored accepted ((accepted.zipIdx i).map fun entry =>
      ⟨paddedKey entry.1.1 (draws entry.2 0).value, entry.1.2⟩) from this 0
  induction accepted with
  | nil => exact fun _ => .nil
  | cons p rest ih => exact fun i => .cons ⟨rfl, isKeyOf_paddedKey _ _⟩ (ih (i + 1))

theorem Stored.key_of_mem {accepted : List AcceptedPoint} {values : List KeyedValue}
    (h : Stored accepted values) {v : KeyedValue} (hv : v ∈ values) :
    ∃ time, IsKeyOf time v.key := by
  induction h with
  | nil => cases hv
  | @cons p _ _ _ first _ ih =>
    rcases List.mem_cons.mp hv with rfl | hv
    · exact ⟨p.1, first.2⟩
    · exact ih hv

/-- The stored values of a window are the accepted points of it. -/
theorem Stored.map_filter {accepted : List AcceptedPoint} {values : List KeyedValue}
    (h : Stored accepted values) (window : Window) :
    (values.filter fun v => window.lowerKey.totalLe v.key && v.key.totalLe window.upperKey &&
      window.contains v.key).map KeyedValue.point = pointsOfWindow window accepted := by
  unfold pointsOfWindow
  induction h with
  | nil => rfl
  | @cons p v accepted values first _ ih =>
    obtain ⟨value, key⟩ := first
    have point : (⟨storedTime p.1, p.2⟩ : Point) = v.point := by
      rw [KeyedValue.point, key.keyTime_eq, value]
      rfl
    rw [List.map_cons, point]
    by_cases inside : window.contains v.key = true
    · obtain ⟨low, high⟩ := key.between inside
      rw [List.filter_cons_of_pos (by simp [low, high, inside]),
        List.filter_cons_of_pos (by exact inside), List.map_cons, ih]
    · rw [List.filter_cons_of_neg (by simp [inside]), List.filter_cons_of_neg (by exact inside), ih]

/-- A read of stored values shows the accepted points. -/
theorem Stored.shows_pointsIn {s : Store} {ref : SeriesRef} {accepted : List AcceptedPoint}
    (h : Stored accepted (s.valuesOf ref)) (window : Window) :
    Shows window accepted ((s.pointsIn ref window).map .points) := by
  have perm : ((s.valuesIn ref window).map KeyedValue.point).Perm
      (pointsOfWindow window accepted) := by
    rw [← h.map_filter window]
    exact (List.mergeSort_perm _ _).map _
  have sorted : ((s.valuesIn ref window).map KeyedValue.point).Pairwise
      fun p q => p.time ≤ q.time := by
    rw [List.pairwise_map]
    refine pairwise_keyTime_mergeSort KeyedValue.key fun v hv => ?_
    exact h.key_of_mem (List.mem_filter.mp hv).1
  unfold pointsIn
  split
  · next before => exact Or.inl ⟨pointsOfWindow_eq_nil before accepted, rfl⟩
  · cases found : s.valuesIn ref window with
    | nil =>
      rw [found] at perm
      exact Or.inl ⟨List.nil_perm.mp perm, rfl⟩
    | cons v rest =>
      rw [found] at perm sorted
      exact Or.inr ⟨_, rfl, by simp, perm, sorted⟩

/-! ## What a visit does -/

/-- What an entry tells: which points it accepts, and which series it removes; it creates none. -/
structure Tells (e : TraceEntry) (accepted : SeriesRef → List AcceptedPoint)
    (gone : SeriesRef → Bool) : Prop where
  accepts : ∀ ref, acceptedBy ref e = accepted ref
  removes : ∀ ref, removes ref e = gone ref
  createsNone : ∀ id, creates id e = false
  createdBy : createdBy e = 0

/-- What a visit does to a store, by what its entry tells. -/
inductive Effect (s : Store) (e : TraceEntry) : Store → Prop
  | unchanged : Tells e (fun _ => []) (fun _ => false) → Effect s e s
  | cleared : Tells e (fun _ => []) (fun _ => true) → Effect s e .empty
  | removed (refs : List SeriesRef) : (∀ ref ∈ refs, s.Has ref) →
      Tells e (fun _ => []) refs.contains → Effect s e (s.without refs)
  | appended (ref : SeriesRef) (draws : Draws) (times : List UInt64) (values : List Binary64) :
      s.Has ref → Tells e (fun r => if ref = r then times.zip values else []) (fun _ => false) →
      Effect s e (s.append ref (keyedValues draws times values))
  | created {s' : Store} : (∀ ref, acceptedBy ref e = []) → (∀ ref, removes ref e = false) →
      s'.points = s.points →
      (s.Linked → ∃ time chances now batch rows all,
        e = (⟨time, .create chances batch⟩, .ok (.created rows)) ∧
          Inserts now batch s all s' ∧ rows.Perm all) →
      Effect s e s'

theorem points_insertPass (now : UInt64) (batch : CreateBatch) (s : Store) :
    (insertPass now batch s).state.points = s.points := by
  induction batch generalizing s with
  | nil => rfl
  | cons entry rest ih =>
    obtain ⟨mark, input⟩ := entry
    unfold insertPass
    split
    · rfl
    · next id _ =>
      rw [← ih s]
      cases h : (insertPass now rest s).answer with
      | ok rows => rw [Outcome.andThen_eq_of_ok h]; rfl
      | error e => rw [Outcome.andThen_eq_of_error h]; rfl
    · rw [← points_createSeries s now input, ← ih (s.createSeries now input)]
      cases h : (insertPass now rest (s.createSeries now input)).answer with
      | ok rows => rw [Outcome.andThen_eq_of_ok h]; rfl
      | error e => rw [Outcome.andThen_eq_of_error h]; rfl

/-- A creation touches no points, not even if it fails on its way. -/
theorem points_create (s : Store) (now : UInt64) (batch : CreateBatch) :
    (s.create now batch).state.points = s.points := by
  unfold Store.create
  split
  · rfl
  · next found missing _ =>
    rw [← points_insertPass now missing s]
    cases h : (insertPass now missing s).answer with
    | ok rows => rw [Outcome.andThen_eq_of_ok h]; rfl
    | error e => rw [Outcome.andThen_eq_of_error h]; rfl

theorem pointsIn_error {s : Store} {ref : SeriesRef} {window : Window} {e : Error}
    (h : s.pointsIn ref window = .error e) : e = .noDataFound := by
  unfold pointsIn at h
  split at h
  · exact (Except.error.inj h).symm
  · split at h
    · exact (Except.error.inj h).symm
    · cases h

theorem effect_visit (s : Store) (v : Visit) :
    Effect s (v, (s.visit v).answer) (s.visit v).state := by
  obtain ⟨time, call⟩ := v
  cases call with
  | connect => exact .unchanged ⟨fun _ => rfl, fun _ => rfl, fun _ => rfl, rfl⟩
  | flush req => exact .unchanged ⟨fun _ => rfl, fun _ => rfl, fun _ => rfl, rfl⟩
  | clear => exact .cleared ⟨fun _ => rfl, fun _ => rfl, fun _ => rfl, rfl⟩
  | search query =>
    show Effect s (_, (s.search query).map .found) s
    refine .unchanged ⟨fun _ => rfl, fun _ => rfl, fun _ => rfl, ?_⟩
    cases s.search query <;> rfl
  | create chances batch =>
    refine .created (fun _ => rfl) (fun _ => rfl) (points_create s time.seconds batch)
      fun linked => ?_
    obtain ⟨rows, all, s', hcreate, hinserts, hperm⟩ := linked.create time.seconds batch
    have visited : s.visit ⟨time, .create chances batch⟩ = .succeed (.created rows) s' := by
      show (s.create time.seconds batch).map Answer.created = _
      rw [hcreate]
      rfl
    rw [visited]
    exact ⟨time, chances, _, batch, rows, all, rfl, hinserts, hperm⟩
  | delete refs =>
    show Effect s (_, ((s.delete refs).map fun _ => Answer.done).answer) (s.delete refs).state
    by_cases has : ∀ ref ∈ refs, s.Has ref
    · rw [delete_of_has has]
      exact .removed refs has ⟨fun _ => rfl, fun _ => rfl, fun _ => rfl, rfl⟩
    · obtain ⟨e, _, hfail⟩ := delete_of_not_has has
      rw [hfail]
      exact .unchanged ⟨fun _ => rfl, fun _ => rfl, fun _ => rfl, rfl⟩
  | write ref req draws times values =>
    rw [visit_write]
    obtain ⟨_, hfail⟩ | ⟨m, hm, hns, ⟨_, hfail⟩ | ⟨_, hact⟩⟩ := s.guarded_cases time.seconds ref
      (.succeed Answer.done (s.append ref (keyedValues draws times values)))
    · rw [hfail]
      exact .unchanged ⟨fun _ => rfl, fun _ => rfl, fun _ => rfl, rfl⟩
    · rw [hfail]
      refine .removed [ref] (by simpa using ⟨m, hm, hns⟩)
        ⟨fun _ => rfl, fun r => ?_, fun _ => rfl, rfl⟩
      simp [removes, eq_comm]
    · rw [hact]
      exact .appended ref draws times values ⟨m, hm, hns⟩
        ⟨fun _ => rfl, fun _ => rfl, fun _ => rfl, rfl⟩
  | read ref window =>
    rw [visit_read]
    obtain ⟨_, hfail⟩ | ⟨m, hm, hns, ⟨_, hfail⟩ | ⟨_, hact⟩⟩ := s.guarded_cases time.seconds ref
      (.answered ((s.pointsIn ref window).map Answer.points) s)
    · rw [hfail]
      exact .unchanged ⟨fun _ => rfl, fun _ => rfl, fun _ => rfl, rfl⟩
    · rw [hfail]
      refine .removed [ref] (by simpa using ⟨m, hm, hns⟩)
        ⟨fun _ => rfl, fun r => ?_, fun _ => rfl, rfl⟩
      simp [removes, eq_comm]
    · rw [hact]
      show Effect s (_, (s.pointsIn ref window).map Answer.points) s
      cases found : s.pointsIn ref window with
      | ok points => exact .unchanged ⟨fun _ => rfl, fun _ => rfl, fun _ => rfl, rfl⟩
      | error e =>
        obtain rfl := pointsIn_error found
        exact .unchanged ⟨fun _ => rfl, fun _ => rfl, fun _ => rfl, rfl⟩

/-! ## Stores and traces -/

/-- The store holds what was accepted since the last removal.  As long as the counter of ids has
room that is what was accepted since the creation, for all series that are there. -/
structure Tracked (s : Store) (sinceRemoval sinceCreation : SeriesRef → List AcceptedPoint)
    (count : Nat) : Prop where
  stored : ∀ ref, Stored (sinceRemoval ref) (s.valuesOf ref)
  counted : count < 0x10000000000000000 → s.Consistent ∧ s.lastId.toNat ≤ count ∧
    ∀ ref, s.Has ref → sinceCreation ref = sinceRemoval ref

theorem tracked_empty : Tracked empty (fun _ => []) (fun _ => []) 0 where
  stored := fun _ => stored_nil
  counted := fun _ => ⟨consistent_empty, Nat.le_refl 0, fun _ _ => rfl⟩

/-- A series that is not there has no points. -/
theorem Consistent.valuesOf_eq_nil {s : Store} (h : s.Consistent) {ref : SeriesRef}
    (absent : ¬ s.Has ref) : s.valuesOf ref = [] := by
  unfold valuesOf
  cases found : s.points.get? ref with
  | none => rfl
  | some values => exact absurd (h.owned ref values found) absent

theorem has_without {s : Store} {refs : List SeriesRef} {ref : SeriesRef}
    (h : (s.without refs).Has ref) : s.Has ref ∧ ref ∉ refs := by
  obtain ⟨m, hm, hns⟩ := h
  rw [records_without] at hm
  split at hm
  · cases hm
  · next hout => exact ⟨⟨m, hm, hns⟩, fun hin => hout ⟨ref, hin, rfl⟩⟩

theorem valuesOf_without (s : Store) (refs : List SeriesRef) (ref : SeriesRef) :
    (s.without refs).valuesOf ref = if ref ∈ refs then [] else s.valuesOf ref := by
  unfold valuesOf
  rw [points_without]
  split <;> rfl

theorem has_append {s : Store} {ref ref' : SeriesRef} {more : List KeyedValue} :
    (s.append ref more).Has ref' ↔ s.Has ref' := Iff.rfl

theorem Consistent.append {s : Store} (h : s.Consistent) {ref : SeriesRef} (has : s.Has ref)
    (more : List KeyedValue) : (s.append ref more).Consistent where
  described := h.described
  named := h.named
  counted := h.counted
  owned := by
    intro ref' values hv
    rw [has_append]
    by_cases heq : ref = ref'
    · rwa [← heq]
    · refine h.owned ref' values ?_
      rwa [Store.append, Table.get?_insert, if_neg heq] at hv

theorem valuesOf_append (s : Store) (ref ref' : SeriesRef) (more : List KeyedValue) :
    (s.append ref more).valuesOf ref' =
      s.valuesOf ref' ++ if ref = ref' then more else [] := by
  unfold valuesOf append
  by_cases heq : ref = ref' <;> simp [heq]

/-- A new series was not there before the creation. -/
theorem Inserts.not_has {now : UInt64} {batch : CreateBatch} {s s' : Store} {rows : List Created}
    (h : Inserts now batch s rows s') (hs : s.Consistent)
    (room : s.lastId.toNat + newCount rows < 0x10000000000000000) {row : Created}
    (hrow : row ∈ rows) (isNew : row.isNew = true) {ref : SeriesRef} (hid : row.id = ref.id) :
    ¬ s.Has ref := by
  rintro ⟨m, hm, _⟩
  have fresh := h.fresh room hrow isNew
  have counted := (hs.counted _ m hm).2
  rw [hid] at fresh
  omega

/-- A creation leaves what was accepted since the creation of each series: nothing, if it is new. -/
theorem Inserts.follow_creates {time : Instant} {chances : LockChances} {now : UInt64}
    {batch : CreateBatch} {s s' : Store} {rows all : List Created}
    (h : Inserts now batch s all s') (hs : s.Consistent)
    (room : s.lastId.toNat + newCount all < 0x10000000000000000) (perm : rows.Perm all)
    {ref : SeriesRef} (has : s'.Has ref) {before accepted : List AcceptedPoint}
    (stored : Stored accepted (s.valuesOf ref)) (same : s.Has ref → before = accepted) :
    follow (creates ref.id) ref before (⟨time, .create chances batch⟩, .ok (.created rows)) =
      accepted := by
  rw [follow]
  split
  · next isNew =>
    obtain ⟨row, hrow, hnew⟩ := List.any_eq_true.mp isNew
    simp only [Bool.and_eq_true, decide_eq_true_eq] at hnew
    have absent := h.not_has hs room (perm.mem_iff.mp hrow) hnew.1 hnew.2
    rw [hs.valuesOf_eq_nil absent] at stored
    exact (List.forall₂_nil_right_iff.mp stored).symm
  · next isOld =>
    obtain ⟨m, hm, hns⟩ := has
    rw [show acceptedBy ref (⟨time, .create chances batch⟩, .ok (.created rows)) = [] from rfl,
      List.append_nil]
    refine same ⟨m, ?_, hns⟩
    rcases h.origin hm with old | ⟨row, hrow, hnew, hid⟩
    · exact old
    · refine absurd (List.any_eq_true.mpr ⟨row, perm.mem_iff.mpr hrow, ?_⟩) isOld
      simp [hnew, hid]

/-- **One visit.**  The store goes on holding what the trace tells. -/
theorem Tracked.step {s s' : Store} {sinceRemoval sinceCreation : SeriesRef → List AcceptedPoint}
    {count : Nat} {e : TraceEntry} (h : Tracked s sinceRemoval sinceCreation count)
    (effect : Effect s e s') :
    Tracked s' (fun ref => follow (removes ref) ref (sinceRemoval ref) e)
      (fun ref => follow (creates ref.id) ref (sinceCreation ref) e) (count + createdBy e) := by
  cases effect with
  | unchanged tells =>
    constructor
    · intro ref
      simpa [follow, tells.removes, tells.accepts] using h.stored ref
    · intro room
      rw [tells.createdBy] at room ⊢
      obtain ⟨hc, hcount, hsame⟩ := h.counted room
      refine ⟨hc, hcount, ?_⟩
      intro ref has
      simpa [follow, tells.removes, tells.createsNone, tells.accepts] using hsame ref has
  | cleared tells =>
    constructor
    · intro ref
      simp only [follow, tells.removes, if_true]
      exact stored_nil
    · intro _
      refine ⟨consistent_empty, Nat.zero_le _, ?_⟩
      rintro ref ⟨m, hm, _⟩
      cases hm
  | removed refs has tells =>
    constructor
    · intro ref
      rw [valuesOf_without]
      by_cases hin : ref ∈ refs
      · simpa [follow, tells.removes, hin] using stored_nil
      · simpa [follow, tells.removes, tells.accepts, hin] using h.stored ref
    · intro room
      rw [tells.createdBy] at room ⊢
      obtain ⟨hc, hcount, hsame⟩ := h.counted room
      refine ⟨hc.without has, by rwa [lastId_without], ?_⟩
      intro ref hleft
      obtain ⟨hthere, hout⟩ := has_without hleft
      simpa [follow, tells.removes, tells.createsNone, tells.accepts, hout] using hsame ref hthere
  | appended ref draws times values has tells =>
    constructor
    · intro ref'
      rw [valuesOf_append]
      simp only [follow, tells.removes, tells.accepts, Bool.false_eq_true, if_false]
      refine List.rel_append (h.stored ref') ?_
      split
      · exact stored_keyedValues draws times values
      · exact .nil
    · intro room
      rw [tells.createdBy] at room ⊢
      obtain ⟨hc, hcount, hsame⟩ := h.counted room
      refine ⟨hc.append has _, hcount, ?_⟩
      intro ref' hthere
      simp [follow, tells.removes, tells.createsNone, hsame ref' hthere]
  | created accepts keeps points enters =>
    have stored : ∀ ref, follow (removes ref) ref (sinceRemoval ref) e = sinceRemoval ref := by
      intro ref
      simp [follow, keeps, accepts]
    constructor
    · intro ref
      rw [stored, valuesOf, points]
      exact h.stored ref
    · intro room
      obtain ⟨hc, hcount, hsame⟩ := h.counted (by omega)
      obtain ⟨time, chances, now, batch, rows, all, rfl, hinserts, hperm⟩ :=
        enters hc.linked
      have sum : createdBy (⟨time, .create chances batch⟩, .ok (.created rows)) = newCount all :=
        newCount_perm hperm
      rw [sum] at room ⊢
      obtain ⟨hc', hcount'⟩ := hinserts.consistent hc (by omega)
      refine ⟨hc', by omega, ?_⟩
      intro ref has
      rw [stored]
      exact hinserts.follow_creates hc (by omega) hperm has (h.stored ref) (hsame ref)

/-- **All visits.**  After any visits a store holds what their trace tells. -/
theorem Tracked.visits {s : Store} {sinceRemoval sinceCreation : SeriesRef → List AcceptedPoint}
    {count : Nat} (h : Tracked s sinceRemoval sinceCreation count) (vs : List Visit) :
    Tracked (s.visits vs).2
      (fun ref => (s.visits vs).1.foldl (follow (removes ref) ref) (sinceRemoval ref))
      (fun ref => (s.visits vs).1.foldl (follow (creates ref.id) ref) (sinceCreation ref))
      ((s.visits vs).1.foldl (fun n e => n + createdBy e) count) := by
  induction vs generalizing s sinceRemoval sinceCreation count with
  | nil => exact h
  | cons v rest ih => exact ih (h.step (effect_visit s v))

end Store

end Memory

open Memory.Store in
/-- **Reads answer what was accepted.**  After any visits to a store that was empty at first, a read
of a live series shows the points accepted since the series was removed last; unless so many series
were created that ids repeat, these are the points accepted since it was created.  Timestamps up to
2⁵³ are found under themselves. -/
theorem visit_read_accepted (start now : Instant) (vs : List Visit) (ref : SeriesRef)
    (window : Window) (m : SeriesMetadata) (s : Memory.Store)
    (reached : ((Deployment.ofBackends [.memory .empty] start).visits vs).2.stores = [s])
    (there : s.records.get? ref.id = some m) (owner : m.ns = ref.ns)
    (live : m.isExpired now.seconds = false) :
    let (trace, d) := (Deployment.ofBackends [.memory .empty] start).visits vs
    let answer := (d.visit ⟨now, .read ref window⟩).answer
    Shows window (acceptedSince (removes ref) ref trace) answer ∧
      (createdCount trace < 0x10000000000000000 →
        Shows window (acceptedSince (creates ref.id) ref trace) answer) ∧
      ∀ time : UInt64, time.toNat ≤ 0x20000000000000 → storedTime time = time := by
  obtain ⟨last, run⟩ := Deployment.visits_lone_memory .empty ⟨[], [], []⟩ start vs
  change (Deployment.ofBackends [.memory .empty] start).visits vs = _ at run
  rw [run] at reached ⊢
  obtain rfl : (Memory.Store.empty.visits vs).2 = s := List.singleton_inj.mp reached
  have tracked := tracked_empty.visits vs
  generalize Memory.Store.empty.visits vs = result at *
  obtain ⟨trace, s⟩ := result
  have answered : ((Deployment.lone (.memory s) ⟨[], [], []⟩ last).visit
      ⟨now, .read ref window⟩).answer = (s.pointsIn ref window).map .points := by
    rw [Deployment.visit_lone_memory]
    show (s.visit _).answer = _
    rw [Memory.Store.visit_read]
    obtain ⟨absent, _⟩ | ⟨m', hm, _, ⟨gone, _⟩ | ⟨_, hact⟩⟩ := s.guarded_cases now.seconds ref
      (.answered ((s.pointsIn ref window).map Answer.points) s)
    · exact absurd ⟨m, there, owner⟩ absent
    · obtain rfl := Option.some.inj (hm.symm.trans there)
      rw [live] at gone
      cases gone
    · rw [hact]
      rfl
  dsimp only
  rw [answered]
  refine ⟨(tracked.stored ref).shows_pointsIn window, fun room => ?_, fun _ => keyTime_ofUInt64⟩
  rw [show acceptedSince (creates ref.id) ref trace = acceptedSince (removes ref) ref trace from
    (tracked.counted room).2.2 ref ⟨m, there, owner⟩]
  exact (tracked.stored ref).shows_pointsIn window

/-- A point that was written to a new series is read back. -/
theorem visit_read_accepted_written :
    let ref : SeriesRef := ⟨⟨0⟩, ⟨1⟩⟩
    let vs : List Visit :=
      [⟨⟨0⟩, .create (fun _ => default) [(⟨7⟩, ⟨⟨0⟩, "load", [], none⟩)]⟩,
        ⟨⟨1000⟩, .write ref .empty (fun _ _ => .zero) [5] [.ofUInt64 3]⟩]
    let d := ((Deployment.ofBackends [.memory .empty] ⟨0⟩).visits vs).2
    Shows ⟨0, 10⟩ [(5, .ofUInt64 3)] (d.visit ⟨⟨2000⟩, .read ref ⟨0, 10⟩⟩).answer := by
  intro ref vs d
  have run := visit_read_accepted ⟨0⟩ ⟨2000⟩ vs ref ⟨0, 10⟩ ⟨⟨1⟩, ⟨0⟩, "load", [], none⟩
    (Memory.Store.empty.visits vs).2 rfl rfl rfl rfl
  have accepted : acceptedSince (creates ref.id) ref
      ((Deployment.ofBackends [.memory .empty] ⟨0⟩).visits vs).1 = [(5, .ofUInt64 3)] := rfl
  rw [← accepted]
  exact run.2.1 (by decide +kernel)

end SeriesStorage
