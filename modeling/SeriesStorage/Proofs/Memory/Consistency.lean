import SeriesStorage.Memory.Store

/-!
# Consistent stores

In a consistent store the names and the descriptors describe each other, every id was counted, and
points belong to series that are there.  A deletion keeps a store consistent (`Consistent.without`),
and so does a creation as long as the counter of ids has room (`Inserts.consistent`).

A creation that looks all names up first does the same as one that goes through the batch entry by
entry (`Inserts`, `Linked.create`).
-/

namespace SeriesStorage

namespace Memory

namespace Store

/-! ## Consistency -/

/-- Names and descriptors describe each other, and every id was counted. -/
structure Indexed (s : Store) : Prop where
  described : ∀ id m, s.records.get? id = some m →
    m.id = id ∧ s.names.get? (m.ns, m.name) = some id
  named : ∀ ns name id, s.names.get? (ns, name) = some id →
    ∃ m, s.records.get? id = some m ∧ m.ns = ns ∧ m.name = name
  counted : ∀ id m, s.records.get? id = some m →
    1 ≤ id.number.toNat ∧ id.number.toNat ≤ s.lastId.toNat

/-- A series is there: its id has a descriptor, which is of its namespace. -/
def Has (s : Store) (ref : SeriesRef) : Prop := ∃ m, s.records.get? ref.id = some m ∧ m.ns = ref.ns

/-- An id belongs to one namespace. -/
theorem Has.unique {s : Store} {ref other : SeriesRef} (h : s.Has ref) (h' : s.Has other)
    (id : other.id = ref.id) : other = ref := by
  obtain ⟨m, record, owner⟩ := h
  obtain ⟨m', record', owner'⟩ := h'
  rw [id, record] at record'
  obtain rfl := Option.some.inj record'
  cases other
  cases ref
  simp_all

/-- An indexed store with points of its series only. -/
structure Consistent (s : Store) : Prop extends Indexed s where
  owned : ∀ ref values, s.points.get? ref = some values → s.Has ref

theorem consistent_empty : empty.Consistent where
  described := by intro id m h; cases h
  named := by intro ns name id h; cases h
  counted := by intro id m h; cases h
  owned := by intro ref values h; cases h

/-! ## Looking names up -/

/-- Every name has an id with a descriptor, so that it can be looked up. -/
def Linked (s : Store) : Prop := ∀ key id, s.names.get? key = some id → s.records.contains id = true

theorem Indexed.linked {s : Store} (h : s.Indexed) : s.Linked := by
  rintro ⟨ns, name⟩ id found
  obtain ⟨m, hm, _⟩ := h.named ns name id found
  exact (Table.contains_iff _ _).mpr ⟨m, hm⟩

theorem Linked.lookupName_eq {s : Store} (h : s.Linked) (ns : Namespace) (name : String) :
    s.lookupName ns name = .ok (s.names.get? (ns, name)) := by
  unfold lookupName
  cases found : s.names.get? (ns, name) with
  | none => rfl
  | some id => simp [h (ns, name) id found]

/-- The answers to those entries of a batch whose names are there. -/
def foundRows (s : Store) (batch : CreateBatch) : List Created :=
  batch.filterMap fun e => (s.names.get? (e.2.ns, e.2.name)).map fun id => ⟨e.1, id, false⟩

/-- The entries of a batch whose names are not there. -/
def missing (s : Store) (batch : CreateBatch) : CreateBatch :=
  batch.filter fun e => (s.names.get? (e.2.ns, e.2.name)).isNone

theorem Linked.lookupPass_eq {s : Store} (h : s.Linked) (batch : CreateBatch) :
    s.lookupPass batch = .ok (s.foundRows batch, s.missing batch) := by
  induction batch with
  | nil => rfl
  | cons e rest ih =>
    obtain ⟨mark, input⟩ := e
    simp only [lookupPass, h.lookupName_eq, ih, foundRows, missing]
    cases found : s.names.get? (input.ns, input.name) with
    | none => simp [bind, Except.bind, pure, Except.pure, found]
    | some id => simp [bind, Except.bind, pure, Except.pure, found]

/-! ## Entering a descriptor -/

@[simp] theorem records_createSeries (s : Store) (now : UInt64) (input : SeriesInput) :
    (s.createSeries now input).records =
      s.records.insert s.nextId (input.describe s.nextId now) := rfl

@[simp] theorem names_createSeries (s : Store) (now : UInt64) (input : SeriesInput) :
    (s.createSeries now input).names = s.names.insert (input.ns, input.name) s.nextId := rfl

@[simp] theorem points_createSeries (s : Store) (now : UInt64) (input : SeriesInput) :
    (s.createSeries now input).points = s.points := rfl

@[simp] theorem lastId_createSeries (s : Store) (now : UInt64) (input : SeriesInput) :
    (s.createSeries now input).lastId = s.lastId + 1 := rfl

theorem nextId_toNat {s : Store} (room : s.lastId.toNat + 1 < 0x10000000000000000) :
    s.nextId.number.toNat = s.lastId.toNat + 1 := by
  show (s.lastId + 1).toNat = _
  rw [UInt64.toNat_add]
  exact Nat.mod_eq_of_lt room

/-- The next id is that of no series. -/
theorem Indexed.records_nextId {s : Store} (h : s.Indexed)
    (room : s.lastId.toNat + 1 < 0x10000000000000000) : s.records.get? s.nextId = none := by
  cases found : s.records.get? s.nextId with
  | none => rfl
  | some m =>
    have := (h.counted _ m found).2
    rw [nextId_toNat room] at this
    omega

theorem Indexed.createSeries {s : Store} (h : s.Indexed)
    (room : s.lastId.toNat + 1 < 0x10000000000000000) (now : UInt64) {input : SeriesInput}
    (absent : s.names.get? (input.ns, input.name) = none) :
    (s.createSeries now input).Indexed := by
  have fresh := h.records_nextId room
  have next := nextId_toNat room
  have count : (s.lastId + 1).toNat = s.lastId.toNat + 1 := next
  constructor
  · intro id m hm
    rw [records_createSeries, Table.get?_insert] at hm
    rw [names_createSeries, Table.get?_insert]
    split at hm
    · next heq =>
      obtain rfl := Option.some.inj hm
      exact ⟨heq, by simp [SeriesInput.describe, heq]⟩
    · obtain ⟨hid, hname⟩ := h.described id m hm
      refine ⟨hid, ?_⟩
      rw [if_neg]
      · exact hname
      · intro heq
        rw [← heq, absent] at hname
        cases hname
  · intro ns name id hid
    rw [names_createSeries, Table.get?_insert] at hid
    rw [records_createSeries]
    split at hid
    · next heq =>
      obtain rfl := Option.some.inj hid
      obtain ⟨rfl, rfl⟩ := Prod.mk.inj heq
      exact ⟨input.describe s.nextId now, by simp, rfl, rfl⟩
    · obtain ⟨m, hm, hrest⟩ := h.named ns name id hid
      refine ⟨m, ?_, hrest⟩
      rw [Table.get?_insert, if_neg]
      · exact hm
      · rintro rfl
        rw [fresh] at hm
        cases hm
  · intro id m hm
    rw [records_createSeries, Table.get?_insert] at hm
    rw [lastId_createSeries, count]
    split at hm
    · next heq =>
      rw [← heq, next]
      omega
    · have := h.counted id m hm
      omega

theorem Consistent.createSeries {s : Store} (h : s.Consistent)
    (room : s.lastId.toNat + 1 < 0x10000000000000000) (now : UInt64) {input : SeriesInput}
    (absent : s.names.get? (input.ns, input.name) = none) :
    (s.createSeries now input).Consistent where
  toIndexed := h.toIndexed.createSeries room now absent
  owned := by
    intro ref values hv
    obtain ⟨m, hm, hns⟩ := h.owned ref values hv
    refine ⟨m, ?_, hns⟩
    rw [records_createSeries, Table.get?_insert, if_neg]
    · exact hm
    · intro heq
      rw [← heq, h.records_nextId room] at hm
      cases hm

/-! ## Going through a batch -/

/-- What the second pass of a creation does with a batch, entry by entry. -/
inductive Inserts (now : UInt64) : CreateBatch → Store → List Created → Store → Prop
  | done {s : Store} : Inserts now [] s [] s
  | found {mark : CreateMark} {input : SeriesInput} {rest : CreateBatch} {s s' : Store}
      {rows : List Created} {id : SeriesId} :
      s.names.get? (input.ns, input.name) = some id → Inserts now rest s rows s' →
      Inserts now ((mark, input) :: rest) s (⟨mark, id, false⟩ :: rows) s'
  | created {mark : CreateMark} {input : SeriesInput} {rest : CreateBatch} {s s' : Store}
      {rows : List Created} :
      s.names.get? (input.ns, input.name) = none →
      Inserts now rest (s.createSeries now input) rows s' →
      Inserts now ((mark, input) :: rest) s (⟨mark, s.nextId, true⟩ :: rows) s'

theorem Linked.createSeries {s : Store} (h : s.Linked) (now : UInt64) (input : SeriesInput) :
    (s.createSeries now input).Linked := by
  intro key id hid
  rw [names_createSeries, Table.get?_insert] at hid
  rw [Table.contains_iff, records_createSeries]
  split at hid
  · obtain rfl := Option.some.inj hid
    exact ⟨_, by rw [Table.get?_insert, if_pos rfl]⟩
  · obtain ⟨m, hm⟩ := (Table.contains_iff _ _).mp (h key id hid)
    by_cases heq : s.nextId = id
    · exact ⟨_, by rw [Table.get?_insert, if_pos heq]⟩
    · exact ⟨m, by rw [Table.get?_insert, if_neg heq, hm]⟩

theorem Linked.insertPass {s : Store} (h : s.Linked) (now : UInt64) (batch : CreateBatch) :
    ∃ rows s', insertPass now batch s = .succeed rows s' ∧ Inserts now batch s rows s' := by
  induction batch generalizing s with
  | nil => exact ⟨[], s, rfl, .done⟩
  | cons e rest ih =>
    obtain ⟨mark, input⟩ := e
    simp only [Store.insertPass, h.lookupName_eq]
    cases found : s.names.get? (input.ns, input.name) with
    | some id =>
      obtain ⟨rows, s', hpass, hrel⟩ := ih h
      exact ⟨_, s', by simp only [hpass, Outcome.andThen_succeed], .found found hrel⟩
    | none =>
      obtain ⟨rows, s', hpass, hrel⟩ := ih (h.createSeries now input)
      exact ⟨_, s', by simp only [hpass, Outcome.andThen_succeed], .created found hrel⟩

/-- How many of the answers of a creation are new series. -/
def newCount (rows : List Created) : Nat := rows.countP (·.isNew)

namespace Inserts

variable {now : UInt64} {batch : CreateBatch} {s s' : Store} {rows : List Created}

/-- With room for its ids, a pass leaves an indexed store that counted them. -/
theorem indexed (h : Inserts now batch s rows s') (hs : s.Indexed)
    (room : s.lastId.toNat + newCount rows < 0x10000000000000000) :
    s'.Indexed ∧ s'.lastId.toNat = s.lastId.toNat + newCount rows := by
  induction h with
  | done => exact ⟨hs, rfl⟩
  | found _ _ ih => exact ih hs room
  | @created mark input rest s s' rows absent _ ih =>
    have split : newCount (⟨mark, s.nextId, true⟩ :: rows) = newCount rows + 1 := by
      simp [newCount]
    rw [split] at room ⊢
    have next : (s.createSeries now input).lastId.toNat = s.lastId.toNat + 1 :=
      nextId_toNat (by omega)
    obtain ⟨hc, hcount⟩ := ih (hs.createSeries (by omega) now absent) (by omega)
    exact ⟨hc, by omega⟩

/-- Series that were there stay as they are. -/
theorem keeps (h : Inserts now batch s rows s') (hs : s.Indexed)
    (room : s.lastId.toNat + newCount rows < 0x10000000000000000) {id : SeriesId}
    {m : SeriesMetadata} (hm : s.records.get? id = some m) : s'.records.get? id = some m := by
  induction h with
  | done => exact hm
  | found _ _ ih => exact ih hs room hm
  | @created mark input rest s s' rows absent _ ih =>
    have split : newCount (⟨mark, s.nextId, true⟩ :: rows) = newCount rows + 1 := by
      simp [newCount]
    rw [split] at room
    have next : (s.createSeries now input).lastId.toNat = s.lastId.toNat + 1 :=
      nextId_toNat (by omega)
    refine ih (hs.createSeries (by omega) now absent) (by omega) ?_
    rw [records_createSeries, Table.get?_insert, if_neg]
    · exact hm
    · rintro rfl
      rw [hs.records_nextId (by omega)] at hm
      cases hm

/-- No points come or go. -/
theorem points (h : Inserts now batch s rows s') : s'.points = s.points := by
  induction h with
  | done => rfl
  | found _ _ ih => exact ih
  | created _ _ ih => exact ih

/-- With room for its ids, a pass leaves a consistent store that counted them. -/
theorem consistent (h : Inserts now batch s rows s') (hs : s.Consistent)
    (room : s.lastId.toNat + newCount rows < 0x10000000000000000) :
    s'.Consistent ∧ s'.lastId.toNat = s.lastId.toNat + newCount rows := by
  obtain ⟨indexed, counted⟩ := h.indexed hs.toIndexed room
  refine ⟨⟨indexed, fun ref values hv => ?_⟩, counted⟩
  rw [h.points] at hv
  obtain ⟨m, hm, hns⟩ := hs.owned ref values hv
  exact ⟨m, h.keeps hs.toIndexed room hm, hns⟩

/-- New series have ids that were not given before. -/
theorem fresh (h : Inserts now batch s rows s')
    (room : s.lastId.toNat + newCount rows < 0x10000000000000000) {row : Created}
    (hrow : row ∈ rows) (isNew : row.isNew = true) : s.lastId.toNat < row.id.number.toNat := by
  induction h with
  | done => cases hrow
  | found _ _ ih =>
    rcases List.mem_cons.mp hrow with rfl | hrow
    · cases isNew
    · exact ih room hrow
  | @created mark input rest s s' rows absent _ ih =>
    have split : newCount (⟨mark, s.nextId, true⟩ :: rows) = newCount rows + 1 := by
      simp [newCount]
    rw [split] at room
    have next := nextId_toNat (s := s) (by omega)
    rcases List.mem_cons.mp hrow with rfl | hrow
    · show s.lastId.toNat < s.nextId.number.toNat
      omega
    · have step : (s.createSeries now input).lastId.toNat = s.lastId.toNat + 1 := next
      have := ih (by omega) hrow
      omega

/-- Every series afterwards was there before or is new. -/
theorem origin (h : Inserts now batch s rows s') {id : SeriesId} {m : SeriesMetadata}
    (hm : s'.records.get? id = some m) :
    s.records.get? id = some m ∨ ∃ row ∈ rows, row.isNew = true ∧ row.id = id := by
  induction h with
  | done => exact Or.inl hm
  | found _ _ ih =>
    rcases ih hm with old | ⟨row, hrow, hnew⟩
    · exact Or.inl old
    · exact Or.inr ⟨row, List.mem_cons_of_mem _ hrow, hnew⟩
  | @created mark input rest s s' rows absent _ ih =>
    rcases ih hm with old | ⟨row, hrow, hnew⟩
    · rw [records_createSeries, Table.get?_insert] at old
      split at old
      · next heq => exact Or.inr ⟨_, List.mem_cons_self, rfl, heq⟩
      · exact Or.inl old
    · exact Or.inr ⟨row, List.mem_cons_of_mem _ hrow, hnew⟩

/-- Going through the entries that an earlier store had no name for is as good as going through the
whole batch: the others are found with the ids that store knew. -/
theorem of_missing {s₀ : Store}
    (known : ∀ key id, s₀.names.get? key = some id → s.names.get? key = some id)
    (h : Inserts now (s₀.missing batch) s rows s') :
    ∃ all, Inserts now batch s all s' ∧ (s₀.foundRows batch ++ rows).Perm all := by
  unfold missing at h
  unfold foundRows
  induction batch generalizing s rows with
  | nil => exact ⟨rows, h, by simp⟩
  | cons e rest ih =>
    obtain ⟨mark, input⟩ := e
    cases first : s₀.names.get? (input.ns, input.name) with
    | some id =>
      rw [List.filter_cons_of_neg (by simp [first])] at h
      obtain ⟨all, hall, hperm⟩ := ih known h
      refine ⟨⟨mark, id, false⟩ :: all, .found (known _ _ first) hall, ?_⟩
      rw [List.filterMap_cons_some (by rw [first]; rfl), List.cons_append]
      exact hperm.cons _
    | none =>
      rw [List.filter_cons_of_pos (by simp [first])] at h
      rw [List.filterMap_cons_none (by rw [first]; rfl)]
      cases h with
      | found hid hrest =>
        obtain ⟨all, hall, hperm⟩ := ih known hrest
        exact ⟨_, .found hid hall, List.perm_middle.trans (hperm.cons _)⟩
      | created absent hrest =>
        obtain ⟨all, hall, hperm⟩ := ih (fun key id hid => by
          rw [names_createSeries, Table.get?_insert, if_neg]
          · exact known key id hid
          · rintro rfl
            rw [known _ _ hid] at absent
            cases absent) hrest
        exact ⟨_, .created absent hall, List.perm_middle.trans (hperm.cons _)⟩

end Inserts

/-- A creation does what going through its batch entry by entry does; only the order of its answers
differs. -/
theorem Linked.create {s : Store} (h : s.Linked) (now : UInt64) (batch : CreateBatch) :
    ∃ rows all s', s.create now batch = .succeed rows s' ∧ Inserts now batch s all s' ∧
      rows.Perm all := by
  obtain ⟨rows, s', hpass, hrel⟩ := h.insertPass now
    (s.missing batch)
  obtain ⟨all, hall, hperm⟩ := hrel.of_missing (fun _ _ hid => hid)
  refine ⟨_, all, s', ?_, hall, hperm⟩
  unfold Store.create
  rw [h.lookupPass_eq]
  simp only [hpass, Outcome.andThen_succeed]

theorem newCount_perm {rows all : List Created} (h : rows.Perm all) :
    newCount rows = newCount all :=
  h.countP_eq _

/-! ## Deletion -/

/-- The store without the series of a batch. -/
def without (s : Store) (refs : List SeriesRef) : Store :=
  (refs.foldl (fun s ref => s.unregisterId ref.id) s).dropPoints refs

theorem refusal?_eq_none_iff (s : Store) (ref : SeriesRef) : s.refusal? ref = none ↔ s.Has ref := by
  unfold refusal? Has
  cases s.records.get? ref.id with
  | none => simp
  | some m => by_cases hns : m.ns = ref.ns <;> simp [hns]

theorem unregister_of_has {s : Store} {refs : List SeriesRef} (h : ∀ ref ∈ refs, s.Has ref) :
    s.unregister refs = .succeed () (refs.foldl (fun s ref => s.unregisterId ref.id) s) := by
  have none_refused : refs.findSome? s.refusal? = none :=
    List.findSome?_eq_none_iff.mpr fun ref href => (refusal?_eq_none_iff s ref).mpr (h ref href)
  simp only [unregister, none_refused]

theorem unregister_of_not_has {s : Store} {refs : List SeriesRef}
    (h : ¬ ∀ ref ∈ refs, s.Has ref) :
    ∃ e, refs.findSome? s.refusal? = some e ∧ s.unregister refs = .fail e s := by
  cases found : refs.findSome? s.refusal? with
  | none =>
    exact absurd (fun ref href => (refusal?_eq_none_iff s ref).mp
      (List.findSome?_eq_none_iff.mp found ref href)) h
  | some e => exact ⟨e, rfl, by simp only [unregister, found]⟩

theorem delete_of_has {s : Store} {refs : List SeriesRef} (h : ∀ ref ∈ refs, s.Has ref) :
    s.delete refs = .succeed () (s.without refs) := by
  simp only [delete, unregister_of_has h, Outcome.andThen_succeed, without]

/-- A batch that is refused changes nothing. -/
theorem delete_of_not_has {s : Store} {refs : List SeriesRef} (h : ¬ ∀ ref ∈ refs, s.Has ref) :
    ∃ e, refs.findSome? s.refusal? = some e ∧ s.delete refs = .fail e s := by
  obtain ⟨e, why, failed⟩ := unregister_of_not_has h
  exact ⟨e, why, by simp only [delete, failed, Outcome.andThen_fail]⟩

@[simp] theorem points_unregisterId (s : Store) (id : SeriesId) :
    (s.unregisterId id).points = s.points := by
  unfold unregisterId
  split <;> rfl

theorem points_unregistered (s : Store) (refs : List SeriesRef) :
    (refs.foldl (fun s ref => s.unregisterId ref.id) s).points = s.points := by
  induction refs generalizing s with
  | nil => rfl
  | cons ref rest ih => rw [List.foldl_cons, ih, points_unregisterId]

@[simp] theorem lastId_unregisterId (s : Store) (id : SeriesId) :
    (s.unregisterId id).lastId = s.lastId := by
  unfold unregisterId
  split <;> rfl

theorem records_unregisterId (s : Store) (id id' : SeriesId) :
    (s.unregisterId id).records.get? id' = if id = id' then none else s.records.get? id' := by
  unfold unregisterId
  split
  · next h =>
    split
    · next heq => rw [← heq, h]
    · rfl
  · simp

/-- Only the name of the removed series goes away. -/
theorem Indexed.names_unregisterId {s : Store} (h : s.Indexed) (id : SeriesId)
    (key : Namespace × String) :
    (s.unregisterId id).names.get? key =
      if s.names.get? key = some id then none else s.names.get? key := by
  unfold unregisterId
  split
  · next hnone =>
    split
    · next hkey =>
      obtain ⟨m, hm, _⟩ := h.named key.1 key.2 id hkey
      rw [hnone] at hm
      cases hm
    · rfl
  · next m hm =>
    obtain ⟨_, hname⟩ := h.described id m hm
    simp only [Table.get?_erase]
    by_cases heq : (m.ns, m.name) = key
    · subst heq
      simp [hname]
    · rw [if_neg heq]
      split
      · next hkey =>
        obtain ⟨m', hm', hns, hnm⟩ := h.named key.1 key.2 id hkey
        rw [hm] at hm'
        obtain rfl := Option.some.inj hm'
        exact absurd (Prod.ext hns hnm) heq
      · rfl

theorem Indexed.unregisterId {s : Store} (h : s.Indexed) (id : SeriesId) :
    (s.unregisterId id).Indexed := by
  constructor
  · intro k m hm
    rw [records_unregisterId] at hm
    split at hm
    · cases hm
    · next hne =>
      obtain ⟨hid, hname⟩ := h.described k m hm
      rw [h.names_unregisterId, hname, if_neg (by rintro heq; exact hne (Option.some.inj heq).symm)]
      exact ⟨hid, rfl⟩
  · intro ns name k hk
    rw [h.names_unregisterId] at hk
    split at hk
    · cases hk
    · next hne =>
      obtain ⟨m, hm, hrest⟩ := h.named ns name k hk
      refine ⟨m, ?_, hrest⟩
      rw [records_unregisterId, if_neg, hm]
      rintro rfl
      exact hne hk
  · intro k m hm
    rw [records_unregisterId] at hm
    split at hm
    · cases hm
    · rw [lastId_unregisterId]
      exact h.counted k m hm

theorem Indexed.foldl_unregisterId {s : Store} (h : s.Indexed) (refs : List SeriesRef) :
    (refs.foldl (fun s ref => s.unregisterId ref.id) s).Indexed := by
  induction refs generalizing s with
  | nil => exact h
  | cons ref rest ih => exact ih (h.unregisterId ref.id)

theorem points_erase_all (points : Table SeriesRef (List KeyedValue)) (refs : List SeriesRef)
    (ref : SeriesRef) :
    (refs.foldl Table.erase points).get? ref = if ref ∈ refs then none else points.get? ref := by
  induction refs generalizing points with
  | nil => simp
  | cons first rest ih =>
    rw [List.foldl_cons, ih, Table.get?_erase]
    by_cases hfirst : first = ref
    · subst hfirst
      simp
    · simp [hfirst, Ne.symm hfirst]

@[simp] theorem lastId_without (s : Store) (refs : List SeriesRef) :
    (s.without refs).lastId = s.lastId := by
  show (refs.foldl (fun s ref => s.unregisterId ref.id) s).lastId = s.lastId
  induction refs generalizing s with
  | nil => rfl
  | cons ref rest ih => rw [List.foldl_cons, ih, lastId_unregisterId]

theorem records_without (s : Store) (refs : List SeriesRef) (id : SeriesId) :
    (s.without refs).records.get? id =
      if ∃ ref ∈ refs, ref.id = id then none else s.records.get? id := by
  show (refs.foldl (fun s ref => s.unregisterId ref.id) s).records.get? id = _
  induction refs generalizing s with
  | nil => simp
  | cons ref rest ih =>
    rw [List.foldl_cons, ih, records_unregisterId]
    by_cases hrest : ∃ r ∈ rest, r.id = id <;> by_cases hfirst : ref.id = id <;> simp_all

theorem points_without (s : Store) (refs : List SeriesRef) (ref : SeriesRef) :
    (s.without refs).points.get? ref = if ref ∈ refs then none else s.points.get? ref := by
  show (refs.foldl Table.erase
    (refs.foldl (fun s ref => s.unregisterId ref.id) s).points).get? ref = _
  rw [points_erase_all, points_unregistered]

theorem Indexed.names_without {s : Store} (h : s.Indexed) (refs : List SeriesRef)
    (key : Namespace × String) :
    (s.without refs).names.get? key =
      if ∃ ref ∈ refs, s.names.get? key = some ref.id then none else s.names.get? key := by
  show (refs.foldl (fun s ref => s.unregisterId ref.id) s).names.get? key = _
  induction refs generalizing s with
  | nil => simp
  | cons ref rest ih =>
    rw [List.foldl_cons, ih (h.unregisterId ref.id), h.names_unregisterId]
    by_cases hfirst : s.names.get? key = some ref.id
    · simp [hfirst]
    · simp [hfirst]

/-- What was deleted is gone with its points, and all else is as it was. -/
theorem Consistent.without {s : Store} (h : s.Consistent) {refs : List SeriesRef}
    (has : ∀ ref ∈ refs, s.Has ref) : (s.without refs).Consistent where
  toIndexed := by
    have := h.toIndexed.foldl_unregisterId refs
    exact ⟨this.described, this.named, this.counted⟩
  owned := by
    intro ref values hv
    rw [points_without] at hv
    split at hv
    · cases hv
    · next hout =>
      have owner := h.owned ref values hv
      have ⟨m, hm, hns⟩ := owner
      refine ⟨m, ?_, hns⟩
      rw [records_without, if_neg, hm]
      rintro ⟨other, hother, hid⟩
      exact hout (owner.unique (has other hother) hid ▸ hother)

/-! ## Access -/

/-- Before a read or write a series is missing, expired, or live. -/
theorem guarded_cases {α : Type} (s : Store) (now : UInt64) (ref : SeriesRef)
    (act : Outcome Store α) :
    (¬ s.Has ref ∧ s.guarded now ref act = .fail .metadataNotFound s) ∨
      ∃ m, s.records.get? ref.id = some m ∧ m.ns = ref.ns ∧
        ((m.isExpired now = true ∧
            s.guarded now ref act = .fail .seriesExpired (s.without [ref])) ∨
          (m.isExpired now = false ∧ s.guarded now ref act = act)) := by
  unfold guarded access Access.ofMetadata
  cases found : s.records.get? ref.id with
  | none => exact Or.inl ⟨by simp [Has, found], rfl⟩
  | some m =>
    by_cases hns : m.ns = ref.ns
    · refine Or.inr ⟨m, rfl, hns, ?_⟩
      cases expired : m.isExpired now with
      | true =>
        have has : ∀ r ∈ [ref], s.Has r := by
          intro r hr
          obtain rfl := List.mem_singleton.mp hr
          exact ⟨m, found, hns⟩
        exact Or.inl ⟨rfl, by simp [hns, expired, delete_of_has has]⟩
      | false => exact Or.inr ⟨rfl, by simp [hns, expired]⟩
    · exact Or.inl ⟨by simp [Has, found, hns], by simp [hns]⟩

end Store

end Memory

end SeriesStorage
