import SeriesStorage.Proofs.Memory.ReachedStores

/-!
# Creating a batch

The answers to a batch, whose entries may repeat names and mix namespaces: entries of one name get
one id, a name that is new is created by exactly one of its entries, and ids are given in the order
of the entries.

* `Answers`: each entry of a batch has its answer.
* `Assigned`: the ids of entries are as the names of a store demand.
* `Progress`: what entries did to the names of a store.  Consecutive parts add up
  (`Progress.trans`), and the second pass of a creation makes progress with each entry
  (`Inserts.progress`).
* `run_creates`: reached stores are consistent, and create batches so.
-/

namespace SeriesStorage

/-! ## Entries and their answers -/

/-- An entry of a creation batch with the answer to it. -/
structure Handled where
  entry : CreateMark × SeriesInput
  row : Created

namespace Handled

/-- The namespace and the name that an entry asks for. -/
def key (h : Handled) : Namespace × String := (h.entry.2.ns, h.entry.2.name)

/-- Whether an entry created the series of a name. -/
def creates (key : Namespace × String) (h : Handled) : Bool := h.key = key && h.row.isNew

end Handled

/-- The answers to a batch, entry by entry; the order of the answers does not matter. -/
structure Answers (batch : CreateBatch) (rows : List Created) (handled : List Handled) : Prop where
  entries : handled.map (·.entry) = batch
  rows : (handled.map (·.row)).Perm rows
  marked : ∀ h ∈ handled, h.row.mark = h.entry.1

namespace Memory.Store

/-- Entries got the ids that the names of a store demand: names that are there keep their ids, and
of the entries of a new name exactly one created it. -/
structure Assigned (s : Store) (handled : List Handled) : Prop where
  same : ∀ h ∈ handled, ∀ h' ∈ handled, h.key = h'.key → h.row.id = h'.row.id
  existing : ∀ h ∈ handled, ∀ id, s.names.get? h.key = some id →
    h.row.id = id ∧ h.row.isNew = false
  createdOnce : ∀ h ∈ handled, s.names.get? h.key = none → handled.countP (·.creates h.key) = 1

/-! ## What entries do to names -/

/-- What entries did to the names of a store: names only came in, each entry has the id of its name,
and each name that came in was created once. -/
structure Progress (s s' : Store) (handled : List Handled) : Prop where
  grown : ∀ key id, s.names.get? key = some id → s'.names.get? key = some id
  named : ∀ h ∈ handled, s'.names.get? h.key = some h.row.id
  counted : ∀ key, handled.countP (·.creates key) =
    if s.names.get? key = none ∧ s'.names.get? key ≠ none then 1 else 0

namespace Progress

variable {s s' s'' : Store} {handled more : List Handled}

theorem refl (s : Store) : Progress s s [] where
  grown _ _ found := found
  named _ h := nomatch h
  counted key := by simp

theorem trans (h : Progress s s' handled) (h' : Progress s' s'' more) :
    Progress s s'' (handled ++ more) where
  grown key id found := h'.grown key id (h.grown key id found)
  named e he := by
    rcases List.mem_append.mp he with he | he
    · exact h'.grown _ _ (h.named e he)
    · exact h'.named e he
  counted key := by
    rw [List.countP_append, h.counted, h'.counted]
    -- A name comes in at most once: it stays from then on.
    cases before : s.names.get? key with
    | some id => simp [h.grown key id before]
    | none =>
      cases between : s'.names.get? key with
      | some id => simp [h'.grown key id between]
      | none => simp

theorem perm (h : Progress s s' handled) (hperm : handled.Perm more) : Progress s s' more where
  grown := h.grown
  named e he := h.named e (hperm.mem_iff.mpr he)
  counted key := (hperm.countP_eq _).symm.trans (h.counted key)

/-- An entry whose name is there. -/
theorem found {mark : CreateMark} {input : SeriesInput} {id : SeriesId}
    (there : s.names.get? (input.ns, input.name) = some id) :
    Progress s s [⟨(mark, input), ⟨mark, id, false⟩⟩] where
  grown _ _ found := found
  named h hmem := by
    obtain rfl := List.mem_singleton.mp hmem
    exact there
  counted key := by simp [Handled.creates]

/-- An entry whose name is new. -/
theorem created {mark : CreateMark} {input : SeriesInput} (now : UInt64)
    (absent : s.names.get? (input.ns, input.name) = none) :
    Progress s (s.createSeries now input) [⟨(mark, input), ⟨mark, s.nextId, true⟩⟩] where
  grown key id found := by
    rw [names_createSeries, Table.get?_insert, if_neg]
    · exact found
    · rintro rfl
      rw [absent] at found
      cases found
  named h hmem := by
    obtain rfl := List.mem_singleton.mp hmem
    rw [names_createSeries, Table.get?_insert]
    exact if_pos rfl
  counted key := by
    rw [names_createSeries, Table.get?_insert]
    by_cases same : (input.ns, input.name) = key
    · subst same
      simp [Handled.creates, Handled.key, absent]
    · simp [Handled.creates, Handled.key, same]

/-- Progress assigns ids as the names demand. -/
theorem assigned (h : Progress s s' handled) : Assigned s handled where
  same e he e' he' key := by
    have named := h.named e he
    rw [key, h.named e' he'] at named
    exact (Option.some.inj named).symm
  existing e he id there := by
    have named := h.named e he
    rw [h.grown _ _ there] at named
    refine ⟨(Option.some.inj named).symm, ?_⟩
    have none := h.counted e.key
    rw [if_neg (by simp [there]), List.countP_eq_zero] at none
    simpa [Handled.creates] using none e he
  createdOnce e he absent := by
    rw [h.counted, if_pos ⟨absent, by simp [h.named e he]⟩]

end Progress

/-! ## What a creation does -/

namespace Inserts

variable {now : UInt64} {batch : CreateBatch} {s s' : Store} {rows : List Created}

theorem linked (h : Inserts now batch s rows s') (hs : s.Linked) : s'.Linked := by
  induction h with
  | done => exact hs
  | found _ _ ih => exact ih hs
  | created _ _ ih => exact ih (hs.createSeries now _)

/-- Going through a batch makes progress, and answers each entry. -/
theorem progress (h : Inserts now batch s rows s') :
    ∃ handled, Answers batch rows handled ∧ handled.map (·.row) = rows ∧
      Progress s s' handled := by
  induction h with
  | done => exact ⟨[], ⟨rfl, .nil, nofun⟩, rfl, .refl _⟩
  | @found mark input rest s s' rows id there _ ih =>
    obtain ⟨handled, answers, same, progress⟩ := ih
    refine ⟨⟨(mark, input), ⟨mark, id, false⟩⟩ :: handled, ⟨?_, ?_, ?_⟩, ?_, ?_⟩
    · rw [List.map_cons, answers.entries]
    · exact answers.rows.cons _
    · exact List.forall_mem_cons.mpr ⟨rfl, answers.marked⟩
    · rw [List.map_cons, same]
    · exact (Progress.found there).trans progress
  | @created mark input rest s s' rows absent _ ih =>
    obtain ⟨handled, answers, same, progress⟩ := ih
    refine ⟨⟨(mark, input), ⟨mark, s.nextId, true⟩⟩ :: handled, ⟨?_, ?_, ?_⟩, ?_, ?_⟩
    · rw [List.map_cons, answers.entries]
    · exact answers.rows.cons _
    · exact List.forall_mem_cons.mpr ⟨rfl, answers.marked⟩
    · rw [List.map_cons, same]
    · exact (Progress.created now absent).trans progress

/-- New ids are the next ones of the counter, in the order of the entries. -/
theorem newIds (h : Inserts now batch s rows s')
    (room : s.lastId.toNat + newCount rows < 0x10000000000000000) :
    (rows.filter (·.isNew)).map (·.id.number.toNat) =
      List.range' (s.lastId.toNat + 1) (newCount rows) := by
  induction h with
  | done => rfl
  | found _ _ ih => exact ih room
  | @created mark input rest s s' rows absent _ ih =>
    have split : newCount (⟨mark, s.nextId, true⟩ :: rows) = newCount rows + 1 := by
      simp [newCount]
    rw [split] at room ⊢
    have next : (s.createSeries now input).lastId.toNat = s.lastId.toNat + 1 :=
      nextId_toNat (by omega)
    rw [List.filter_cons_of_pos rfl, List.map_cons, ih (by omega), next, List.range'_succ]
    exact congrArg (· :: _) (nextId_toNat (by omega))

end Inserts

/-- A creation answers each entry of its batch and makes progress; if the counter has room it gives
its ids in a row, and keeps all descriptors. -/
theorem Consistent.create {s : Store} (h : s.Consistent) (now : UInt64) (batch : CreateBatch) :
    ∃ rows s' handled, s.create now batch = .succeed rows s' ∧ Answers batch rows handled ∧
      Progress s s' handled ∧
      (s.lastId.toNat + newCount rows < 0x10000000000000000 →
        ((handled.map (·.row)).filter (·.isNew)).map (·.id.number.toNat) =
            List.range' (s.lastId.toNat + 1) (newCount rows) ∧
          ∀ id m, s.records.get? id = some m → s'.records.get? id = some m) := by
  obtain ⟨rows, all, s', hcreate, hinserts, hperm⟩ := h.linked.create now batch
  obtain ⟨handled, answers, same, progress⟩ := hinserts.progress
  refine ⟨rows, s', handled, hcreate, ⟨answers.entries, answers.rows.trans hperm.symm,
    answers.marked⟩, progress, ?_⟩
  rw [newCount_perm hperm, same]
  intro room
  exact ⟨hinserts.newIds room, fun id m => hinserts.keeps h.toIndexed room⟩

end Memory.Store

open Memory.Store in
/-- **Reached stores create batches.**  In a store that a deployment with empty stores reaches,
unless its counter of ids has overflowed since it was cleared, names and descriptors describe each
other, the counter is no less than any id, and only series that are there have points.  So names can
always be looked up, and every batch can be created. -/
theorem run_creates {start : Deployment} (fresh : ∀ store ∈ start.stores, store = .empty)
    (events : List Event) {place : Nat} {s : Memory.Store} {link : Option Link}
    (here : (start.run events).2.participants[place]? = some ⟨.memory s, link⟩)
    (room : createdSinceClear place (start.run events).1 < 0x10000000000000000) :
    (∀ ns name id, s.names.get? (ns, name) = some id ↔
        ∃ m, s.records.get? id = some m ∧ m.id = id ∧ m.ns = ns ∧ m.name = name) ∧
      (∀ id m, s.records.get? id = some m → id.number ≤ s.lastId) ∧
      (∀ ref values, s.points.get? ref = some values →
        ∃ m, s.records.get? ref.id = some m ∧ m.id = ref.id ∧ m.ns = ref.ns) ∧
      (∀ ns name, s.lookupName ns name = .ok (s.names.get? (ns, name))) ∧
      ∀ now batch, ∃ rows s' handled, s.create now batch = .succeed rows s' ∧
        Answers batch rows handled ∧ Assigned s handled ∧
        (createdSinceClear place (start.run events).1 + newCount rows < 0x10000000000000000 →
          ((handled.map (·.row)).filter (·.isNew)).map (·.id.number.toNat) =
              List.range' (s.lastId.toNat + 1) (newCount rows) ∧
            ∀ id m, s.records.get? id = some m → s'.records.get? id = some m) := by
  obtain ⟨hc, counted⟩ := Deployment.counted_run fresh events here room
  refine ⟨fun ns name id => ⟨fun found => ?_, ?_⟩, fun id m hm => (hc.counted id m hm).2,
    fun ref values hv => ?_, hc.linked.lookupName_eq, fun now batch => ?_⟩
  · obtain ⟨m, hm, hns, hname⟩ := hc.named ns name id found
    exact ⟨m, hm, (hc.described id m hm).1, hns, hname⟩
  · rintro ⟨m, hm, _, rfl, rfl⟩
    exact (hc.described id m hm).2
  · obtain ⟨m, hm, hns⟩ := hc.owned ref values hv
    exact ⟨m, hm, (hc.described ref.id m hm).1, hns⟩
  · obtain ⟨rows, s', handled, hcreate, answers, progress, rest⟩ := hc.create now batch
    refine ⟨rows, s', handled, hcreate, answers, progress.assigned, fun enough => ?_⟩
    rw [← counted] at enough
    exact rest enough

open Memory.Store in
/-- A store that was linked and had a series deleted creates a batch that repeats a name. -/
theorem run_creates_repeated :
    let load (ns : Int32) : SeriesInput := ⟨⟨ns⟩, "load", [], none⟩
    let start := Deployment.ofBackends [.memory .empty] ⟨0⟩
    let run := start.run
      [.call 0 ⟨⟨0⟩, .create (fun _ => default) [(⟨1⟩, load 0), (⟨2⟩, load 1)]⟩,
        .link 0 ⟨.idle, true⟩, .call 0 ⟨⟨1000⟩, .delete [⟨⟨0⟩, ⟨1⟩⟩]⟩]
    let batch := [(⟨7⟩, load 0), (⟨8⟩, load 1), (⟨9⟩, load 0)]
    createdSinceClear 0 run.1 = 2 ∧ ∃ s rows s' handled, run.2.stores = [s] ∧
      s.create 0 batch = .succeed rows s' ∧ Answers batch rows handled ∧ Assigned s handled := by
  intro load start run batch
  have fresh : ∀ store ∈ start.stores, store = .empty := fun store h => List.mem_singleton.mp h
  have counted : createdSinceClear 0 run.1 = 2 := by decide +kernel
  obtain ⟨_, _, _, _, creates⟩ := run_creates fresh
    [.call 0 ⟨⟨0⟩, .create (fun _ => default) [(⟨1⟩, load 0), (⟨2⟩, load 1)]⟩,
      .link 0 ⟨.idle, true⟩, .call 0 ⟨⟨1000⟩, .delete [⟨⟨0⟩, ⟨1⟩⟩]⟩]
    rfl (lt_of_eq_of_lt counted (by decide))
  obtain ⟨rows, s', handled, hcreate, answers, assigned, _⟩ := creates 0 batch
  exact ⟨counted, _, rows, s', handled, rfl, hcreate, answers, assigned⟩

end SeriesStorage
