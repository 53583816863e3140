import SeriesStorage.Proofs.Memory.BatchCreation

/-!
# Creations at the same time

Any number of creations run at the same time, and take turns in any order.  In a turn a creation
runs one of its sections: the first one looks its names up, the second one looks the missing ones up
again and creates what is still missing.  A creation with nothing missing has no second section.

* `Creation`, `Creations.play`: creations, and what a schedule of turns makes of them.
* `Creation.act_act`: a creation that is alone does what `Store.create` does.
* `Stands`: where a creation is, and why its first lookup is as good as a later one.
* `Sound`: all creations so far made progress on the names of the store.
* `play_creates`: entries of one name, over all creations, get one id, which one of them created.
-/

namespace SeriesStorage

namespace Memory

/-! ## Taking turns -/

/-- Where a creation is. -/
inductive CreationPhase
  | looking
  | inserting (found : List Created) (missing : CreateBatch)
  | returned (answer : Except Error (List Created))
deriving DecidableEq

/-- A creation of a batch. -/
structure Creation where
  batch : CreateBatch
  phase : CreationPhase
deriving DecidableEq

namespace Creation

/-- A creation that has just been called. -/
def begin (batch : CreateBatch) : Creation := ⟨batch, .looking⟩

/-- What a creation has answered, if it has returned. -/
def answer? (c : Creation) : Option (Except Error (List Created)) :=
  match c.phase with
  | .returned answer => some answer
  | _ => none

/-- Runs the next section of a creation. -/
def act (c : Creation) (now : UInt64) (s : Store) : Creation × Store :=
  match c.phase with
  | .looking =>
    match s.lookupPass c.batch with
    | .error e => (⟨c.batch, .returned (.error e)⟩, s)
    | .ok (found, []) => (⟨c.batch, .returned (.ok found)⟩, s)
    | .ok (found, missing) => (⟨c.batch, .inserting found missing⟩, s)
  | .inserting found missing =>
    let outcome := Store.insertPass now missing s
    (⟨c.batch, .returned (outcome.answer.map (found ++ ·))⟩, outcome.state)
  | .returned _ => (c, s)

/-- A creation that is alone does all that a creation does. -/
theorem act_act (batch : CreateBatch) (before now : UInt64) (s : Store) :
    let (c, s₁) := (begin batch).act before s
    c.act now s₁ =
      (⟨batch, .returned (s.create now batch).answer⟩, (s.create now batch).state) := by
  unfold Store.create
  cases looked : s.lookupPass batch with
  | error e => simp [act, begin, looked]
  | ok result =>
    obtain ⟨found, missing⟩ := result
    cases missing with
    | nil => simp [act, begin, looked, Store.insertPass]
    | cons first rest =>
      simp only [act, begin, looked, Outcome.andThen]
      cases Store.insertPass now (first :: rest) s with
      | mk answer s' => cases answer <;> rfl

end Creation

/-- Creations on one store. -/
structure Creations where
  store : Store
  calls : List Creation

/-- Which creation runs its next section, and when. -/
structure Turn where
  place : Nat
  now : UInt64

namespace Creations

/-- Creations that have just been called. -/
def begin (s : Store) (batches : List CreateBatch) : Creations := ⟨s, batches.map .begin⟩

/-- A creation takes its turn. -/
def turn (cs : Creations) (t : Turn) : Creations :=
  match cs.calls[t.place]? with
  | none => cs
  | some c =>
    let (c, s) := c.act t.now cs.store
    ⟨s, cs.calls.set t.place c⟩

/-- Creations take turns. -/
def play (cs : Creations) (schedule : List Turn) : Creations := schedule.foldl turn cs

end Creations

/-! ## Where a creation stands -/

open Store

/-- Where a creation is, and which of its entries are answered.  What it looked up may have been in
an earlier store, but the names of that store are still there. -/
inductive Stands (s : Store) : Creation → List Handled → Prop
  | looking (batch : CreateBatch) : Stands s ⟨batch, .looking⟩ []
  | inserting (batch : CreateBatch) (s₁ : Store) :
      (∀ key id, s₁.names.get? key = some id → s.names.get? key = some id) →
      Stands s ⟨batch, .inserting (s₁.foundRows batch) (s₁.missing batch)⟩ []
  | returned {batch : CreateBatch} {rows : List Created} {handled : List Handled} :
      Answers batch rows handled → Stands s ⟨batch, .returned (.ok rows)⟩ handled

/-- A creation stands where it is when names come in. -/
theorem Stands.grow {s s' : Store} {c : Creation} {handled : List Handled} (h : Stands s c handled)
    (grown : ∀ key id, s.names.get? key = some id → s'.names.get? key = some id) :
    Stands s' c handled := by
  cases h with
  | looking batch => exact .looking batch
  | inserting batch s₁ known =>
    exact .inserting batch s₁ fun key id found => grown key id (known key id found)
  | returned answers => exact .returned answers

/-- What a section does: the creation stands somewhere else, and the entries that were answered made
progress on the names of the store. -/
structure Acts (s : Store) (handled : List Handled) (c' : Creation) (s' : Store)
    (more : List Handled) : Prop where
  linked : s'.Linked
  stands : Stands s' c' (handled ++ more)
  progress : Progress s s' more
  counted : ∀ count, s.Counted count → s'.Counted (count + newCount (more.map (·.row)))

/-- The second section answers as if all entries had been looked up in it. -/
theorem acts_inserting {s s₁ : Store} (linked : s.Linked) (now : UInt64) (batch : CreateBatch)
    (known : ∀ key id, s₁.names.get? key = some id → s.names.get? key = some id) :
    ∃ rows s' more, insertPass now (s₁.missing batch) s = .succeed rows s' ∧
      Acts s [] ⟨batch, .returned (.ok (s₁.foundRows batch ++ rows))⟩ s' more := by
  obtain ⟨rows, s', hpass, hinserts⟩ := linked.insertPass now (s₁.missing batch)
  obtain ⟨all, hall, hperm⟩ := hinserts.of_missing known
  obtain ⟨more, answers, same, progress⟩ := hall.progress
  refine ⟨rows, s', more, hpass, hall.linked linked, .returned ?_, progress,
    fun count old room => ?_⟩
  · exact ⟨answers.entries, answers.rows.trans hperm.symm, answers.marked⟩
  · rw [same] at room ⊢
    obtain ⟨hc, counted⟩ := old (by omega)
    obtain ⟨hc', counted'⟩ := hall.consistent hc (by omega)
    exact ⟨hc', by omega⟩

/-- **One section.** -/
theorem Stands.act {s : Store} {c : Creation} {handled : List Handled} (h : Stands s c handled)
    (linked : s.Linked) (now : UInt64) :
    ∃ c' s' more, c.act now s = (c', s') ∧ Acts s handled c' s' more := by
  cases h with
  | looking batch =>
    simp only [Creation.act, linked.lookupPass_eq]
    cases left : s.missing batch with
    | nil =>
      -- Nothing is missing: the creation answers as its second section would.
      obtain ⟨rows, s', more, hpass, acts⟩ := acts_inserting linked now batch fun _ _ found => found
      rw [left] at hpass
      obtain ⟨rfl, rfl⟩ : rows = [] ∧ s' = s := by
        cases hpass
        exact ⟨rfl, rfl⟩
      rw [List.append_nil] at acts
      exact ⟨_, _, more, rfl, acts⟩
    | cons first rest =>
      refine ⟨_, _, [], rfl, linked, ?_, .refl s, fun count old => old⟩
      rw [← left]
      exact .inserting batch s fun _ _ found => found
  | inserting batch s₁ known =>
    obtain ⟨rows, s', more, hpass, acts⟩ := acts_inserting linked now batch known
    exact ⟨_, _, more, by simp only [Creation.act, hpass]; rfl, acts⟩
  | @returned batch rows handled answers =>
    exact ⟨_, _, [], rfl, linked, by simpa using .returned answers, .refl s, fun count old => old⟩

/-! ## All creations together -/

/-- All creations that have returned so far made progress on the names of a store. -/
structure Sound (s₀ : Store) (count : Nat) (cs : Creations) (parts : List (List Handled)) :
    Prop where
  linked : cs.store.Linked
  stands : List.Forall₂ (Stands cs.store) cs.calls parts
  progress : Progress s₀ cs.store parts.flatten
  counted : cs.store.Counted (count + newCount (parts.flatten.map (·.row)))

/-- Entries that come to one part come to all. -/
theorem flatten_set_append {α : Type} {parts : List (List α)} {i : Nat} {part : List α}
    (here : parts[i]? = some part) (more : List α) :
    (parts.flatten ++ more).Perm (parts.set i (part ++ more)).flatten := by
  induction parts generalizing i with
  | nil => cases here
  | cons first rest ih =>
    cases i with
    | zero =>
      obtain rfl : first = part := Option.some.inj here
      simpa using List.perm_append_comm.append_left first
    | succ i => simpa using (ih here).append_left first

/-- Related lists have related elements at each place. -/
theorem forall₂_getElem? {α β : Type} {R : α → β → Prop} {as : List α} {bs : List β}
    (h : List.Forall₂ R as bs) {i : Nat} {a : α} (here : as[i]? = some a) :
    ∃ b, bs[i]? = some b ∧ R a b := by
  induction h generalizing i with
  | nil => cases here
  | cons first _ ih =>
    cases i with
    | zero =>
      obtain rfl := Option.some.inj here
      exact ⟨_, rfl, first⟩
    | succ i => exact ih here

theorem forall₂_set {α β : Type} {R : α → β → Prop} {as : List α} {bs : List β}
    (h : List.Forall₂ R as bs) (i : Nat) {a : α} {b : β} (new : R a b) :
    List.Forall₂ R (as.set i a) (bs.set i b) := by
  induction h generalizing i with
  | nil => exact .nil
  | cons first rest ih =>
    cases i with
    | zero => exact .cons new rest
    | succ i => exact .cons first (ih i)

theorem sound_begin {s : Store} {count : Nat} (linked : s.Linked) (counted : s.Counted count)
    (batches : List CreateBatch) :
    Sound s count (.begin s batches) (batches.map fun _ => []) := by
  have none : (batches.map fun _ => ([] : List Handled)).flatten = [] := by simp
  refine ⟨linked, ?_, by rw [none]; exact .refl s, by rw [none]; exact counted⟩
  refine List.forall₂_map_left_iff.mpr (List.forall₂_map_right_iff.mpr ?_)
  exact List.forall₂_same.mpr fun batch _ => .looking batch

/-- **One turn.** -/
theorem Sound.turn {s₀ : Store} {count : Nat} {cs : Creations} {parts : List (List Handled)}
    (h : Sound s₀ count cs parts) (t : Turn) : ∃ parts', Sound s₀ count (cs.turn t) parts' := by
  unfold Creations.turn
  cases found : cs.calls[t.place]? with
  | none => exact ⟨parts, h⟩
  | some c =>
    obtain ⟨part, here, stands⟩ := forall₂_getElem? h.stands found
    obtain ⟨c', s', more, hact, acts⟩ := stands.act h.linked t.now
    have added := flatten_set_append here more
    refine ⟨parts.set t.place (part ++ more), ?_⟩
    simp only [hact]
    constructor
    · exact acts.linked
    · exact forall₂_set (h.stands.imp fun _ _ other => other.grow acts.progress.grown) _ acts.stands
    · exact (h.progress.trans acts.progress).perm added
    · rw [← newCount_perm (added.map _), List.map_append, newCount, List.countP_append,
        ← Nat.add_assoc]
      exact acts.counted _ h.counted

/-- **All turns.** -/
theorem Sound.play {s₀ : Store} {count : Nat} {cs : Creations} {parts : List (List Handled)}
    (h : Sound s₀ count cs parts) (schedule : List Turn) :
    ∃ parts', Sound s₀ count (cs.play schedule) parts' := by
  induction schedule generalizing cs parts with
  | nil => exact ⟨parts, h⟩
  | cons t rest ih =>
    obtain ⟨parts', h'⟩ := h.turn t
    exact ih h'

/-! ## Creations return -/

namespace Creation

/-- How many turns a creation needs at most. -/
def turnsLeft (c : Creation) : Nat :=
  match c.phase with
  | .looking => 2
  | .inserting _ _ => 1
  | .returned _ => 0

theorem act_batch (c : Creation) (now : UInt64) (s : Store) : (c.act now s).1.batch = c.batch := by
  unfold act
  split
  · split <;> rfl
  · rfl
  · rfl

/-- A turn brings a creation closer to its answer. -/
theorem act_turnsLeft (c : Creation) (now : UInt64) (s : Store) :
    (c.act now s).1.turnsLeft ≤ c.turnsLeft - 1 := by
  obtain ⟨batch, phase⟩ := c
  cases phase with
  | looking =>
    unfold act
    dsimp only
    split <;> exact Nat.le_of_ble_eq_true rfl
  | inserting found missing => exact Nat.le_refl 0
  | returned answer => exact Nat.le_refl 0

end Creation

/-- Each creation keeps its batch, and comes closer to its answer with each of its turns. -/
theorem Creations.play_calls (cs : Creations) (schedule : List Turn) {i : Nat} {c : Creation}
    (here : cs.calls[i]? = some c) :
    ∃ c', (cs.play schedule).calls[i]? = some c' ∧ c'.batch = c.batch ∧
      c'.turnsLeft ≤ c.turnsLeft - schedule.countP (·.place = i) := by
  induction schedule generalizing cs c with
  | nil => exact ⟨c, here, rfl, Nat.le_refl _⟩
  | cons t rest ih =>
    rw [List.countP_cons]
    by_cases own : t.place = i
    · subst own
      have acted : (cs.turn t).calls[t.place]? = some (c.act t.now cs.store).1 := by
        obtain ⟨bound, rfl⟩ := List.getElem?_eq_some_iff.mp here
        simp [turn, bound]
      obtain ⟨c', here', batch, left⟩ := ih (cs.turn t) acted
      refine ⟨c', here', batch.trans (c.act_batch t.now cs.store), ?_⟩
      have := c.act_turnsLeft t.now cs.store
      simp only [decide_true, if_true]
      omega
    · have kept : (cs.turn t).calls[i]? = some c := by
        unfold turn
        split
        · exact here
        · exact (List.getElem?_set_ne own).trans here
      obtain ⟨c', here', batch, left⟩ := ih (cs.turn t) kept
      refine ⟨c', here', batch, ?_⟩
      simpa [own] using left

theorem Stands.answered {s : Store} {c : Creation} {part : List Handled} (h : Stands s c part) :
    (∀ answer, c.answer? = some answer → ∃ rows, answer = .ok rows ∧ Answers c.batch rows part) ∧
      (c.answer? = none → part = []) := by
  cases h with
  | looking batch => exact ⟨nofun, fun _ => rfl⟩
  | inserting batch s₁ known => exact ⟨nofun, fun _ => rfl⟩
  | returned answers =>
    refine ⟨fun answer same => ?_, nofun⟩
    exact ⟨_, (Option.some.inj same).symm, answers⟩

/-- A creation that needs no more turns has returned. -/
theorem Creation.answered_of_turnsLeft {c : Creation} (done : c.turnsLeft = 0) :
    ∃ answer, c.answer? = some answer := by
  obtain ⟨batch, phase⟩ := c
  cases phase with
  | looking => cases done
  | inserting found missing => cases done
  | returned answer => exact ⟨answer, rfl⟩

end Memory

open Memory.Store in
/-- **Creations at the same time.**  On a store that a deployment reached before its counter of ids
overflowed, any creations take turns in any order.  Two turns are enough for each of them, and none
of them fails.  The ids of all their entries are as the names of the store at the beginning demand:
names that were there keep their ids, and of all entries of a new name one creates it and all get
its id.  Entries of different names get different ids, unless the counter overflows. -/
theorem play_creates {start : Deployment} (fresh : ∀ store ∈ start.stores, store = .empty)
    (events : List Event) {place : Nat} {s : Memory.Store} {link : Option Link}
    (here : (start.run events).2.participants[place]? = some ⟨.memory s, link⟩)
    (room : createdSinceClear place (start.run events).1 < 0x10000000000000000)
    (batches : List CreateBatch) (schedule : List Memory.Turn) :
    let cs := (Memory.Creations.begin s batches).play schedule
    (∀ i batch, batches[i]? = some batch → ∃ c, cs.calls[i]? = some c ∧ c.batch = batch ∧
      (2 ≤ schedule.countP (·.place = i) → ∃ rows, c.answer? = some (.ok rows))) ∧
    ∃ parts : List (List Handled),
      List.Forall₂ (fun c part =>
        (∀ answer, c.answer? = some answer →
          ∃ rows, answer = .ok rows ∧ Answers c.batch rows part) ∧
        (c.answer? = none → part = [])) cs.calls parts ∧
      Assigned s parts.flatten ∧
      (createdSinceClear place (start.run events).1 + newCount (parts.flatten.map (·.row)) <
          0x10000000000000000 →
        ∀ h ∈ parts.flatten, ∀ h' ∈ parts.flatten, h.key ≠ h'.key → h.row.id ≠ h'.row.id) := by
  have counted := Deployment.counted_run fresh events here
  obtain ⟨parts, sound⟩ :=
    (Memory.sound_begin (counted room).1.linked counted batches).play schedule
  refine ⟨fun i batch known => ?_, parts, sound.stands.imp fun c part stands => stands.answered,
    sound.progress.assigned, fun enough h hmem h' hmem' differ same => differ ?_⟩
  · have begun : (Memory.Creations.begin s batches).calls[i]? = some (.begin batch) := by
      simp [Memory.Creations.begin, known]
    obtain ⟨c, found, same, left⟩ := Memory.Creations.play_calls _ schedule begun
    refine ⟨c, found, same, fun twice => ?_⟩
    obtain ⟨part, _, stands⟩ := Memory.forall₂_getElem? sound.stands found
    have done : c.turnsLeft = 0 := by
      have : (Memory.Creation.begin batch).turnsLeft = 2 := rfl
      omega
    obtain ⟨answer, answered⟩ := Memory.Creation.answered_of_turnsLeft done
    obtain ⟨rows, rfl, _⟩ := stands.answered.1 answer answered
    exact ⟨rows, answered⟩
  · -- An id has one descriptor, which has one name.
    obtain ⟨hc, _⟩ := sound.counted enough
    obtain ⟨m, hm, hns, hname⟩ := hc.named _ _ _ (sound.progress.named h hmem)
    obtain ⟨m', hm', hns', hname'⟩ := hc.named _ _ _ (sound.progress.named h' hmem')
    rw [same, hm'] at hm
    obtain rfl := Option.some.inj hm
    exact Prod.ext (hns.symm.trans hns') (hname.symm.trans hname')

open Memory.Store in
/-- Two creations look for a name before either of them inserts it: the first one creates it. -/
theorem play_creates_racing :
    let load (ns : Int32) : SeriesInput := ⟨⟨ns⟩, "load", [], none⟩
    let start := Deployment.ofBackends [.memory .empty] ⟨0⟩
    let run := start.run [.call 0 ⟨⟨0⟩, .create (fun _ => default) [(⟨1⟩, load 1)]⟩]
    let first := [(⟨1⟩, load 0), (⟨2⟩, load 1)]
    let second := [(⟨1⟩, load 0), (⟨2⟩, load 0)]
    createdSinceClear 0 run.1 = 1 ∧ ∃ s part part', run.2.stores = [s] ∧
      Answers first [⟨⟨2⟩, ⟨1⟩, false⟩, ⟨⟨1⟩, ⟨2⟩, false⟩] part ∧
      Answers second [⟨⟨1⟩, ⟨2⟩, true⟩, ⟨⟨2⟩, ⟨2⟩, false⟩] part' ∧
      Assigned s (part ++ part') := by
  intro load start run first second
  have fresh : ∀ store ∈ start.stores, store = .empty := fun store h => List.mem_singleton.mp h
  let s := (empty.create 0 [(⟨1⟩, load 1)]).state
  have played : ((Memory.Creations.begin s [first, second]).play
      [⟨0, 5⟩, ⟨1, 6⟩, ⟨1, 7⟩, ⟨0, 8⟩]).calls =
        [⟨first, .returned (.ok [⟨⟨2⟩, ⟨1⟩, false⟩, ⟨⟨1⟩, ⟨2⟩, false⟩])⟩,
          ⟨second, .returned (.ok [⟨⟨1⟩, ⟨2⟩, true⟩, ⟨⟨2⟩, ⟨2⟩, false⟩])⟩] := by decide +kernel
  have here : run.2.participants[0]? = some ⟨.memory s, none⟩ := rfl
  have counted : createdSinceClear 0 run.1 = 1 := by decide +kernel
  obtain ⟨_, parts, answered, assigned, _⟩ := play_creates fresh
    [.call 0 ⟨⟨0⟩, .create (fun _ => default) [(⟨1⟩, load 1)]⟩] here
    (lt_of_eq_of_lt counted (by decide)) [first, second] [⟨0, 5⟩, ⟨1, 6⟩, ⟨1, 7⟩, ⟨0, 8⟩]
  rw [played] at answered
  obtain _ | ⟨⟨one, _⟩, _ | ⟨⟨two, _⟩, _ | _⟩⟩ := answered
  obtain ⟨_, same, answers⟩ := one _ rfl
  obtain ⟨_, same', answers'⟩ := two _ rfl
  obtain rfl := Except.ok.inj same
  obtain rfl := Except.ok.inj same'
  exact ⟨counted, s, _, _, rfl, answers, answers', by simpa using assigned⟩

end SeriesStorage
