import Mathlib.Algebra.Ring.Nat
import SeriesStorage.Proofs.Memory.ConcurrentCreation

/-!
# Calls at the same time

Any number of calls run at the same time, and take turns in any order.  In a turn a call runs one of
its sections.  A write looks for its series in one section and appends its points in another one; a
deletion removes descriptors in one section and points in another one.  So a write that has found
its series may append to it when it was deleted in between, and nobody removes these points.

* `Activity`, `Concurrent.play`: calls, and what a schedule of turns makes of them.
* `Deployment.leaves_perform`: a call that is alone does what `Deployment.perform` does.
* `Activity.Step`: all that a section can do.
* `Concurrent.Adrift`: a series is not there and nobody is about to remove its points.
* `Activity.Step.adrift`: one section sets points adrift only by appending them.
* `play_orphans_iff`: points without a series remain exactly if they were appended so.
-/

namespace SeriesStorage

namespace Memory

/-! ## Taking turns -/

/-- What a series is looked for. -/
inductive Purpose
  | append (values : List KeyedValue)
  | fetch (window : Window)

/-- Who deletes a series that a call finds expired. -/
inductive Expiry
  /-- The call does, from its own store. -/
  | own
  /-- Whoever the call reports it to, who leaves the store alone and answers. -/
  | reported (answer : Except Error Unit)

/-- What becomes of a store whose series is found expired. -/
def Expiry.outcome (expiry : Expiry) (ref : SeriesRef) (s : Store) : Outcome Store Unit :=
  match expiry with
  | .own => s.delete [ref]
  | .reported answer => .answered answer s

/-- What is left of a call. -/
inductive Activity
  | accessing (ref : SeriesRef) (purpose : Purpose) (expiry : Expiry)
  | serving (ref : SeriesRef) (purpose : Purpose)
  | unregistering (refs : List SeriesRef) (answer : Except Error Answer)
  | dropping (refs : List SeriesRef) (answer : Except Error Answer)
  | creating (creation : Creation)
  | searching (query : Search)
  | clearing
  | returned (answer : Except Error Answer)

namespace Activity

/-- A call that has just been made. -/
def begin : Call × Expiry → Activity
  | (.connect, _) => .returned (.ok .done)
  | (.create _ batch, _) => .creating (.begin batch)
  | (.search query, _) => .searching query
  | (.delete refs, _) => .unregistering refs (.ok .done)
  | (.clear, _) => .clearing
  | (.write ref _ draws times values, expiry) =>
    .accessing ref (.append (Store.keyedValues draws times values)) expiry
  | (.flush _, _) => .returned (.ok .done)
  | (.read ref window, expiry) => .accessing ref (.fetch window) expiry

/-- Runs the next section of a call. -/
def act (a : Activity) (now : UInt64) (s : Store) : Activity × Store :=
  match a with
  | .accessing ref purpose expiry =>
    match s.access now ref with
    | .live _ => (.serving ref purpose, s)
    | .unknown => (.returned (.error .metadataNotFound), s)
    | .expired _ =>
      match expiry with
      | .own => (.unregistering [ref] (.error .seriesExpired), s)
      | .reported (.ok _) => (.returned (.error .seriesExpired), s)
      | .reported (.error e) => (.returned (.error e), s)
  | .serving ref (.append values) => (.returned (.ok .done), s.append ref values)
  | .serving ref (.fetch window) => (.returned ((s.pointsIn ref window).map .points), s)
  | .unregistering refs answer =>
    let outcome := s.unregister refs
    match outcome.answer with
    | .ok _ => (.dropping refs answer, outcome.state)
    | .error e => (.returned (.error e), outcome.state)
  | .dropping refs answer => (.returned answer, s.dropPoints refs)
  | .creating c =>
    let (c, s) := c.act now s
    match c.answer? with
    | some answer => (.returned (answer.map .created), s)
    | none => (.creating c, s)
  | .searching query => (.returned ((s.search query).map .found), s)
  | .clearing => (.returned (.ok .done), s.clear)
  | .returned answer => (.returned answer, s)

/-- What a call has answered, if it has returned. -/
def answer? : Activity → Option (Except Error Answer)
  | .returned answer => some answer
  | _ => none

/-! ### A call that is alone -/

/-- One turn of a call that is alone on its store. -/
def turn (now : UInt64) (alone : Activity × Store) : Activity × Store := alone.1.act now alone.2

/-- A call has returned and left this outcome. -/
def settled (outcome : Outcome Store Answer) : Activity × Store :=
  (.returned outcome.answer, outcome.state)

theorem turn_settled (now : UInt64) (outcome : Outcome Store Answer) :
    turn now (settled outcome) = settled outcome := rfl

theorem turn_unregistering (now : UInt64) (refs : List SeriesRef) (answer : Except Error Answer)
    (s : Store) : turn now (turn now (.unregistering refs answer, s)) =
      settled ((s.delete refs).andThen fun _ s => .answered answer s) := by
  unfold Store.delete turn act
  dsimp only
  generalize s.unregister refs = outcome
  obtain ⟨removed, state⟩ := outcome
  cases removed <;> rfl

theorem turn_accessing (now : UInt64) (ref : SeriesRef) (purpose : Purpose) (expiry : Expiry)
    (s : Store) (served : Outcome Store Answer)
    (serves : turn now (.serving ref purpose, s) = settled served) :
    turn now (turn now (turn now (.accessing ref purpose expiry, s))) =
      settled (match s.access now ref with
        | .live _ => served
        | .unknown => .fail .metadataNotFound s
        | .expired _ => (expiry.outcome ref s).andThen fun _ s => .fail .seriesExpired s) := by
  have accessed : turn now (.accessing ref purpose expiry, s) = match s.access now ref with
    | .live _ => (.serving ref purpose, s)
    | .unknown => settled (.fail .metadataNotFound s)
    | .expired _ =>
      match expiry with
      | .own => (.unregistering [ref] (.error .seriesExpired), s)
      | .reported (.ok _) => settled (.fail .seriesExpired s)
      | .reported (.error e) => settled (.fail e s) := rfl
  rw [accessed]
  cases s.access now ref with
  | live m => exact congrArg (turn now) serves
  | unknown => rfl
  | expired m =>
    rcases expiry with _ | ⟨_ | _⟩
    · exact turn_unregistering now [ref] _ s
    · rfl
    · rfl

theorem turn_creating (now : UInt64) (batch : CreateBatch) (s : Store) :
    turn now (turn now (.creating (.begin batch), s)) =
      settled ((s.create now batch).map .created) := by
  have both := Creation.act_act batch now now s
  unfold turn
  simp only [act]
  generalize (Creation.begin batch).act now s = first at both
  obtain ⟨c, s₁⟩ := first
  dsimp only at both ⊢
  cases answered : c.answer? with
  | none => simp only [both]; rfl
  | some answer =>
    -- the first section was the last one
    obtain ⟨batch', phase⟩ := c
    cases phase with
    | returned answer' =>
      obtain rfl := Option.some.inj answered
      obtain ⟨same, rfl⟩ := Prod.mk.inj both
      obtain ⟨_, same⟩ := Creation.mk.inj same
      rw [CreationPhase.returned.inj same]
      rfl
    | _ => cases answered

end Activity

end Memory

namespace Deployment

open Memory (Store Expiry Activity)

variable {d : Deployment} {i : Nat} {s : Store} {link : Option Link}

/-- A call leaves the store at a place as an outcome says, and gives the answer of the outcome. -/
structure Leaves {α : Type} (i : Nat) (link : Option Link) (left : Outcome Deployment α)
    (served : Outcome Store α) : Prop where
  answer : left.answer = served.answer
  here : left.state.participants[i]? = some ⟨.memory served.state, link⟩

theorem leaves_onBackend {α : Type} (here : d.participants[i]? = some ⟨.memory s, link⟩)
    (memory : Store → Outcome Store α) (remote : Remote.Task α) :
    Leaves i link (d.onBackend i memory remote) (memory s) := by
  unfold onBackend
  rw [here]
  exact ⟨rfl, by simp [get?_setBackend, here]⟩

theorem Leaves.map {α β : Type} {left : Outcome Deployment α} {served : Outcome Store α}
    (h : Leaves i link left served) (f : α → β) : Leaves i link (left.map f) (served.map f) :=
  ⟨congrArg (·.map f) h.answer, h.here⟩

theorem Leaves.andThen {α β : Type} {left : Outcome Deployment α} {served : Outcome Store α}
    (h : Leaves i link left served) {next : α → Deployment → Outcome Deployment β}
    {next' : α → Store → Outcome Store β}
    (goesOn : ∀ a d s, d.participants[i]? = some ⟨.memory s, link⟩ →
      Leaves i link (next a d) (next' a s)) :
    Leaves i link (left.andThen next) (served.andThen next') := by
  obtain ⟨answer, state⟩ := left
  obtain ⟨answer', s⟩ := served
  obtain ⟨same, here⟩ := h
  obtain rfl : answer = answer' := same
  cases answer with
  | ok a => exact goesOn a state s here
  | error e => exact ⟨rfl, here⟩

theorem get?_delete (d : Deployment) (refs : List SeriesRef) {k : Nat} (apart : k ≠ i) :
    (d.delete k refs).state.participants[i]? = d.participants[i]? := by
  unfold delete onBackend
  split <;> simp [get?_setBackend, apart]

/-- A link says who deletes expired series. -/
theorem leaves_expire (here : d.participants[i]? = some ⟨.memory s, link⟩) (ref : SeriesRef) :
    ∃ expiry : Expiry, Leaves i link (d.expire i ref) (expiry.outcome ref s) := by
  have deletes : ∀ d : Deployment, d.participants[i]? = some ⟨.memory s, link⟩ →
      Leaves i link (d.delete i [ref]) (s.delete [ref]) := fun _ here => leaves_onBackend here _ _
  have linked : d.participants[i]?.bind (·.link) = link := by rw [here]; rfl
  unfold expire
  rw [linked]
  match link with
  | none => exact ⟨.own, deletes d here⟩
  | some ⟨_, false⟩ => exact ⟨.own, deletes d here⟩
  | some ⟨.failing e, true⟩ => exact ⟨.reported (.error e), rfl, here⟩
  | some ⟨.idle, true⟩ => exact ⟨.reported (.ok ()), rfl, here⟩
  | some ⟨.backend k, true⟩ =>
    by_cases same : k = i
    · subst same
      exact ⟨.own, deletes (d.report [ref]) here⟩
    · exact ⟨.reported _, rfl, (get?_delete (d.report [ref]) [ref] same).trans here⟩

theorem leaves_guarded {α β : Type} (here : d.participants[i]? = some ⟨.memory s, link⟩)
    (ref : SeriesRef) (memory : Store → Outcome Store α) (remote : SeriesMetadata → Remote.Task α)
    (f : α → β) :
    ∃ expiry : Expiry,
      Leaves i link (d.guarded i ref fun m d => (d.onBackend i memory (remote m)).map f)
        (match s.access d.now.seconds ref with
        | .live _ => (memory s).map f
        | .unknown => .fail .metadataNotFound s
        | .expired _ => (expiry.outcome ref s).andThen fun _ s => .fail .seriesExpired s) := by
  have looked : Leaves i link (d.access i ref) (.succeed (s.access d.now.seconds ref) s) :=
    leaves_onBackend here _ _
  obtain ⟨expiry, gone⟩ := leaves_expire looked.here ref
  refine ⟨expiry, ?_⟩
  unfold guarded
  rw [Outcome.andThen_eq_of_ok looked.answer]
  cases s.access d.now.seconds ref with
  | live m => exact (leaves_onBackend looked.here memory (remote m)).map f
  | unknown => exact ⟨rfl, looked.here⟩
  | expired m => exact gone.andThen fun _ _ _ here => ⟨rfl, here⟩

/-- **A call that is alone** does in three turns all that a call of the backend does, whatever its
link does with expired series. -/
theorem leaves_perform (here : d.participants[i]? = some ⟨.memory s, link⟩) (call : Call) :
    ∃ (expiry : Expiry) (served : Outcome Store Answer),
      let turn := Activity.turn d.now.seconds
      turn (turn (turn (.begin (call, expiry), s))) = Activity.settled served ∧
        Leaves i link (d.perform i call) served := by
  cases call with
  | create chances batch =>
    refine ⟨.own, _, ?_, leaves_onBackend here _ _⟩
    show Activity.turn _ (Activity.turn _ (Activity.turn _ (.creating (.begin batch), s))) = _
    rw [Activity.turn_creating, Activity.turn_settled]
    rfl
  | delete refs =>
    refine ⟨.own, _, ?_, leaves_onBackend here _ _⟩
    show Activity.turn _ (Activity.turn _ (Activity.turn _
      (.unregistering refs (.ok .done), s))) = _
    rw [Activity.turn_unregistering, Activity.turn_settled]
    exact congrArg Activity.settled (Outcome.map_eq_andThen _ _).symm
  | write ref req draws times values =>
    obtain ⟨expiry, left⟩ := leaves_guarded here ref
      (fun s => .succeed () (s.append ref (Store.keyedValues draws times values)))
      (Remote.append ref.ns req · draws times values) fun _ => Answer.done
    exact ⟨expiry, _, Activity.turn_accessing _ ref _ expiry s _ rfl, left⟩
  | read ref window =>
    obtain ⟨expiry, left⟩ := leaves_guarded here ref (fun s => .answered (s.pointsIn ref window) s)
      (fun _ => Remote.fetch ref window) Answer.points
    exact ⟨expiry, _, Activity.turn_accessing _ ref _ expiry s _ rfl, left⟩
  | _ => exact ⟨.own, _, rfl, leaves_onBackend here _ _⟩

end Deployment

namespace Memory

/-- Calls on one store. -/
structure Concurrent where
  store : Store
  activities : List Activity

namespace Concurrent

/-- Calls that have just been made. -/
def begin (s : Store) (calls : List (Call × Expiry)) : Concurrent := ⟨s, calls.map .begin⟩

/-- A call takes its turn. -/
def turn (cs : Concurrent) (t : Turn) : Concurrent :=
  match cs.activities[t.place]? with
  | none => cs
  | some a =>
    let (a, s) := a.act t.now cs.store
    ⟨s, cs.activities.set t.place a⟩

/-- Calls take turns. -/
def play (cs : Concurrent) (schedule : List Turn) : Concurrent := schedule.foldl turn cs

/-- All calls have returned. -/
def Returned (cs : Concurrent) : Prop := ∀ a ∈ cs.activities, a.answer?.isSome

end Concurrent

/-! ## What a section does -/

open Store

/-- How many ids a creation may still give. -/
def Creation.idsLeft (c : Creation) : Nat :=
  match c.phase with
  | .looking => c.batch.length
  | .inserting _ missing => missing.length
  | .returned _ => 0

namespace Activity

/-- How many ids a call may still give. -/
def idsLeft : Activity → Nat
  | .creating c => c.idsLeft
  | _ => 0

/-- A call is about to remove the points of a series. -/
def Drops (ref : SeriesRef) : Activity → Prop
  | .dropping refs _ => ref ∈ refs
  | _ => False

/-- A call is about to append points to a series. -/
def Appends (ref : SeriesRef) : Activity → Prop
  | .serving ref' (.append values) => ref' = ref ∧ values ≠ []
  | _ => False

end Activity

/-- Series came in under ids that were not given before, and no points came or went. -/
structure Grown (s s' : Store) : Prop where
  indexed : s'.Indexed
  points : s'.points = s.points
  counted : s.lastId.toNat ≤ s'.lastId.toNat
  keeps : ∀ ref, s.Has ref → s'.Has ref
  appears : ∀ ref, s'.Has ref → s.Has ref ∨ s.lastId.toNat < ref.id.number.toNat

theorem Grown.refl {s : Store} (h : s.Indexed) : Grown s s :=
  ⟨h, rfl, Nat.le_refl _, fun _ => id, fun _ => Or.inl⟩

theorem Store.Inserts.grown {now : UInt64} {batch : CreateBatch} {s s' : Store}
    {rows : List Created} (h : Inserts now batch s rows s') (hs : s.Indexed)
    (room : s.lastId.toNat + newCount rows < 0x10000000000000000) : Grown s s' := by
  obtain ⟨indexed, counted⟩ := h.indexed hs room
  refine ⟨indexed, h.points, by omega, ?_, ?_⟩
  · rintro ref ⟨m, record, owner⟩
    exact ⟨m, h.keeps hs room record, owner⟩
  · rintro ref ⟨m, record, owner⟩
    rcases h.origin record with old | ⟨row, inside, isNew, same⟩
    · exact Or.inl ⟨m, old, owner⟩
    · exact Or.inr (same ▸ h.fresh room inside isNew)

theorem Store.Inserts.newCount_le {now : UInt64} {batch : CreateBatch} {s s' : Store}
    {rows : List Created} (h : Inserts now batch s rows s') : newCount rows ≤ batch.length := by
  induction h with
  | done => exact Nat.le_refl 0
  | found _ _ ih => exact Nat.le_succ_of_le ih
  | created _ _ ih =>
    rw [newCount, List.countP_cons_of_pos rfl]
    exact Nat.succ_le_succ ih

/-- A section of a creation. -/
theorem Creation.act_grown (c : Creation) (now : UInt64) {s : Store} (h : s.Indexed)
    (room : s.lastId.toNat + c.idsLeft < 0x10000000000000000) :
    let (c', s') := c.act now s
    Grown s s' ∧ s'.lastId.toNat + c'.idsLeft ≤ s.lastId.toNat + c.idsLeft := by
  obtain ⟨batch, phase⟩ := c
  cases phase with
  | looking =>
    have fewer : (s.missing batch).length ≤ batch.length := List.length_filter_le _ _
    simp only [act, h.linked.lookupPass_eq]
    cases missing : s.missing batch with
    | nil => exact ⟨.refl h, Nat.le_add_right _ _⟩
    | cons entry rest =>
      rw [missing] at fewer
      exact ⟨.refl h, Nat.add_le_add_left fewer _⟩
  | inserting found missing =>
    obtain ⟨rows, s', ran, inserts⟩ := h.linked.insertPass now missing
    have given := inserts.newCount_le
    change s.lastId.toNat + missing.length < _ at room
    obtain ⟨_, counted⟩ := inserts.indexed h (by omega)
    simp only [act, ran]
    refine ⟨inserts.grown h (by omega), ?_⟩
    show s'.lastId.toNat + 0 ≤ s.lastId.toNat + missing.length
    omega
  | returned answer => exact ⟨.refl h, Nat.le_refl _⟩

/-- **What a section can do**, except that it clears the store. -/
inductive Activity.Step (s : Store) : Activity → Activity → Store → Prop
  | quiet {a a' : Activity} : (∀ ref, ¬ a.Drops ref ∧ ¬ a.Appends ref ∧ ¬ a'.Drops ref) →
      (∀ ref, a'.Appends ref → s.Has ref) → a'.idsLeft = 0 → a' ≠ .clearing → Step s a a' s
  | appended (ref : SeriesRef) (values : List KeyedValue) :
      Step s (.serving ref (.append values)) (.returned (.ok .done)) (s.append ref values)
  | unregistered {refs : List SeriesRef} (answer : Except Error Answer) :
      (∀ ref ∈ refs, s.Has ref) → Step s (.unregistering refs answer) (.dropping refs answer)
        (refs.foldl (fun s ref => s.unregisterId ref.id) s)
  | dropped (refs : List SeriesRef) (answer : Except Error Answer) :
      Step s (.dropping refs answer) (.returned answer) (s.dropPoints refs)
  | created {c : Creation} {a' : Activity} {s' : Store} : Grown s s' →
      s'.lastId.toNat + a'.idsLeft ≤ s.lastId.toNat + c.idsLeft →
      (∀ ref, ¬ a'.Drops ref ∧ ¬ a'.Appends ref) → a' ≠ .clearing → Step s (.creating c) a' s'

/-- **One section.** -/
theorem Activity.step_act (a : Activity) (keeps : a ≠ .clearing) (now : UInt64) {s : Store}
    (h : s.Indexed) (room : s.lastId.toNat + a.idsLeft < 0x10000000000000000) :
    Step s a (a.act now s).1 (a.act now s).2 := by
  cases a with
  | accessing ref purpose expiry =>
    unfold act
    dsimp only
    cases found : s.access now ref with
    | live m =>
      refine .quiet (fun _ => ⟨id, id, id⟩) (fun ref' appends => ?_) rfl nofun
      cases purpose with
      | append values =>
        obtain ⟨rfl, _⟩ := appends
        exact has_of_live found
      | fetch window => exact appends.elim
    | unknown => exact .quiet (fun _ => ⟨id, id, id⟩) (fun _ => False.elim) rfl nofun
    | expired m =>
      rcases expiry with _ | ⟨_ | _⟩ <;>
        exact .quiet (fun _ => ⟨id, id, id⟩) (fun _ => False.elim) rfl nofun
  | serving ref purpose =>
    cases purpose with
    | append values => exact .appended ref values
    | fetch window => exact .quiet (fun _ => ⟨id, id, id⟩) (fun _ => False.elim) rfl nofun
  | unregistering refs answer =>
    unfold act
    dsimp only
    by_cases has : ∀ ref ∈ refs, s.Has ref
    · rw [unregister_of_has has]
      exact .unregistered answer has
    · obtain ⟨e, _, refused⟩ := unregister_of_not_has has
      rw [refused]
      exact .quiet (fun _ => ⟨id, id, id⟩) (fun _ => False.elim) rfl nofun
  | dropping refs answer => exact .dropped refs answer
  | creating c =>
    obtain ⟨grown, ids⟩ := c.act_grown now h room
    unfold act
    dsimp only
    cases answered : (c.act now s).1.answer? with
    | none => exact .created grown ids (fun _ => ⟨id, id⟩) nofun
    | some answer =>
      refine .created grown (Nat.le_trans ?_ ids) (fun _ => ⟨id, id⟩) nofun
      exact Nat.le_add_right _ _
  | searching query => exact .quiet (fun _ => ⟨id, id, id⟩) (fun _ => False.elim) rfl nofun
  | clearing => exact absurd rfl keeps
  | returned answer => exact .quiet (fun _ => ⟨id, id, id⟩) (fun _ => False.elim) rfl nofun

/-! ## Points adrift -/

theorem pointCount_ne_zero {s : Store} {ref : SeriesRef} :
    s.pointCount ref ≠ 0 ↔ s.valuesOf ref ≠ [] := by
  unfold pointCount
  rw [ne_eq, List.length_eq_zero_iff]
  rfl

/-- Removing descriptors removes the series of these, and no others. -/
theorem has_unregistered {s : Store} {refs : List SeriesRef} (has : ∀ ref ∈ refs, s.Has ref)
    (ref : SeriesRef) : (refs.foldl (fun s ref => s.unregisterId ref.id) s).Has ref ↔
      s.Has ref ∧ ref ∉ refs := by
  refine ⟨fun has : (s.without refs).Has ref => has_without has, ?_⟩
  rintro ⟨there, outside⟩
  have ⟨m, record, owner⟩ := there
  have same := records_without s refs ref.id
  rw [if_neg] at same
  · exact ⟨m, same.trans record, owner⟩
  · rintro ⟨other, inside, id⟩
    exact outside (there.unique (has other inside) id ▸ inside)

/-- **What a section does to points without a series** that nobody is about to remove: they come
only by being appended. -/
theorem Activity.Step.adrift {s s' : Store} {a a' : Activity} (h : Step s a a' s') {ref : SeriesRef}
    (met : s.pointCount ref ≠ 0 → ref.id.number.toNat ≤ s.lastId.toNat) :
    (s'.pointCount ref ≠ 0 ∧ ¬ s'.Has ref ∧ ¬ a'.Drops ref) ↔
      (s.pointCount ref ≠ 0 ∨ a.Appends ref) ∧ ¬ s.Has ref ∧ ¬ a.Drops ref := by
  simp only [pointCount_ne_zero] at met ⊢
  cases h with
  | quiet still _ _ _ =>
    obtain ⟨keeps, idle, after⟩ := still ref
    simp [keeps, idle, after]
  | appended ref' values =>
    rw [has_append, valuesOf_append]
    by_cases same : ref' = ref <;> simp [same, Drops, Appends, imp_iff_not_or]
  | @unregistered refs answer has =>
    have kept : (refs.foldl (fun s ref => s.unregisterId ref.id) s).valuesOf ref = s.valuesOf ref :=
      congrArg (fun points => (points.get? ref).getD []) (points_unregistered s refs)
    rw [has_unregistered has, kept]
    have there := has ref
    simp only [Drops, Appends]
    tauto
  | dropped refs answer =>
    have left : (s.dropPoints refs).valuesOf ref = if ref ∈ refs then [] else s.valuesOf ref := by
      unfold valuesOf dropPoints
      rw [points_erase_all]
      split <;> rfl
    have has : (s.dropPoints refs).Has ref ↔ s.Has ref := Iff.rfl
    rw [left, has]
    by_cases inside : ref ∈ refs <;> simp [inside, Drops, Appends]
  | @created c _ _ grown _ idle _ =>
    obtain ⟨keeps, still⟩ := idle ref
    have kept : s'.valuesOf ref = s.valuesOf ref :=
      congrArg (fun points => (points.get? ref).getD []) grown.points
    have before : ¬ (Activity.creating c).Drops ref := id
    have brings : ¬ (Activity.creating c).Appends ref := id
    rw [kept]
    simp only [keeps, before, brings, or_false, not_false_eq_true, and_true]
    refine and_congr_right fun some => not_congr ⟨fun has => ?_, grown.keeps ref⟩
    exact (grown.appears ref has).resolve_right (Nat.not_lt.mpr (met some))

/-! ## All calls together -/

namespace Concurrent

/-- Points of a series that is not there, which nobody is about to remove. -/
structure Adrift (cs : Concurrent) (ref : SeriesRef) : Prop where
  points : cs.store.pointCount ref ≠ 0
  absent : ¬ cs.store.Has ref
  kept : ∀ a ∈ cs.activities, ¬ a.Drops ref

/-- In a turn a call appends points to a series that is not there, and nobody is about to remove
them. -/
structure Strands (cs : Concurrent) (t : Turn) (ref : SeriesRef) : Prop where
  appends : ∃ a, cs.activities[t.place]? = some a ∧ a.Appends ref
  absent : ¬ cs.store.Has ref
  kept : ∀ a ∈ cs.activities, ¬ a.Drops ref

/-- The counter has room for all ids that may still be given, and the ids of all series that have
points, or are about to get some, were counted. -/
structure Sound (cs : Concurrent) : Prop where
  indexed : cs.store.Indexed
  room : cs.store.lastId.toNat + (cs.activities.map (·.idsLeft)).sum < 0x10000000000000000
  pointed : ∀ ref, cs.store.pointCount ref ≠ 0 → ref.id.number.toNat ≤ cs.store.lastId.toNat
  found : ∀ a ∈ cs.activities, ∀ ref, a.Appends ref →
    ref.id.number.toNat ≤ cs.store.lastId.toNat
  keeps : ∀ a ∈ cs.activities, a ≠ .clearing

end Concurrent

/-- What holds of all elements after one was replaced. -/
theorem forall_mem_set_iff {α : Type} {l : List α} {i : Nat} {a : α} (here : l[i]? = some a)
    (b : α) (P : α → Prop) :
    (∀ x ∈ l.set i b, P x) ↔ P b ∧ ∀ j x, j ≠ i → l[j]? = some x → P x := by
  have bound := (List.getElem?_eq_some_iff.mp here).1
  simp only [List.mem_iff_getElem?, List.getElem?_set, forall_exists_index]
  constructor
  · intro all
    exact ⟨all b i (by simp [bound]), fun j x apart found => all x j (by simp [apart.symm, found])⟩
  · rintro ⟨own, others⟩ x j found
    by_cases same : i = j
    · subst same
      simp only [bound, if_true, Option.some.injEq] at found
      exact found ▸ own
    · exact others j x (Ne.symm same) (by simpa [same] using found)

theorem forall_mem_iff {α : Type} {l : List α} {i : Nat} {a : α} (here : l[i]? = some a)
    (P : α → Prop) : (∀ x ∈ l, P x) ↔ P a ∧ ∀ j x, j ≠ i → l[j]? = some x → P x := by
  rw [← forall_mem_set_iff here]
  obtain ⟨bound, rfl⟩ := List.getElem?_eq_some_iff.mp here
  rw [List.set_getElem_self bound]

/-- A sum of which one summand was replaced. -/
theorem sum_map_set {α : Type} {l : List α} {i : Nat} {a : α} (here : l[i]? = some a) (b : α)
    (f : α → Nat) : ((l.set i b).map f).sum + f a = (l.map f).sum + f b := by
  induction l generalizing i with
  | nil => cases here
  | cons first rest ih =>
    cases i with
    | zero =>
      obtain rfl := Option.some.inj here
      simp only [List.set_cons_zero, List.map_cons, List.sum_cons]
      omega
    | succ i =>
      have later := ih (i := i) here
      simp only [List.set_cons_succ, List.map_cons, List.sum_cons]
      omega

/-- What a section leaves in order: only a series that is there is about to get points, and no ids
are given but those that were left to be given. -/
structure Keeps (s s' : Store) (a a' : Activity) : Prop where
  indexed : s'.Indexed
  counted : s.lastId.toNat ≤ s'.lastId.toNat
  room : s'.lastId.toNat + a'.idsLeft ≤ s.lastId.toNat + a.idsLeft
  pointed : ∀ ref, s'.pointCount ref ≠ 0 → s.pointCount ref ≠ 0 ∨ a.Appends ref
  found : ∀ ref, a'.Appends ref → s.Has ref
  keeps : a' ≠ .clearing

theorem Activity.Step.kept {s s' : Store} {a a' : Activity} (h : Step s a a' s')
    (indexed : s.Indexed) : Keeps s s' a a' := by
  cases h with
  | quiet _ found none keeps =>
    exact ⟨indexed, Nat.le_refl _, by omega, fun _ => Or.inl, found, keeps⟩
  | appended ref values =>
    refine ⟨⟨indexed.described, indexed.named, indexed.counted⟩, Nat.le_refl _, Nat.le_refl _,
      fun ref' some => ?_, nofun, nofun⟩
    rw [pointCount_ne_zero, valuesOf_append] at some
    by_cases same : ref = ref' <;> simp_all [pointCount_ne_zero, Appends, imp_iff_not_or]
  | @unregistered refs answer has =>
    have last : (refs.foldl (fun s ref => s.unregisterId ref.id) s).lastId = s.lastId :=
      lastId_without s refs
    refine ⟨indexed.foldl_unregisterId refs, Nat.le_of_eq (by rw [last]),
      Nat.le_of_eq (by rw [last]; rfl), fun ref some => Or.inl ?_, nofun, nofun⟩
    · unfold pointCount at some ⊢
      rwa [points_unregistered] at some
  | dropped refs answer =>
    refine ⟨⟨indexed.described, indexed.named, indexed.counted⟩, Nat.le_refl _, Nat.le_refl _,
      fun ref some => Or.inl ?_, nofun, nofun⟩
    unfold pointCount dropPoints at some
    rw [points_erase_all] at some
    split at some
    · cases some rfl
    · exact some
  | created grown ids idle keeps =>
    refine ⟨grown.indexed, grown.counted, ids, fun ref some => Or.inl ?_,
      fun ref appends => absurd appends (idle ref).2, keeps⟩
    unfold pointCount at some ⊢
    rwa [grown.points] at some

namespace Concurrent.Sound

variable {cs : Concurrent}

/-- The section that a turn runs. -/
theorem step (h : cs.Sound) {t : Turn} {a : Activity} (here : cs.activities[t.place]? = some a) :
    a.Step cs.store (a.act t.now cs.store).1 (a.act t.now cs.store).2 := by
  have fits := sum_map_set here (.returned (.ok .done)) (·.idsLeft)
  have room := h.room
  change _ + a.idsLeft = _ + 0 at fits
  exact a.step_act (h.keeps a (List.mem_of_getElem? here)) t.now h.indexed (by omega)

/-- **One turn.** -/
theorem turn (h : cs.Sound) (t : Turn) : (cs.turn t).Sound := by
  unfold Concurrent.turn
  cases here : cs.activities[t.place]? with
  | none => exact h
  | some a =>
    have kept := (h.step here).kept h.indexed
    obtain ⟨own, others⟩ := (forall_mem_iff here _).mp h.found
    obtain ⟨_, keeps⟩ := (forall_mem_iff here _).mp h.keeps
    have given := sum_map_set here (a.act t.now cs.store).1 (·.idsLeft)
    have room := h.room
    have room' := kept.room
    have counted := kept.counted
    constructor
    · exact kept.indexed
    · dsimp only at given ⊢
      omega
    · exact fun ref some => Nat.le_trans ((kept.pointed ref some).elim (h.pointed ref) (own ref))
        counted
    · refine (forall_mem_set_iff here _ _).mpr ⟨fun ref appends => ?_, fun j b apart found ref
        appends => Nat.le_trans (others j b apart found ref appends) counted⟩
      obtain ⟨m, record, _⟩ := kept.found ref appends
      exact Nat.le_trans (h.indexed.counted ref.id m record).2 counted
    · exact (forall_mem_set_iff here _ _).mpr ⟨kept.keeps, keeps⟩

/-- **One turn** sets the points of a series adrift exactly if it strands them. -/
theorem turn_adrift (h : cs.Sound) (t : Turn) (ref : SeriesRef) :
    (cs.turn t).Adrift ref ↔ cs.Adrift ref ∨ cs.Strands t ref := by
  unfold Concurrent.turn
  cases here : cs.activities[t.place]? with
  | none =>
    refine ⟨Or.inl, Or.rec id fun strands => ?_⟩
    obtain ⟨a, found, _⟩ := strands.appends
    cases here.symm.trans found
  | some a =>
    have step := (h.step here).adrift (h.pointed ref)
    have before := forall_mem_iff here fun b => ¬ b.Drops ref
    have after := forall_mem_set_iff here (a.act t.now cs.store).1 fun b => ¬ b.Drops ref
    constructor
    · rintro ⟨points, absent, kept⟩
      obtain ⟨own, others⟩ := after.mp kept
      obtain ⟨either, absent', own'⟩ := step.mp ⟨points, absent, own⟩
      have kept' := before.mpr ⟨own', others⟩
      exact either.imp (⟨·, absent', kept'⟩) (⟨⟨a, here, ·⟩, absent', kept'⟩)
    · intro either
      obtain ⟨brought, absent, kept⟩ : (cs.store.pointCount ref ≠ 0 ∨ a.Appends ref) ∧
          ¬ cs.store.Has ref ∧ ∀ b ∈ cs.activities, ¬ b.Drops ref := by
        rcases either with ⟨points, absent, kept⟩ | ⟨⟨b, found, appends⟩, absent, kept⟩
        · exact ⟨Or.inl points, absent, kept⟩
        · obtain rfl := Option.some.inj (here.symm.trans found)
          exact ⟨Or.inr appends, absent, kept⟩
      obtain ⟨own, others⟩ := before.mp kept
      obtain ⟨points, absent', own'⟩ := step.mpr ⟨brought, absent, own⟩
      exact ⟨points, absent', after.mpr ⟨own', others⟩⟩

/-- **All turns** set the points of a series adrift exactly if one of them strands them. -/
theorem play_adrift (h : cs.Sound) (schedule : List Turn) (ref : SeriesRef) :
    (cs.play schedule).Adrift ref ↔ cs.Adrift ref ∨ ∃ before t after,
      schedule = before ++ t :: after ∧ (cs.play before).Strands t ref := by
  induction schedule generalizing cs with
  | nil =>
    refine ⟨Or.inl, Or.rec id ?_⟩
    rintro ⟨before, t, after, split, _⟩
    cases before <;> cases split
  | cons t rest ih =>
    have later := ih (h.turn t)
    rw [h.turn_adrift t ref] at later
    refine later.trans ⟨?_, ?_⟩
    · rintro ((old | now) | ⟨before, t', after, rfl, strands⟩)
      · exact Or.inl old
      · exact Or.inr ⟨[], t, rest, rfl, now⟩
      · exact Or.inr ⟨t :: before, t', after, rfl, strands⟩
    · rintro (old | ⟨before, t', after, split, strands⟩)
      · exact Or.inl (Or.inl old)
      · cases before with
        | nil =>
          obtain ⟨rfl, rfl⟩ := List.cons.inj split
          exact Or.inl (Or.inr strands)
        | cons first before =>
          obtain ⟨rfl, rfl⟩ := List.cons.inj split
          exact Or.inr ⟨before, t', after, rfl, strands⟩

/-- Calls that were just made on a consistent store. -/
theorem begin {s : Store} (consistent : s.Consistent) {calls : List (Call × Expiry)}
    (keeps : ∀ call ∈ calls, call.1 ≠ .clear)
    (room : s.lastId.toNat + (calls.map fun call => (Activity.begin call).idsLeft).sum <
      0x10000000000000000) :
    (Concurrent.begin s calls).Sound ∧ ∀ ref, ¬ (Concurrent.begin s calls).Adrift ref := by
  have owned : ∀ ref, s.pointCount ref ≠ 0 → s.Has ref := by
    intro ref some
    cases points : s.points.get? ref with
    | none => simp [pointCount, points] at some
    | some values => exact consistent.owned ref values points
  refine ⟨⟨consistent.toIndexed, ?_, fun ref some => ?_, ?_, ?_⟩, fun ref adrift =>
    adrift.absent (owned ref adrift.points)⟩
  · show s.lastId.toNat + ((calls.map Activity.begin).map (·.idsLeft)).sum < _
    rwa [List.map_map]
  · obtain ⟨m, record, _⟩ := owned ref some
    exact (consistent.counted ref.id m record).2
  · refine List.forall_mem_map.mpr fun ⟨call, _⟩ _ ref appends => ?_
    cases call <;> exact appends.elim
  · refine List.forall_mem_map.mpr fun ⟨call, _⟩ inside same => ?_
    cases call with
    | clear => exact keeps _ inside rfl
    | _ => cases same

end Concurrent.Sound

/-! ## Calls return -/

namespace Activity

/-- How many turns a call needs at most. -/
def turnsLeft : Activity → Nat
  | .accessing _ _ _ => 3
  | .unregistering _ _ => 2
  | .creating c => max c.turnsLeft 1
  | .returned _ => 0
  | _ => 1

/-- A turn brings a call closer to its answer. -/
theorem act_turnsLeft (a : Activity) (now : UInt64) (s : Store) :
    (a.act now s).1.turnsLeft ≤ a.turnsLeft - 1 := by
  cases a with
  | accessing ref purpose expiry =>
    unfold act
    dsimp only
    cases s.access now ref with
    | live m => exact Nat.le_of_ble_eq_true rfl
    | unknown => exact Nat.zero_le _
    | expired m => rcases expiry with _ | ⟨_ | _⟩ <;> exact Nat.le_of_ble_eq_true rfl
  | serving ref purpose => cases purpose <;> exact Nat.le_refl 0
  | unregistering refs answer =>
    unfold act
    dsimp only
    cases (s.unregister refs).answer <;> exact Nat.le_of_ble_eq_true rfl
  | creating c =>
    have closer := c.act_turnsLeft now s
    unfold act
    dsimp only
    cases answered : (c.act now s).1.answer? with
    | some answer => exact Nat.zero_le _
    | none =>
      have pending : (c.act now s).1.turnsLeft ≠ 0 := fun done => by
        obtain ⟨answer, same⟩ := Creation.answered_of_turnsLeft done
        cases answered.symm.trans same
      simp only [turnsLeft]
      omega
  | _ => exact Nat.le_refl 0

theorem answered_of_turnsLeft {a : Activity} (done : a.turnsLeft = 0) : a.answer?.isSome := by
  cases a with
  | returned answer => rfl
  | creating c => exact absurd done (by simp only [turnsLeft]; omega)
  | _ => cases done

end Activity

/-- Each call comes closer to its answer with each of its turns. -/
theorem Concurrent.play_turnsLeft (cs : Concurrent) (schedule : List Turn) {i : Nat} {a : Activity}
    (here : cs.activities[i]? = some a) :
    ∃ a', (cs.play schedule).activities[i]? = some a' ∧
      a'.turnsLeft ≤ a.turnsLeft - schedule.countP (·.place = i) := by
  induction schedule generalizing cs a with
  | nil => exact ⟨a, here, Nat.le_refl _⟩
  | cons t rest ih =>
    rw [List.countP_cons]
    by_cases own : t.place = i
    · subst own
      have acted : (cs.turn t).activities[t.place]? = some (a.act t.now cs.store).1 := by
        obtain ⟨bound, rfl⟩ := List.getElem?_eq_some_iff.mp here
        simp [turn, bound]
      obtain ⟨a', here', left⟩ := ih (cs.turn t) acted
      refine ⟨a', here', ?_⟩
      have := a.act_turnsLeft t.now cs.store
      simp only [decide_true, if_true]
      omega
    · have kept : (cs.turn t).activities[i]? = some a := by
        unfold turn
        split
        · exact here
        · exact (List.getElem?_set_ne own).trans here
      obtain ⟨a', here', left⟩ := ih (cs.turn t) kept
      exact ⟨a', here', by simpa [own] using left⟩

theorem Concurrent.length_play (cs : Concurrent) (schedule : List Turn) :
    (cs.play schedule).activities.length = cs.activities.length := by
  induction schedule generalizing cs with
  | nil => rfl
  | cons t rest ih =>
    refine (ih (cs.turn t)).trans ?_
    unfold turn
    split
    · rfl
    · exact List.length_set

/-- Three turns are enough for each call. -/
theorem Concurrent.play_returned (s : Store) (calls : List (Call × Expiry)) {schedule : List Turn}
    (enough : ∀ i < calls.length, 3 ≤ schedule.countP (·.place = i)) :
    ((begin s calls).play schedule).Returned := by
  intro a inside
  obtain ⟨i, found⟩ := List.mem_iff_getElem?.mp inside
  have bound : i < calls.length := by
    have := (List.getElem?_eq_some_iff.mp found).1
    rwa [length_play, show (begin s calls).activities = calls.map .begin from rfl,
      List.length_map] at this
  have begun : (begin s calls).activities[i]? = some (.begin calls[i]) := by
    simp [begin, bound]
  obtain ⟨a', found', left⟩ := play_turnsLeft _ schedule begun
  obtain rfl := Option.some.inj (found.symm.trans found')
  have most : (Activity.begin calls[i]).turnsLeft ≤ 3 := by
    obtain ⟨call, expiry⟩ := calls[i]
    cases call <;> exact Nat.le_of_ble_eq_true rfl
  have := enough i bound
  exact Activity.answered_of_turnsLeft (by omega)

end Memory

open Memory in
/-- **Points without a series.**  On a store that a deployment reached before its counter of ids
overflowed, any calls but clearings take turns in any order, whoever deletes what they find expired.
Three turns are enough for each of them.  Once all have returned, points are stored of a series that
is not there exactly if a write appended them when its series was already deleted, and no deletion
was about to remove them. -/
theorem play_orphans_iff {start : Deployment} (fresh : ∀ store ∈ start.stores, store = .empty)
    (events : List Event) {place : Nat} {s : Store} {link : Option Link}
    (here : (start.run events).2.participants[place]? = some ⟨.memory s, link⟩)
    (calls : List (Call × Expiry)) (keeps : ∀ call ∈ calls, call.1 ≠ .clear)
    (room : createdSinceClear place (start.run events).1 +
      (calls.map fun call => (Activity.begin call).idsLeft).sum < 0x10000000000000000)
    (schedule : List Turn) :
    let cs := Concurrent.begin s calls
    ((∀ i < calls.length, 3 ≤ schedule.countP (·.place = i)) → (cs.play schedule).Returned) ∧
    ((cs.play schedule).Returned → ∀ ref,
      ((cs.play schedule).store.pointCount ref ≠ 0 ∧ ¬ (cs.play schedule).store.Has ref ↔
        ∃ before t after, schedule = before ++ t :: after ∧ (cs.play before).Strands t ref)) := by
  obtain ⟨consistent, counted⟩ := Deployment.counted_run fresh events here (by omega)
  obtain ⟨sound, owned⟩ := Concurrent.Sound.begin consistent keeps (by rwa [counted])
  refine ⟨fun enough => Concurrent.play_returned s calls enough, fun returned ref => ?_⟩
  have adrift := sound.play_adrift schedule ref
  rw [or_iff_right (owned ref)] at adrift
  refine Iff.trans ⟨fun orphaned => ⟨orphaned.1, orphaned.2, fun a inside drops => ?_⟩,
    fun h => ⟨h.points, h.absent⟩⟩ adrift
  cases a with
  | dropping refs answer => cases returned _ inside
  | _ => exact drops.elim

/-- A series is created, and then written and deleted at the same time. -/
def orphaningCalls : List (Call × Memory.Expiry) :=
  [(.write ⟨⟨0⟩, ⟨1⟩⟩ .empty (fun _ _ => .zero) [5] [.ofUInt64 3], .own),
    (.delete [⟨⟨0⟩, ⟨1⟩⟩], .own)]

/-- The write finds its series before the deletion begins, and appends its point after the deletion
has removed those of the series. -/
def orphaningSchedule : List Memory.Turn := [⟨0, 0⟩, ⟨1, 0⟩, ⟨1, 0⟩, ⟨0, 0⟩]

/-- The store on which they are called. -/
def orphaningEvents : List Event :=
  [.call 0 ⟨⟨0⟩, .create (fun _ => default) [(⟨7⟩, ⟨⟨0⟩, "load", [], none⟩)]⟩]

open Memory in
/-- A turn of the write strands the point, and so it remains. -/
theorem play_orphans_iff_deleted :
    let run := (Deployment.ofBackends [.memory .empty] ⟨0⟩).run orphaningEvents
    ∃ s, run.2.stores = [s] ∧
      let cs := Concurrent.begin s orphaningCalls
      (cs.play orphaningSchedule).Returned ∧
        (cs.play orphaningSchedule).store.pointCount ⟨⟨0⟩, ⟨1⟩⟩ = 1 ∧
        ∃ before t after, orphaningSchedule = before ++ t :: after ∧
          (cs.play before).Strands t ⟨⟨0⟩, ⟨1⟩⟩ := by
  intro run
  have fresh : ∀ store ∈ (Deployment.ofBackends [.memory .empty] ⟨0⟩).stores, store = .empty :=
    fun store h => List.mem_singleton.mp h
  have here : run.2.participants[0]? =
      some ⟨.memory (Store.empty.createSeries 0 ⟨⟨0⟩, "load", [], none⟩), none⟩ := rfl
  obtain ⟨_, orphans⟩ := play_orphans_iff fresh orphaningEvents here orphaningCalls
    (by simp [orphaningCalls]) (by decide +kernel) orphaningSchedule
  have returned : ((Concurrent.begin (Store.empty.createSeries 0 ⟨⟨0⟩, "load", [], none⟩)
      orphaningCalls).play orphaningSchedule).Returned := by
    unfold Concurrent.Returned
    decide +kernel
  refine ⟨_, rfl, returned, by decide +kernel, (orphans returned _).mp ⟨by decide +kernel, ?_⟩⟩
  rintro ⟨m, record, _⟩
  have none : ((Concurrent.begin (Store.empty.createSeries 0 ⟨⟨0⟩, "load", [], none⟩)
      orphaningCalls).play orphaningSchedule).store.records.get? ⟨1⟩ = none := by decide +kernel
  cases none.symm.trans record

open Memory in
/-- Both calls succeed, and the point of the deleted series remains. -/
theorem play_orphans_deleted :
    let run := (Deployment.ofBackends [.memory .empty] ⟨0⟩).run orphaningEvents
    ∃ s, run.2.stores = [s] ∧
      let cs := (Concurrent.begin s orphaningCalls).play orphaningSchedule
      cs.activities.map (·.answer?) = [some (.ok .done), some (.ok .done)] ∧
        cs.store.pointCount ⟨⟨0⟩, ⟨1⟩⟩ = 1 ∧ cs.store.records.get? ⟨1⟩ = none := by
  intro run
  exact ⟨_, rfl, by decide +kernel, by decide +kernel, by decide +kernel⟩

end SeriesStorage
