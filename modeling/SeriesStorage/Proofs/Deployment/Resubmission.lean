import SeriesStorage.Proofs.Memory.BatchCreation
import SeriesStorage.Proofs.Remote.DistinctBatches
import SeriesStorage.Proofs.Remote.RunningClient

/-!
# Submitting again

Points are submitted by creating their series, which may be there already, and writing them to the
id that was answered.  A series that is there may have expired; then the write fails, and removes
it.  So a second attempt creates a new series under a new id, and succeeds
(`visit_converges`).

* `Submission.Recreates`: an attempt for a name that is not there creates a series and succeeds.
* `Submission.Converges`: the first attempt succeeds, or the second one recreates the series.
-/

namespace SeriesStorage

/-! ## Submissions -/

/-- A batch of points and the series that shall get them, submitted at one instant. -/
structure Submission where
  now : Instant
  mark : CreateMark
  input : SeriesInput
  times : List UInt64
  values : List Binary64

/-- What chance decides about an attempt. -/
structure Attempt where
  chances : LockChances
  draws : Draws

namespace Submission

def ref (sub : Submission) (id : SeriesId) : SeriesRef := ⟨sub.input.ns, id⟩

/-- The descriptor that the series gets with an id. -/
def describe (sub : Submission) (id : SeriesId) : SeriesMetadata :=
  sub.input.describe id sub.now.seconds

/-- Finds or creates the series. -/
def create (sub : Submission) (attempt : Attempt) : Visit :=
  ⟨sub.now, .create attempt.chances [(sub.mark, sub.input)]⟩

/-- Writes the points to the series of an id, without waiting for a flush. -/
def write (sub : Submission) (attempt : Attempt) (id : SeriesId) : Visit :=
  ⟨sub.now, .write (sub.ref id) .empty attempt.draws sub.times sub.values⟩

end Submission

/-- The descriptor that the first backend has for a series, whatever is in a cache. -/
def Deployment.record (d : Deployment) (ref : SeriesRef) :
    Except Error (Option SeriesMetadata) :=
  (d.onBackend 0 (fun s => .succeed (s.records.get? ref.id) s)
    (do Remote.loadMetadata (← Remote.connected) ref)).answer

/-- Since everything was cleared, or from the first visit on if nothing was, there was a series with
this id. -/
def Deployment.Had (d : Deployment) (vs : List Visit) (ref : SeriesRef) : Prop :=
  ∃ before after m, vs = before ++ after ∧ (∀ v ∈ after, v.call ≠ .clear) ∧
    (d.visits before).2.record ref = .ok (some m)

/-- An attempt creates a new series with an id, and its points are accepted. -/
structure Submission.Recreates (sub : Submission) (d : Deployment) (attempt : Attempt)
    (id : SeriesId) : Prop where
  created : (d.visit (sub.create attempt)).answer = .ok (.created [⟨sub.mark, id, true⟩])
  recorded : (d.visit (sub.create attempt)).state.record (sub.ref id) =
    .ok (some (sub.describe id))
  written : ((d.visit (sub.create attempt)).state.visit (sub.write attempt id)).answer = .ok .done

/-- An attempt after some visits succeeds, or finds the series expired.  Then another attempt
creates a new one, with an id that no series had since everything was cleared, and succeeds. -/
def Submission.Converges (sub : Submission) (start : Deployment) (vs : List Visit)
    (attempt again : Attempt) : Prop :=
  let d := (start.visits vs).2
  ∃ id isNew, (d.visit (sub.create attempt)).answer = .ok (.created [⟨sub.mark, id, isNew⟩]) ∧
    let written := (d.visit (sub.create attempt)).state.visit (sub.write attempt id)
    written.answer = .ok .done ∨
      (isNew = false ∧ written.answer = .error .seriesExpired ∧
        ∃ id', ¬ start.Had (vs ++ [sub.create attempt, sub.write attempt id]) (sub.ref id') ∧
          sub.Recreates written.state again id')

/-- A series is not expired at the instant of its creation, if the clock has room for its time to
live. -/
theorem SeriesInput.isExpired_describe (input : SeriesInput) (id : SeriesId) {now : UInt64}
    (fits : now.toNat + 0xffffffff < 0x10000000000000000) :
    (input.describe id now).isExpired now = false := by
  refine Bool.eq_false_iff.mpr fun expired => ?_
  obtain ⟨last, expires, before⟩ := (SeriesMetadata.isExpired_iff _ _).mp expired
  obtain ⟨ttl, _, rfl⟩ := Option.map_eq_some_iff.mp expires
  have small := ttl.toNat_lt
  rw [UInt64.lt_iff_toNat_lt, UInt64.toNat_add, UInt32.toNat_toUInt64] at before
  omega

/-! ## In memory -/

namespace Memory.Store

variable {s : Store}

/-- A name is found, or its series is created. -/
theorem Linked.visit_create (h : s.Linked) (sub : Submission) (attempt : Attempt) :
    (∃ id, s.names.get? (sub.input.ns, sub.input.name) = some id ∧
        s.visit (sub.create attempt) = .succeed (.created [⟨sub.mark, id, false⟩]) s) ∨
      (s.names.get? (sub.input.ns, sub.input.name) = none ∧
        s.visit (sub.create attempt) = .succeed (.created [⟨sub.mark, s.nextId, true⟩])
          (s.createSeries sub.now.seconds sub.input)) := by
  obtain ⟨rows, all, s', created, inserts, perm⟩ :=
    h.create sub.now.seconds [(sub.mark, sub.input)]
  have visited : s.visit (sub.create attempt) = .succeed (.created rows) s' := by
    show (s.create sub.now.seconds [(sub.mark, sub.input)]).map Answer.created = _
    rw [created]
    rfl
  rw [visited]
  cases inserts with
  | found named rest =>
    cases rest
    rw [List.perm_singleton.mp perm]
    exact Or.inl ⟨_, named, rfl⟩
  | created absent rest =>
    cases rest
    rw [List.perm_singleton.mp perm]
    exact Or.inr ⟨absent, rfl⟩

/-- Points are written to a series that is there, unless it has expired. -/
theorem visit_write_cases (sub : Submission) (attempt : Attempt) {id : SeriesId}
    {m : SeriesMetadata} (record : s.records.get? id = some m) (owner : m.ns = sub.input.ns) :
    (m.isExpired sub.now.seconds = true ∧
        s.visit (sub.write attempt id) = .fail .seriesExpired (s.without [sub.ref id])) ∨
      ∃ left, s.visit (sub.write attempt id) = .succeed .done left := by
  unfold Submission.write
  rw [visit_write]
  obtain ⟨missing, _⟩ | ⟨m', record', _, ⟨expired, failed⟩ | ⟨_, acted⟩⟩ :=
    s.guarded_cases sub.now.seconds (sub.ref id) (.succeed Answer.done
      (s.append (sub.ref id) (keyedValues attempt.draws sub.times sub.values)))
  · exact absurd ⟨m, record, owner⟩ missing
  · obtain rfl := Option.some.inj (record.symm.trans record')
    exact Or.inl ⟨expired, failed⟩
  · exact Or.inr ⟨_, acted⟩

/-- **A name that is not there** gets a series, which accepts its points. -/
theorem Linked.recreates (h : s.Linked) {sub : Submission}
    (fits : sub.now.seconds.toNat + 0xffffffff < 0x10000000000000000)
    (absent : s.names.get? (sub.input.ns, sub.input.name) = none) (stage : Server.Stage)
    (last : Instant) (attempt : Attempt) :
    sub.Recreates (.lone (.memory s) stage last) attempt s.nextId := by
  obtain ⟨id, named, _⟩ | ⟨_, visited⟩ := h.visit_create sub attempt
  · cases absent.symm.trans named
  · have record : (s.createSeries sub.now.seconds sub.input).records.get? s.nextId =
        some (sub.describe s.nextId) := by
      rw [records_createSeries, Table.get?_insert, if_pos rfl]
      rfl
    have after : (Deployment.lone (.memory s) stage last).visit (sub.create attempt) =
        .succeed (.created [⟨sub.mark, s.nextId, true⟩])
          (.lone (.memory (s.createSeries sub.now.seconds sub.input)) stage sub.now) := by
      rw [Deployment.visit_lone_memory, visited]
      rfl
    constructor
    · rw [after]
      rfl
    · rw [after]
      exact congrArg Except.ok record
    · rw [after, Outcome.state_succeed, Deployment.visit_lone_memory]
      obtain ⟨expired, _⟩ | ⟨left, written⟩ := visit_write_cases sub attempt record rfl
      · exact absurd ((sub.input.isExpired_describe s.nextId fits).symm.trans expired) nofun
      · rw [written]
        rfl

/-! ### Any visits -/

/-- An id beyond the counter had no series since the store was cleared. -/
theorem not_had {vs : List Visit} {ref : SeriesRef}
    (room : (empty.visits vs).1.foldl recount 0 < 0x10000000000000000)
    (beyond : (empty.visits vs).2.lastId.toNat < ref.id.number.toNat) (start : Instant) :
    ¬ (Deployment.ofBackends [.memory empty] start).Had vs ref := by
  rintro ⟨before, after, m, rfl, keeps, record⟩
  obtain ⟨_, counted⟩ := counted_empty.visits (before ++ after) room
  rw [visits_append, List.foldl_append] at room counted
  rw [visits_append] at beyond
  have grown := le_recount (empty.visits before).2 after keeps
    ((empty.visits before).1.foldl recount 0)
  obtain ⟨consistent, counted'⟩ := counted_empty.visits before (by omega)
  obtain ⟨last, run⟩ := Deployment.visits_lone_memory empty ⟨[], [], []⟩ start before
  change (Deployment.ofBackends [.memory empty] start).visits before = _ at run
  rw [run] at record
  have inside : (empty.visits before).2.records.get? ref.id = some m := Except.ok.inj record
  have within := (consistent.counted ref.id m inside).2
  dsimp only at beyond counted
  omega

/-- **Submissions to a store converge.** -/
theorem converges (start : Instant) (vs : List Visit) {sub : Submission}
    (fits : sub.now.seconds.toNat + 0xffffffff < 0x10000000000000000)
    (room : (empty.visits vs).1.foldl recount 0 + 1 < 0x10000000000000000)
    (attempt again : Attempt) :
    sub.Converges (.ofBackends [.memory empty] start) vs attempt again := by
  obtain ⟨consistent, counted⟩ := counted_empty.visits vs (by omega)
  obtain ⟨last, run⟩ := Deployment.visits_lone_memory empty ⟨[], [], []⟩ start vs
  change (Deployment.ofBackends [.memory empty] start).visits vs = _ at run
  generalize reached : empty.visits vs = result at consistent counted run room
  obtain ⟨trace, s⟩ := result
  dsimp only at consistent counted run room
  unfold Submission.Converges
  rw [run]
  obtain ⟨id, named, found⟩ | ⟨absent, _⟩ := consistent.linked.visit_create sub attempt
  · obtain ⟨m, record, owner, _⟩ := consistent.named _ _ id named
    have after : (Deployment.lone (.memory s) ⟨[], [], []⟩ last).visit (sub.create attempt) =
        .succeed (.created [⟨sub.mark, id, false⟩]) (.lone (.memory s) ⟨[], [], []⟩ sub.now) := by
      rw [Deployment.visit_lone_memory, found]
      rfl
    refine ⟨id, false, ?_, ?_⟩
    all_goals dsimp only; rw [after]
    · rfl
    · rw [Outcome.state_succeed, Deployment.visit_lone_memory]
      obtain ⟨_, failed⟩ | ⟨left, written⟩ := visit_write_cases sub attempt record owner
      · -- the name went with the series, and the counter stayed
        have has : ∀ ref ∈ [sub.ref id], s.Has ref :=
          List.forall_mem_singleton.mpr ⟨m, record, owner⟩
        have left := consistent.without has
        have absent : (s.without [sub.ref id]).names.get? (sub.input.ns, sub.input.name) =
            none := by
          rw [consistent.names_without, if_pos ⟨sub.ref id, List.mem_singleton_self _, named⟩]
        have rest : s.visits [sub.create attempt, sub.write attempt id] =
            ([(sub.create attempt, .ok (.created [⟨sub.mark, id, false⟩])),
              (sub.write attempt id, .error .seriesExpired)], s.without [sub.ref id]) := by
          simp only [visits, found, failed, Outcome.state_succeed, Outcome.answer_succeed,
            Outcome.state_fail, Outcome.answer_fail]
        have total : (empty.visits (vs ++ [sub.create attempt, sub.write attempt id])).1.foldl
            recount 0 = trace.foldl recount 0 := by
          rw [visits_append, reached, rest, List.foldl_append]
          rfl
        have next := nextId_toNat (s := s.without [sub.ref id]) (by rw [lastId_without]; omega)
        rw [failed]
        refine Or.inr ⟨rfl, rfl, _, not_had (by omega) ?_ start,
          left.linked.recreates fits absent _ _ again⟩
        rw [visits_append, reached, rest]
        exact Nat.lt_of_lt_of_eq (Nat.lt_succ_self _) next.symm
      · rw [written]
        exact Or.inl rfl
  · obtain ⟨created, _, written⟩ :=
      consistent.linked.recreates fits absent ⟨[], [], []⟩ last attempt
    exact ⟨s.nextId, true, created, Or.inl written⟩

end Memory.Store

/-! ## On servers -/

theorem Deployment.SeenAs.record {d : Deployment} {site : Remote.Site Server.Network}
    (h : d.SeenAs site) (ref : SeriesRef) : d.record ref =
      (site.outcome (do Remote.loadMetadata (← Remote.connected) ref)).answer := by
  obtain ⟨site, last, rfl, calm, rfl⟩ := h
  obtain ⟨same, _⟩ := site.outcome_network calm (do Remote.loadMetadata (← Remote.connected) ref)
  exact congrArg Outcome.answer same

/-- A server refused a command. -/
def CommandRefused (answer : Except Error Answer) : Prop :=
  ∃ text, answer = .error (.redis (.refused text))

namespace Remote

open Server (Network Node)

variable {connections : Connections} {cats : Catalogues}
  {given : SeriesRef → AcceptedPoint → Prop} {site : Site Network} {sub : Submission}

/-- A namespace that has a connection is reached. -/
theorem Linked.reaches (h : Linked connections site) {ns : Namespace} {c : Connection}
    (route : connections.route ns = .ok c) : ∃ node, Reaches site connections ns c node := by
  obtain ⟨n, inside, _⟩ := exists_own_of_route route
  obtain ⟨node, found⟩ := h.there (n, c) inside
  exact ⟨node, route, found⟩

/-- A descriptor is what the catalogue has. -/
theorem Running.record (h : Running connections cats given site) {ns : Namespace} {c : Connection}
    (route : connections.route ns = .ok c) (id : SeriesId) :
    site.outcome (do loadMetadata (← connected) ⟨ns, id⟩) =
      .succeed ((cats ns).records id) site := by
  obtain ⟨node, reaches⟩ := h.reaches route
  rw [Site.outcome_bind, Site.outcome_connected h.own, Outcome.andThen_succeed,
    reaches.loadMetadata (h.here h.own reaches).2]

/-- A name is found, or its series enters the catalogue, or no id is left for it. -/
theorem Running.visit_create (h : Running connections cats given site) {c : Connection}
    (route : connections.route sub.input.ns = .ok c) (attempt : Attempt) :
    (∃ id, (cats sub.input.ns).names sub.input.name = some id ∧
        site.visit (sub.create attempt) = .succeed (.created [⟨sub.mark, id, false⟩]) site) ∨
      (∃ left, (cats sub.input.ns).names sub.input.name = none ∧
        (cats sub.input.ns).lastId < maxInt64 ∧
        site.visit (sub.create attempt) =
          .succeed (.created [⟨sub.mark, (cats sub.input.ns).nextId, true⟩]) left ∧
        Running connections (cats.enter sub.input sub.now.seconds) given left) ∨
      CommandRefused (site.visit (sub.create attempt)).answer := by
  have visited : site.visit (sub.create attempt) =
      (site.outcome (createOne connections sub.now.seconds (attempt.chances 0) sub.input)).map
        fun made => .created [⟨sub.mark, made.1, made.2⟩] := by
    show site.outcome (Answer.created <$>
      create sub.now.seconds attempt.chances [(sub.mark, sub.input)]) = _
    unfold create
    rw [Site.outcome_map, Site.outcome_bind, Site.outcome_connected h.own,
      Outcome.andThen_succeed]
    unfold createFrom
    rw [Site.outcome_bind, Outcome.map_andThen, Outcome.map_eq_andThen]
    rfl
  have linked : Linked connections (site.visit (sub.create attempt)).state :=
    Linked.perform sub.now.seconds (.create attempt.chances [(sub.mark, sub.input)]) site h.toLinked
  obtain ⟨node, reaches⟩ := h.reaches route
  obtain ⟨unlocked, holds⟩ := h.here h.own reaches
  have result := reaches.createOne holds (h.wellFormed sub.input.ns) unlocked sub.now.seconds
    (attempt.chances 0)
  generalize site.outcome (Remote.createOne connections sub.now.seconds (attempt.chances 0)
    sub.input) = outcome at result visited
  cases result with
  | found named => exact Or.inl ⟨_, named, visited⟩
  | created absent room holds' confined =>
    have entered := h.toCurated.enter h.own reaches absent room holds' confined
    rw [visited] at linked
    refine Or.inr (Or.inl ⟨_, absent, room, visited, ⟨entered, linked, fun ref p old => ?_⟩⟩)
    have spent := h.known ref p old
    exact ⟨spent.1, Nat.le_trans spent.2
      ((Issues.entered sub.input sub.now.seconds room).grown ref.ns)⟩
  | refused =>
    rw [visited]
    exact Or.inr (Or.inr ⟨_, rfl⟩)

/-- Points are written to a series that is there, unless it has expired. -/
theorem Running.visit_write_cases (h : Running connections cats given site) (attempt : Attempt)
    (exact : ∀ p ∈ sub.times.zip sub.values, p.1.toNat ≤ 0x20000000000000)
    (distinct : (readBack (sub.times.zip sub.values)).Nodup) {id : SeriesId} {m : SeriesMetadata}
    (record : (cats sub.input.ns).records id = some m)
    (lacks : ∀ c node, Reaches site connections sub.input.ns c node →
      Lacks node.keyspace (sub.ref id) attempt.draws (sub.times.zip sub.values)) :
    (m.isExpired sub.now.seconds = true ∧ ∃ cats' left,
        site.visit (sub.write attempt id) = .fail .seriesExpired left ∧
        Running connections cats' given left ∧ Drops cats cats' (· ∈ [sub.ref id])) ∨
      (site.visit (sub.write attempt id)).answer = .ok .done := by
  have linked : Linked connections (site.visit (sub.write attempt id)).state :=
    Linked.perform sub.now.seconds
      (.write (sub.ref id) .empty attempt.draws sub.times sub.values) site h.toLinked
  unfold Submission.write at linked ⊢
  rw [Site.visit_write] at linked ⊢
  obtain ⟨unused, _⟩ | ⟨absent, _⟩ | ⟨m', cats', left, record', expired, failed, kept, drops⟩ |
    ⟨_, c, node, m', record', _, own, reaches, kept, ran⟩ :=
    h.guarded_cases sub.now.seconds (sub.ref id) fun m =>
      (fun _ => Answer.done) <$> append (sub.ref id).ns .empty m attempt.draws sub.times sub.values
  · have counted := ((h.wellFormed sub.input.ns).counted id m record)
    change (cats sub.input.ns).lastId = 0 at unused
    omega
  · exact absurd ⟨m, record⟩ absent
  · obtain rfl := Option.some.inj (record.symm.trans record')
    rw [failed] at linked
    refine Or.inl ⟨expired, cats', left, failed, ⟨kept, linked, fun ref p old => ?_⟩, drops⟩
    have spent := h.known ref p old
    exact ⟨spent.1, (drops.lastId ref.ns).symm ▸ spent.2⟩
  · obtain rfl := Option.some.inj (h.own.symm.trans own)
    have same : m'.ref = sub.ref id := h.described record'
    have there := reaches.remember (sub.ref id) (some m')
    have sets : ∀ bucket, ∃ scores,
        node.keyspace.sortedSet? (Key.data m'.ref bucket) = .ok scores := fun bucket =>
      (kept.sourced own there m'.ref bucket).imp fun _ held => held.1
    have direct : RequestId.empty.isEmpty = true := rfl
    obtain ⟨ks, stored⟩ := there.append_distinct own direct sets exact distinct
      (same.symm ▸ lacks c node reaches)
    rw [ran, Site.outcome_map, stored]
    exact Or.inr rfl

/-- Where no points were handed in for a series, no set has any of them. -/
theorem HoldsGiven.lacks {ks : Server.Keyspace} (h : HoldsGiven given ks) {ref : SeriesRef}
    (none : ∀ p, ¬ given ref p) (draws : Draws) (batch : List (UInt64 × Binary64)) :
    Lacks ks ref draws batch := by
  intro stored _ p _ scores found
  obtain ⟨scores', found', sourced⟩ := h ref p.bucket
  obtain rfl := Except.ok.inj (found.symm.trans found')
  cases inside : scores.get? p.member with
  | none => rfl
  | some score =>
    obtain ⟨q, handed, _⟩ := sourced _ (Table.mem_of_get? inside)
    exact absurd handed (none q)

/-- **A name that is not there** gets a series, which accepts its points. -/
theorem Running.recreates (h : Running connections cats given site) {d : Deployment}
    (seen : d.SeenAs site) {c : Connection} (route : connections.route sub.input.ns = .ok c)
    (fits : sub.now.seconds.toNat + 0xffffffff < 0x10000000000000000)
    (exact : ∀ p ∈ sub.times.zip sub.values, p.1.toNat ≤ 0x20000000000000)
    (distinct : (readBack (sub.times.zip sub.values)).Nodup)
    (absent : (cats sub.input.ns).names sub.input.name = none) {attempt : Attempt}
    (accepted : ¬ CommandRefused (d.visit (sub.create attempt)).answer) :
    sub.Recreates d attempt (cats sub.input.ns).nextId := by
  obtain ⟨answer, seen'⟩ := seen.visit (sub.create attempt)
  rw [answer] at accepted
  obtain ⟨id, named, _⟩ | ⟨left, _, room, visited, running⟩ | refused :=
    h.visit_create route attempt
  · cases absent.symm.trans named
  · have next := Catalogue.nextId_toNat room
    have record : (cats.enter sub.input sub.now.seconds sub.input.ns).records
        (cats sub.input.ns).nextId = some (sub.describe (cats sub.input.ns).nextId) := by
      rw [Catalogues.records_enter cats sub.input sub.now.seconds
        ⟨sub.input.ns, (cats sub.input.ns).nextId⟩, if_pos rfl]
      rfl
    have unused : ∀ p, ¬ given (sub.ref (cats sub.input.ns).nextId) p := fun p handed => by
      have spent : (cats sub.input.ns).nextId.number.toNat ≤ (cats sub.input.ns).lastId :=
        (h.known _ p handed).2
      omega
    rw [visited] at seen'
    refine ⟨by rw [answer, visited]; rfl, ?_, ?_⟩
    · rw [seen'.record]
      exact (congrArg Outcome.answer (running.record route _)).trans (congrArg Except.ok record)
    · rw [(seen'.visit _).1]
      obtain ⟨expired, _⟩ | written := running.visit_write_cases attempt exact distinct record
        fun c node there => (running.sourced running.own there).lacks unused _ _
      · exact absurd ((sub.input.isExpired_describe _ fits).symm.trans expired) nofun
      · exact written
  · exact absurd refused accepted

/-- The name of a series that was dropped is not there. -/
theorem Drops.names_eq_none {cats' : Catalogues} {ns : Namespace} {n : String} {id : SeriesId}
    (drops : Drops cats cats' (· ∈ [(⟨ns, id⟩ : SeriesRef)])) (wf : (cats ns).WellFormed ns)
    (wf' : (cats' ns).WellFormed ns) (named : (cats ns).names n = some id) :
    (cats' ns).names n = none := by
  cases still : (cats' ns).names n with
  | none => rfl
  | some id' =>
    obtain ⟨m, record, rfl⟩ := wf'.named n id' still
    have has : cats'.Has ⟨ns, id'⟩ := ⟨m, record⟩
    have stays := (drops.left has).2
    have before := (wf.described id' m ((drops.kept ⟨ns, id'⟩ stays).symm.trans record)).2.2
    obtain rfl := Option.some.inj (named.symm.trans before)
    exact absurd (List.mem_singleton_self _) stays

/-- What a visit creates was not there before, unless everything was cleared in between. -/
theorem Running.not_has (h : Running connections cats given site) {vs : List Visit}
    (marked : ∀ v ∈ vs, v.call.Marked) (keeps : ∀ v ∈ vs, v.call ≠ .clear) {v : Visit}
    (marked' : v.call.Marked) (keeps' : v.call ≠ .clear) {ref : SeriesRef}
    (issued : ref ∈ issuedBy (v, ((site.visits vs).2.visit v).answer)) : ¬ cats.Has ref := by
  intro has
  obtain ⟨mid, given', running, history⟩ := h.visits vs marked
  obtain ⟨_, _, _, step⟩ := running.step v marked' keeps'
  exact (step.unspent ref issued).1 ((history keeps).spends (h.spent ref has))

section AnyVisits

variable {options : Options} {stage : Server.Stage} {start first : Instant} {vs : List Visit}

/-- What a visit creates had no series since everything was cleared. -/
theorem not_had (calm : stage.Calm) (empty : ∀ r ∈ stage.servers, r.keyspace = .empty)
    (connected : ((Deployment.lone (.remote (.ofOptions options)) stage start).visit
      ⟨first, .connect⟩).answer = .ok .done)
    (marked : ∀ v ∈ vs, v.call.Marked) {v : Visit} (marked' : v.call.Marked)
    (keeps' : v.call ≠ .clear) {ref : SeriesRef}
    (issued : ref ∈ issuedBy (v, (((Deployment.lone (.remote (.ofOptions options)) stage
      start).visits (⟨first, .connect⟩ :: vs)).2.visit v).answer)) :
    ¬ (Deployment.lone (.remote (.ofOptions options)) stage start).Had
      (⟨first, .connect⟩ :: vs) ref := by
  rintro ⟨before, after, m, split, keeps, record⟩
  cases before with
  | nil =>
    -- before it has connected the client finds no descriptor
    have seen : (Deployment.lone (.remote (.ofOptions options)) stage start).SeenAs
        ⟨.ofOptions options, stage.network⟩ := ⟨⟨.ofOptions options, stage⟩, start, rfl, calm, rfl⟩
    have found := (seen.record ref).symm.trans record
    rw [Site.outcome_bind, Site.outcome_connected_none rfl] at found
    cases found
  | cons w before =>
    rw [split, Deployment.visits_append] at issued
    obtain ⟨rfl, rfl⟩ := List.cons.inj split
    obtain ⟨site, connections, cats, given, seen, _, running⟩ := running_visits calm empty connected
      before fun v hv => marked v (List.mem_append_left _ hv)
    have has : cats.Has ref := by
      have found := (seen.record ref).symm.trans record
      rw [Site.outcome_bind, Site.outcome_connected running.own, Outcome.andThen_succeed] at found
      exact ⟨m, running.record_of_loaded running.own found⟩
    rw [((seen.visits after).visit v).1] at issued
    exact running.not_has (fun v hv => marked v (List.mem_append_right _ hv)) keeps marked' keeps'
      issued has

/-- **Submissions to servers converge.** -/
theorem converges (calm : stage.Calm) (empty : ∀ r ∈ stage.servers, r.keyspace = .empty)
    (connected : ((Deployment.lone (.remote (.ofOptions options)) stage start).visit
      ⟨first, .connect⟩).answer = .ok .done)
    (marked : ∀ v ∈ vs, v.call.Marked) {sub : Submission}
    (served : ∃ entry ∈ options.connections,
      entry.1 = sub.input.ns ∨ entry.1 = defaultNamespace)
    (fits : sub.now.seconds.toNat + 0xffffffff < 0x10000000000000000)
    (exact : ∀ p ∈ sub.times.zip sub.values, p.1.toNat ≤ 0x20000000000000)
    (distinct : (readBack (sub.times.zip sub.values)).Nodup) {attempt again : Attempt} :
    let client := Deployment.lone (.remote (.ofOptions options)) stage start
    let d := (client.visits (⟨first, .connect⟩ :: vs)).2
    let created := d.visit (sub.create attempt)
    ¬ CommandRefused created.answer →
    (∀ id, created.answer = .ok (.created [⟨sub.mark, id, false⟩]) →
      (∀ r ∈ created.state.stage.servers,
        Lacks r.keyspace (sub.ref id) attempt.draws (sub.times.zip sub.values)) ∧
      ¬ CommandRefused ((created.state.visit (sub.write attempt id)).state.visit
        (sub.create again)).answer) →
    sub.Converges client (⟨first, .connect⟩ :: vs) attempt again := by
  intro client d created accepted found
  obtain ⟨site, connections, cats, given, seen, named, running⟩ :=
    running_visits calm empty connected vs marked
  obtain ⟨c, route⟩ : ∃ c, connections.route sub.input.ns = .ok c := by
    refine exists_route ?_
    obtain ⟨entry, inside, which⟩ := served
    exact ⟨entry.1, named ▸ List.mem_map_of_mem inside, which⟩
  change d.SeenAs site at seen
  obtain ⟨answer, seen'⟩ := seen.visit (sub.create attempt)
  obtain ⟨id, name, visited⟩ | ⟨_, absent, _, _, _⟩ | refused := running.visit_create route attempt
  · rw [visited] at answer seen'
    change created.answer = .ok (.created [⟨sub.mark, id, false⟩]) at answer
    change created.state.SeenAs site at seen'
    obtain ⟨lacks, accepted'⟩ := found id answer
    obtain ⟨m, record, _⟩ := (running.wellFormed sub.input.ns).named _ id name
    obtain ⟨answer', seen''⟩ := seen'.visit (sub.write attempt id)
    have free : ∀ c node, Reaches site connections sub.input.ns c node →
        Lacks node.keyspace (sub.ref id) attempt.draws (sub.times.zip sub.values) := by
      intro c node there
      obtain ⟨r, inside, same⟩ := seen'.keyspace there.node
      exact same ▸ lacks r inside
    refine ⟨id, false, answer, ?_⟩
    obtain ⟨_, cats', left, failed, running', drops⟩ | written :=
      running.visit_write_cases attempt exact distinct record free
    · -- the name went with the series
      rw [failed] at answer' seen''
      have absent := drops.names_eq_none (running.wellFormed _) (running'.wellFormed _) name
      have recreated := running'.recreates seen'' route fits exact distinct absent accepted'
      refine Or.inr ⟨rfl, answer', _, ?_, recreated⟩
      have marked' : ∀ v ∈ vs ++ [sub.create attempt, sub.write attempt id], v.call.Marked := by
        simpa [or_imp, forall_and, Submission.create, Submission.write, Call.Marked] using marked
      refine not_had calm empty connected marked' (v := sub.create again)
        (by simp [Submission.create, Call.Marked]) nofun ?_
      rw [← List.cons_append, Deployment.visits_append]
      show _ ∈ issuedBy (_, ((created.state.visit (sub.write attempt id)).state.visit
        (sub.create again)).answer)
      rw [recreated.created]
      simp [Submission.create, issuedBy, CreateBatch.nsOf, Submission.ref]
    · exact Or.inl (answer'.trans written)
  · obtain ⟨made, _, written⟩ :=
      running.recreates seen route fits exact distinct absent accepted
    exact ⟨_, true, made, Or.inl written⟩
  · exact absurd (answer ▸ refused) accepted

end AnyVisits

end Remote

/-! ## Any visits -/

/-- **Submissions converge.**  After any visits, to a store that was empty at first or to a client
that has connected to empty servers, a submission is attempted: its series is created or found, and
its points are written to the id that was answered.  The points are accepted, or the series that was
found has expired; then another attempt at the same instant creates a new series, with the tags and
the time to live of the submission and an id that no series had since everything was cleared, and
its points are accepted.

The clock has room for a time to live, and a store for one more id.  On servers no creation is
refused, the points are without repetitions (not-a-numbers are all the same) and of timestamps that
a double holds exactly, and none of them is stored yet for a series that is found. -/
theorem visit_converges (start : Instant) (vs : List Visit) (sub : Submission)
    (attempt again : Attempt)
    (fits : sub.now.seconds.toNat + 0xffffffff < 0x10000000000000000) :
    (let store := Deployment.ofBackends [.memory .empty] start
     (store.visits vs).1.foldl recount 0 + 1 < 0x10000000000000000 →
      sub.Converges store vs attempt again) ∧
    ∀ (options : Remote.Options) (stage : Server.Stage) (first : Instant),
      let client := Deployment.lone (.remote (.ofOptions options)) stage start
      stage.Calm → (∀ r ∈ stage.servers, r.keyspace = .empty) →
      (client.visit ⟨first, .connect⟩).answer = .ok .done → (∀ v ∈ vs, v.call.Marked) →
      (∃ entry ∈ options.connections,
        entry.1 = sub.input.ns ∨ entry.1 = Remote.defaultNamespace) →
      (∀ p ∈ sub.times.zip sub.values, p.1.toNat ≤ 0x20000000000000) →
      (Remote.readBack (sub.times.zip sub.values)).Nodup →
      let visits := ⟨first, .connect⟩ :: vs
      let created := (client.visits visits).2.visit (sub.create attempt)
      ¬ CommandRefused created.answer →
      (∀ id, created.answer = .ok (.created [⟨sub.mark, id, false⟩]) →
        (∀ r ∈ created.state.stage.servers,
          Remote.Lacks r.keyspace (sub.ref id) attempt.draws (sub.times.zip sub.values)) ∧
        ¬ CommandRefused ((created.state.visit (sub.write attempt id)).state.visit
          (sub.create again)).answer) →
      sub.Converges client visits attempt again := by
  refine ⟨fun room => Memory.Store.converges start vs fits ?_ attempt again, ?_⟩
  · obtain ⟨_, run⟩ := Deployment.visits_lone_memory .empty ⟨[], [], []⟩ start vs
    change (Deployment.ofBackends [.memory .empty] start).visits vs = _ at run
    rwa [run] at room
  · intro options stage first client calm empty connected marked served exact distinct
    exact Remote.converges calm empty connected marked served fits exact distinct

/-- A series is created that lives for two seconds. -/
def createShort : Visit :=
  ⟨⟨0⟩, .create (fun _ => ⟨"token", 0⟩) [(⟨7⟩, ⟨⟨0⟩, "load", ["a"], some 2⟩)]⟩

/-- Later a point is submitted for it, with another tag and a longer time to live. -/
def lateSubmission : Submission where
  now := ⟨10000⟩
  mark := ⟨4⟩
  input := ⟨⟨0⟩, "load", ["b"], some 60⟩
  times := [5]
  values := [.ofUInt64 3]

/-- What becomes of the submission if the series that is found has expired. -/
def lateAnswers (d : Deployment) (attempt : Attempt) : List (Except Error Answer) :=
  (d.visits [lateSubmission.create attempt, lateSubmission.write attempt ⟨1⟩,
    lateSubmission.create attempt, lateSubmission.write attempt ⟨2⟩]).1.map (·.2)

/-- The series is found, found expired, created anew, and written. -/
theorem visit_converges_expired :
    let attempt : Attempt := ⟨fun _ => ⟨"token", 0⟩, fun _ _ => .zero⟩
    let store := Deployment.ofBackends [.memory .empty] ⟨0⟩
    let client := Deployment.lone (.remote (.ofOptions loneOptions)) loneServer ⟨0⟩
    let connect : Visit := ⟨⟨0⟩, .connect⟩
    lateSubmission.Converges store [createShort] attempt attempt ∧
      lateSubmission.Converges client [connect, createShort] attempt attempt ∧
      lateAnswers (store.visits [createShort]).2 attempt =
        [.ok (.created [⟨⟨4⟩, ⟨1⟩, false⟩]), .error .seriesExpired,
          .ok (.created [⟨⟨4⟩, ⟨2⟩, true⟩]), .ok .done] ∧
      lateAnswers (client.visits [connect, createShort]).2 attempt =
        lateAnswers (store.visits [createShort]).2 attempt := by
  intro attempt store client connect
  obtain ⟨memory, remote⟩ :=
    visit_converges ⟨0⟩ [createShort] lateSubmission attempt attempt (by decide +kernel)
  obtain ⟨calm, empty⟩ :=
    Server.Stage.calm_started (show loneServer.servers = [""].map .withPassword from rfl)
  have created : (((client.visits [connect, createShort]).2).visit
      (lateSubmission.create attempt)).answer = .ok (.created [⟨⟨4⟩, ⟨1⟩, false⟩]) := by
    decide +kernel
  refine ⟨memory (by decide +kernel), ?_, by decide +kernel, by decide +kernel⟩
  refine remote loneOptions loneServer ⟨0⟩ calm empty (by decide +kernel)
    (by simp [createShort, Call.Marked]) (by simp [loneOptions, lateSubmission])
    (by decide +kernel) (by decide +kernel) ?_ fun id found => ?_
  · rintro ⟨text, refused⟩
    exact absurd (created.symm.trans refused) nofun
  · obtain ⟨_, rfl⟩ : ⟨4⟩ = lateSubmission.mark ∧ ⟨1⟩ = id := by
      simpa using Except.ok.inj (created.symm.trans found)
    refine ⟨by decide +kernel, ?_⟩
    rintro ⟨text, refused⟩
    have again : ((((client.visits [connect, createShort]).2.visit
        (lateSubmission.create attempt)).state.visit (lateSubmission.write attempt ⟨1⟩)).state.visit
          (lateSubmission.create attempt)).answer = .ok (.created [⟨⟨4⟩, ⟨2⟩, true⟩]) := by
      decide +kernel
    exact absurd (again.symm.trans refused) nofun

end SeriesStorage
