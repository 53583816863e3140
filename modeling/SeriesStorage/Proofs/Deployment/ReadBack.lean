import SeriesStorage.Proofs.Remote.RunningClient

/-!
# Points are read back

A point that was written is looked for in the window of its timestamp alone.  It is found exactly if
the timestamp is the time that is stored for it (`ReadsBack`); up to 2⁵³ every timestamp is, and
beyond that those that a double holds.

    storedTime (storedTime time) = storedTime time      (storedTime_storedTime)

So no other timestamp is stored as one that is not stored as itself, and a read of it shows nothing.
-/

namespace SeriesStorage

/-! ## Stored times -/

/-- Timestamps are stored as doubles, and doubles as themselves. -/
theorem storedTime_storedTime (time : UInt64) : storedTime (storedTime time) = storedTime time := by
  have finite := Binary64.code_ofUInt64_lt time
  have number : (Binary64.ofUInt64 time).isNaN = false := by
    simp only [Binary64.isNaN, decide_eq_false_iff_not]
    omega
  obtain ⟨whole, units⟩ := Binary64.unitsPerOne_dvd_ofUInt64 time
  have cut : (storedTime time).toNat = min whole 0xffffffffffffffff := by
    unfold storedTime
    rw [keyTime_toNat (Binary64.negative_ofUInt64 time) number, units,
      Nat.mul_div_cancel_left _ Binary64.unitsPerOne_pos]
  by_cases word : whole ≤ 0xffffffffffffffff
  · -- the stored time is the double itself, which is stored as such
    have same : Binary64.ofUInt64 (storedTime time) = Binary64.ofUInt64 time := by
      have code : (Binary64.ofUInt64 (storedTime time)).code = (Binary64.ofUInt64 time).code := by
        rw [Binary64.code_ofUInt64, cut, Nat.min_eq_left word, Nat.mul_comm, ← units,
          Binary64.nearestCode_unitsOfCode finite]
      rw [← Binary64.ofCode_negative_code (.ofUInt64 (storedTime time)), code,
        Binary64.negative_ofUInt64, ← Binary64.negative_ofUInt64 time,
        Binary64.ofCode_negative_code]
    unfold storedTime at same ⊢
    rw [same]
  · have last : storedTime time = 0xffffffffffffffff := by
      apply UInt64.toNat_inj.mp
      rw [cut, Nat.min_eq_right (by omega)]
      rfl
    rw [last]
    decide +kernel

/-- What a read of a single timestamp answers about a value that was written under it: the value is
shown if the timestamp is stored as it is, and else nothing. -/
structure ReadsBack (time : UInt64) (value : Binary64) (answer : Except Error Answer) : Prop where
  found : storedTime time = time →
    ∃ points, answer = .ok (.points points) ∧ ⟨time, value⟩ ∈ points
  lost : storedTime time ≠ time → answer = .error .noDataFound

/-- What shows all accepted points of the window shows the point, if it can be found at all. -/
theorem Shows.readsBack {time : UInt64} {value : Binary64} {accepted : List AcceptedPoint}
    {answer : Except Error Answer} (h : Shows ⟨time, time⟩ accepted answer)
    (inside : (time, value) ∈ accepted) : ReadsBack time value answer := by
  have window : ∀ p : Point, p ∈ pointsOfWindow ⟨time, time⟩ accepted ↔
      ∃ q ∈ accepted, (⟨storedTime q.1, q.2⟩ : Point) = p ∧ p.time = time := by
    intro p
    unfold pointsOfWindow
    rw [List.mem_filter, List.mem_map]
    simp only [Bool.and_eq_true, decide_eq_true_eq]
    constructor
    · rintro ⟨⟨q, hq, rfl⟩, low, high⟩
      exact ⟨q, hq, rfl, UInt64.le_antisymm high low⟩
    · rintro ⟨q, hq, rfl, same⟩
      exact ⟨⟨q, hq, rfl⟩, UInt64.le_of_eq same.symm, UInt64.le_of_eq same⟩
  constructor
  · intro stays
    have shown : (⟨time, value⟩ : Point) ∈ pointsOfWindow ⟨time, time⟩ accepted :=
      (window _).mpr ⟨(time, value), inside, by rw [stays], rfl⟩
    obtain ⟨nothing, _⟩ | ⟨points, rfl, _, perm, _⟩ := h
    · rw [nothing] at shown
      cases shown
    · exact ⟨points, rfl, perm.mem_iff.mpr shown⟩
  · intro lost
    have nothing : pointsOfWindow ⟨time, time⟩ accepted = [] := by
      refine List.eq_nil_iff_forall_not_mem.mpr fun p shown => lost ?_
      obtain ⟨q, _, rfl, same⟩ := (window p).mp shown
      rw [← same]
      exact storedTime_storedTime q.1
    obtain ⟨_, rfl⟩ | ⟨points, _, some, perm, _⟩ := h
    · rfl
    · rw [nothing] at perm
      exact absurd (List.perm_nil.mp perm) some

/-! ## In memory -/

namespace Memory.Store

/-- **A point is read back from memory**, as long as the series has not expired. -/
theorem Stored.write_readsBack {s : Store} {ref : SeriesRef} {accepted : List AcceptedPoint}
    (stored : Stored accepted (s.valuesOf ref)) {now later : Instant} {req : RequestId}
    {draws : Draws} {times : List UInt64} {values : List Binary64} {time : UInt64}
    {value : Binary64} (inside : (time, value) ∈ times.zip values)
    (written : (s.visit ⟨now, .write ref req draws times values⟩).answer = .ok .done) :
    let answer := ((s.visit ⟨now, .write ref req draws times values⟩).state.visit
      ⟨later, .read ref ⟨time, time⟩⟩).answer
    (answer = .error .seriesExpired ∧ now.seconds < later.seconds) ∨
      ReadsBack time value answer := by
  rw [visit_write] at written ⊢
  obtain ⟨_, failed⟩ | ⟨m, record, owner, ⟨_, failed⟩ | ⟨live, acted⟩⟩ :=
    s.guarded_cases now.seconds ref
      (.succeed Answer.done (s.append ref (keyedValues draws times values)))
  · rw [failed] at written
    cases written
  · rw [failed] at written
    cases written
  · have more : Stored (accepted ++ times.zip values)
        ((s.append ref (keyedValues draws times values)).valuesOf ref) := by
      rw [valuesOf_append, if_pos rfl]
      exact List.rel_append stored (stored_keyedValues draws times values)
    intro answer
    unfold answer
    rw [acted, Outcome.state_succeed, visit_read]
    obtain ⟨absent, _⟩ | ⟨m', record', _, ⟨gone, failed⟩ | ⟨_, shown⟩⟩ :=
      (s.append ref (keyedValues draws times values)).guarded_cases later.seconds ref
        (.answered (((s.append ref (keyedValues draws times values)).pointsIn ref
          ⟨time, time⟩).map Answer.points) (s.append ref (keyedValues draws times values)))
    · exact absurd ⟨m, record, owner⟩ absent
    · obtain rfl := Option.some.inj (record.symm.trans record')
      rw [failed]
      refine Or.inl ⟨rfl, UInt64.not_le.mp fun before => ?_⟩
      exact absurd (live.symm.trans (m.isExpired_mono before gone)) nofun
    · rw [shown]
      exact Or.inr ((more.shows_pointsIn ⟨time, time⟩).readsBack (List.mem_append_right _ inside))

end Memory.Store

/-! ## On servers -/

namespace Remote

open Server (Network Node)

variable {servers : Nat → Prop} {connections : Connections} {cats : Catalogues}
  {given : SeriesRef → AcceptedPoint → Prop} {site : Site Network} {c : Connection} {node : Node}

/-- A read of a single timestamp shows a point that has its entry, if it can be found at all. -/
theorem Reaches.fetch_readsBack {ref : SeriesRef} (h : Reaches site connections ref.ns c node)
    (connected : site.client.connections = some connections)
    (holds : HoldsGiven given node.keyspace) {time : UInt64} {value : Binary64}
    {entry : String × Binary64} (there : InSet node.keyspace ref (bucketOf time) entry)
    (stands : StandsFor (time, value) entry) :
    ∃ answer, site.outcome (Remote.fetch ref ⟨time, time⟩) = .answered answer site ∧
      ReadsBack time value.canonical (answer.map .points) := by
  have order : (⟨time, time⟩ : Window).first ≤ (⟨time, time⟩ : Window).last := UInt64.le_refl time
  have narrow : (bucketCount time time).toNat ≤ maxReadBuckets := by
    rw [bucketCount_toNat (UInt64.le_refl time), Nat.sub_self]
    decide
  have contains : ∀ key, (⟨time, time⟩ : Window).contains key = true ↔ keyTime key = time := by
    intro key
    simp only [Window.contains, Bool.and_eq_true, decide_eq_true_eq]
    exact ⟨fun both => UInt64.le_antisymm both.2 both.1,
      fun same => ⟨UInt64.le_of_eq same.symm, UInt64.le_of_eq same⟩⟩
  obtain ⟨answer, ran, shown⟩ := h.fetch_held connected holds order narrow
  refine ⟨answer, ran, ⟨fun stays => ?_, fun lost => ?_⟩⟩
  · have found : keyTime entry.2 = time := stands.score.keyTime_eq.trans stays
    have held : Held node.keyspace ref ⟨time, time⟩ (entry.2, value.canonical) :=
      ⟨bucketOf time, bucketOf_mem order order, entry, there, (contains _).mpr found, rfl,
        stands.member⟩
    obtain ⟨_, nothing⟩ | ⟨points, rfl, _, all⟩ := shown
    · exact absurd held (nothing _)
    · exact ⟨points, rfl, (all _).mpr ⟨_, held, by rw [found]⟩⟩
  · -- what is shown was stored under a timestamp, and so its time is stored as itself
    have nothing : ∀ s, ¬ Held node.keyspace ref ⟨time, time⟩ s := by
      rintro s ⟨bucket, _, entry', ⟨scores, found, inside⟩, within, _⟩
      obtain ⟨scores', found', sourced⟩ := holds ref bucket
      obtain rfl := Except.ok.inj (found.symm.trans found')
      obtain ⟨q, _, stands'⟩ := sourced entry' inside
      have stored : storedTime q.1 = time :=
        stands'.score.keyTime_eq.symm.trans ((contains _).mp within)
      rw [← stored] at lost
      exact lost (storedTime_storedTime q.1)
    obtain ⟨rfl, _⟩ | ⟨points, rfl, some, all⟩ := shown
    · rfl
    · obtain ⟨p, inside⟩ := List.exists_mem_of_ne_nil _ some
      obtain ⟨s, held, _⟩ := (all p).mp inside
      exact absurd held (nothing s)

/-- A write that is accepted leaves an entry for each of its points. -/
theorem Curated.write_stored (h : Curated servers cats given site) {now : Instant}
    {ref : SeriesRef} {req : RequestId} (direct : req.isEmpty = true) {draws : Draws}
    {times : List UInt64} {values : List Binary64}
    (written : (site.visit ⟨now, .write ref req draws times values⟩).answer = .ok .done) :
    let left := (site.visit ⟨now, .write ref req draws times values⟩).state
    ∃ m given' connections c node,
      ((cats ref.ns).records ref.id = some m ∧ m.isExpired now.seconds = false) ∧
      Curated servers cats given' left ∧ left.client.connections = some connections ∧
      Reaches left connections ref.ns c node ∧
      ∀ p ∈ times.zip values, ∃ entry, InSet node.keyspace ref (bucketOf p.1) entry ∧
        StandsFor p entry := by
  rw [Site.visit_write] at written ⊢
  obtain ⟨_, e, _, failed⟩ | ⟨_, failed⟩ | ⟨m, _, left, _, _, failed, _⟩ |
    ⟨connections, c, node, m, record, live, own, reaches, kept, ran⟩ :=
    h.guarded_cases now.seconds ref fun m =>
      (fun _ => Answer.done) <$> append ref.ns req m draws times values
  · rw [failed] at written
    cases written
  · rw [failed] at written
    cases written
  · rw [failed] at written
    cases written
  · rw [ran] at written ⊢
    obtain rfl := h.described record
    have there := reaches.remember m.ref (some m)
    obtain ⟨kept', _⟩ := kept.after_append rfl own there now req draws times values
    rw [Site.outcome_map] at written kept' ⊢
    obtain ⟨_, full⟩ | ⟨_, stored⟩ | ⟨_, _, miscounted⟩ :=
      there.append_given own (kept.sourced own there) req m draws times values
    · rw [full] at written
      cases written
    · obtain ⟨ks, appended, entries⟩ := stored direct
      rw [appended] at kept' ⊢
      exact ⟨m, _, connections, c, _, ⟨record, live⟩, kept', own, there.setKeys ks, entries⟩
    · rw [Outcome.answer_map, miscounted] at written
      cases written

/-- **A point is read back from a server** if it has its entry, as long as the series has not
expired. -/
theorem Curated.read_back (h : Curated servers cats given site)
    (own : site.client.connections = some connections) {ref : SeriesRef} {m : SeriesMetadata}
    (record : (cats ref.ns).records ref.id = some m)
    (reaches : Reaches site connections ref.ns c node) (later : Instant) {time : UInt64}
    {value : Binary64} {entry : String × Binary64}
    (there : InSet node.keyspace ref (bucketOf time) entry)
    (stands : StandsFor (time, value) entry) :
    let answer := (site.visit ⟨later, .read ref ⟨time, time⟩⟩).answer
    (answer = .error .seriesExpired ∧ m.isExpired later.seconds = true) ∨
      ReadsBack time value.canonical answer := by
  intro answer
  unfold answer
  rw [Site.visit_read]
  obtain ⟨unused, _⟩ | ⟨absent, _⟩ | ⟨m', _, left, record', gone, failed, _⟩ |
    ⟨_, _, _, m', _, _, _, _, kept, ran⟩ :=
    h.guarded_cases later.seconds ref fun _ => Answer.points <$> fetch ref ⟨time, time⟩
  · have counted := (h.wellFormed ref.ns).counted ref.id m record
    omega
  · exact absurd ⟨m, record⟩ absent
  · obtain rfl := Option.some.inj (record.symm.trans record')
    rw [failed]
    exact Or.inl ⟨rfl, gone⟩
  · have now := reaches.remember ref (some m')
    obtain ⟨found, fetched, back⟩ := now.fetch_readsBack own (kept.sourced own now) there stands
    rw [ran, Site.outcome_map, fetched]
    exact Or.inr back

/-- A point that was accepted is read back, as long as the series has not expired since. -/
theorem Curated.write_readsBack (h : Curated servers cats given site) {now later : Instant}
    {ref : SeriesRef} {req : RequestId} (direct : req.isEmpty = true) {draws : Draws}
    {times : List UInt64} {values : List Binary64} {time : UInt64} {value : Binary64}
    (inside : (time, value) ∈ times.zip values)
    (written : (site.visit ⟨now, .write ref req draws times values⟩).answer = .ok .done) :
    let answer := ((site.visit ⟨now, .write ref req draws times values⟩).state.visit
      ⟨later, .read ref ⟨time, time⟩⟩).answer
    (answer = .error .seriesExpired ∧ now.seconds < later.seconds) ∨
      ReadsBack time value.canonical answer := by
  obtain ⟨m, _, _, _, _, ⟨record, live⟩, kept, own, reaches, entries⟩ :=
    h.write_stored direct written
  obtain ⟨entry, there, stands⟩ := entries (time, value) inside
  refine (kept.read_back own record reaches later there stands).imp_left ?_
  rintro ⟨failed, gone⟩
  refine ⟨failed, UInt64.not_le.mp fun before => ?_⟩
  exact absurd (live.symm.trans (m.isExpired_mono before gone)) nofun

end Remote

/-! ## Any visits -/

/-- **Points are read back.**  After any visits, to a store that was empty at first or to a client
that has connected to empty servers, a batch is accepted by a series.  Then each of its points is
found in the window of its timestamp, unless the series has expired since, if its timestamp is the
time that is stored for it; else nothing is found there.  Timestamps up to 2⁵³ are stored as they
are. -/
theorem visit_read_back (start : Instant) (vs : List Visit) (now later : Instant) (ref : SeriesRef)
    (req : RequestId) (draws : Draws) (times : List UInt64) (values : List Binary64) (time : UInt64)
    (value : Binary64) (inside : (time, value) ∈ times.zip values) :
    let write : Visit := ⟨now, .write ref req draws times values⟩
    let read : Visit := ⟨later, .read ref ⟨time, time⟩⟩
    (let d := ((Deployment.ofBackends [.memory .empty] start).visits vs).2
     let answer := ((d.visit write).state.visit read).answer
     (d.visit write).answer = .ok .done →
      (answer = .error .seriesExpired ∧ now.seconds < later.seconds) ∨
        ReadsBack time value answer) ∧
    (∀ (options : Remote.Options) (stage : Server.Stage) (first : Instant),
      let client := Deployment.lone (.remote (.ofOptions options)) stage start
      stage.Calm → (∀ r ∈ stage.servers, r.keyspace = .empty) →
      (client.visit ⟨first, .connect⟩).answer = .ok .done → (∀ v ∈ vs, v.call.Marked) →
      let d := (client.visits (⟨first, .connect⟩ :: vs)).2
      let answer := ((d.visit write).state.visit read).answer
      req.isEmpty = true → (d.visit write).answer = .ok .done →
        (answer = .error .seriesExpired ∧ now.seconds < later.seconds) ∨
          ReadsBack time value.canonical answer) ∧
    ∀ time : UInt64, time.toNat ≤ 0x20000000000000 → storedTime time = time := by
  intro write read
  refine ⟨?_, ?_, fun _ => keyTime_ofUInt64⟩
  · obtain ⟨last, run⟩ := Deployment.visits_lone_memory .empty ⟨[], [], []⟩ start vs
    change (Deployment.ofBackends [.memory .empty] start).visits vs = _ at run
    rw [run]
    simp only [Deployment.visit_lone_memory, Outcome.mapState]
    exact ((Memory.Store.tracked_empty.visits vs).stored ref).write_readsBack inside
  · intro options stage first client calm empty connected marked
    obtain ⟨site, connections, cats, given, seen, _, running⟩ :=
      Remote.running_visits calm empty connected vs marked
    obtain ⟨written, seen'⟩ := seen.visit write
    obtain ⟨shown, _⟩ := seen'.visit read
    intro d answer direct
    unfold answer
    rw [show (d.visit write).answer = _ from written,
      show ((d.visit write).state.visit read).answer = _ from shown]
    exact running.toCurated.write_readsBack direct inside

/-- A series that never expires is created. -/
def createLoad : Visit :=
  ⟨⟨1598261325123⟩, .create (fun _ => ⟨"token", 0⟩) [(⟨1⟩, ⟨⟨0⟩, "load", [], none⟩)]⟩

/-- A point is written to the first series. -/
def writeAt (time : UInt64) : Visit :=
  ⟨⟨1598261325123⟩, .write ⟨⟨0⟩, ⟨1⟩⟩ .empty (fun _ _ => .zero) [time] [.ofUInt64 3]⟩

/-- What is read from the first series under the timestamp of a point that is written to it. -/
def Deployment.readBackAt (d : Deployment) (time : UInt64) : Except Error Answer :=
  ((d.visit (writeAt time)).state.visit
    ⟨⟨1598261325123⟩, .read ⟨⟨0⟩, ⟨1⟩⟩ ⟨time, time⟩⟩).answer

/-- A timestamp beyond 2⁵³ that is a double is read back, from memory and from a server. -/
theorem visit_read_back_even :
    let stored := ((Deployment.ofBackends [.memory .empty] ⟨0⟩).visits [createLoad]).2
    let sent := ((Deployment.lone (.remote (.ofOptions loneOptions)) loneServer ⟨0⟩).visits
      [⟨⟨0⟩, .connect⟩, createLoad]).2
    ReadsBack 9007199254740994 (.ofUInt64 3) (stored.readBackAt 9007199254740994) ∧
      ReadsBack 9007199254740994 (Binary64.ofUInt64 3).canonical
        (sent.readBackAt 9007199254740994) ∧
      stored.readBackAt 9007199254740994 = .ok (.points [⟨9007199254740994, .ofUInt64 3⟩]) ∧
      sent.readBackAt 9007199254740994 = stored.readBackAt 9007199254740994 := by
  intro stored sent
  obtain ⟨memory, remote, _⟩ := visit_read_back ⟨0⟩ [createLoad] ⟨1598261325123⟩ ⟨1598261325123⟩
    ⟨⟨0⟩, ⟨1⟩⟩ .empty (fun _ _ => .zero) [9007199254740994] [.ofUInt64 3] 9007199254740994
    (.ofUInt64 3) List.mem_cons_self
  obtain ⟨calm, empty⟩ :=
    Server.Stage.calm_started (show loneServer.servers = [""].map .withPassword from rfl)
  have back := memory (show (stored.visit (writeAt 9007199254740994)).answer = .ok .done by
    decide +kernel)
  have back' := remote loneOptions loneServer ⟨0⟩ calm empty (by decide +kernel)
    (by simp [createLoad, Call.Marked]) rfl
    (show (sent.visit (writeAt 9007199254740994)).answer = .ok .done by decide +kernel)
  refine ⟨?_, ?_, by decide +kernel, by decide +kernel⟩
  · rcases back with gone | back
    · exact absurd gone.2 (UInt64.lt_irrefl _)
    · exact back
  · rcases back' with gone | back
    · exact absurd gone.2 (UInt64.lt_irrefl _)
    · exact back

/-- The timestamp before it is not a double.  Its point is accepted and nobody finds it under it. -/
theorem not_readsBack_odd :
    let stored := ((Deployment.ofBackends [.memory .empty] ⟨0⟩).visits [createLoad]).2
    let sent := ((Deployment.lone (.remote (.ofOptions loneOptions)) loneServer ⟨0⟩).visits
      [⟨⟨0⟩, .connect⟩, createLoad]).2
    ((stored.visit (writeAt 9007199254740993)).answer = .ok .done ∧
      stored.readBackAt 9007199254740993 = .error .noDataFound) ∧
    (sent.visit (writeAt 9007199254740993)).answer = .ok .done ∧
      sent.readBackAt 9007199254740993 = .error .noDataFound := by
  decide +kernel

end SeriesStorage
