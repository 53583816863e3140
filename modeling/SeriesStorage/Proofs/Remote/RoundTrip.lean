import SeriesStorage.Proofs.Agreement.Visits
import SeriesStorage.Proofs.Remote.OwnSeries
import SeriesStorage.Proofs.Remote.ReadingPoints

/-!
# What a write adds to a read

A read, a write that is accepted, and the same read again, of a series whose sets hold only entries
of this backend: the second read shows what the first one showed, and the points of the batch that
lie in the window.  Nothing is lost or shown twice at the edge of a bucket or of the window, and no
point of the batch takes the place of another point.

* `perm_visited_append`: what a read comes across after a batch was appended.
* `visit_round_trip`: the three visits.
-/

namespace SeriesStorage

/-- An answer to a read: exactly these points in the order of time, or no data if there are none. -/
def ShowsExactly (points : List Point) (answer : Except Error Answer) : Prop :=
  (points = [] ∧ answer = .error .noDataFound) ∨
    ∃ shown, answer = .ok (.points shown) ∧ shown ≠ [] ∧ shown.Perm points ∧
      shown.Pairwise fun p q => p.time ≤ q.time

/-- The points of a batch whose timestamps lie in a window, with their values but for the payloads
of NaNs. -/
def batchIn (window : Window) (batch : List (UInt64 × Binary64)) : List Point :=
  (batch.filter fun p => window.first ≤ p.1 && p.1 ≤ window.last).map fun p =>
    ⟨p.1, p.2.canonical⟩

theorem ShowsExactly.perm {points points' : List Point} {answer : Except Error Answer}
    (h : ShowsExactly points answer) (perm : points.Perm points') :
    ShowsExactly points' answer := by
  obtain ⟨rfl, failed⟩ | ⟨shown, ok, some, same, sorted⟩ := h
  · exact Or.inl ⟨List.nil_perm.mp perm, failed⟩
  · exact Or.inr ⟨shown, ok, some, same.trans perm, sorted⟩

namespace Remote

open Server (Keyspace Network Node Stage)

/-! ## Points of a window -/

/-- Of points of a batch, a read comes across those that lie in its window. -/
theorem perm_batchIn {window : Window} (order : window.first ≤ window.last)
    {batch : List (UInt64 × Binary64)} (exact : ∀ p ∈ batch, p.1.toNat ≤ 0x20000000000000) :
    (pointsOfWindow window (readBack (visited window batch))).Perm (batchIn window batch) := by
  have time : ∀ p ∈ batch, storedTime p.1 = p.1 := fun p inside => keyTime_ofUInt64 (exact p inside)
  have same : batch.filter (liesIn window) =
      batch.filter fun p => window.first ≤ p.1 && p.1 ≤ window.last := by
    refine List.filter_congr fun p inside => ?_
    unfold liesIn
    rw [time p inside]
  rw [pointsOfWindow_eq_map]
  refine ((perm_visited order exact).map _).trans (List.Perm.of_eq ?_)
  unfold batchIn
  rw [same]
  refine List.map_congr_left fun p inside => ?_
  rw [time p (List.mem_filter.mp inside).1]

/-- What a read comes across after a batch was appended. -/
theorem perm_visited_append (window : Window) (points batch : List (UInt64 × Binary64)) :
    (visited window points ++ visited window batch).Perm (visited window (points ++ batch)) := by
  have split : ∀ bucket, inBucket bucket (points ++ batch) =
      inBucket bucket points ++ inBucket bucket batch := fun _ => List.filter_append _ _
  unfold visited
  simp only [split]
  exact List.flatMap_append_perm _ _ _

/-- The points of a window after a batch was appended. -/
theorem perm_pointsOfWindow_append {window : Window} (order : window.first ≤ window.last)
    (points : List (UInt64 × Binary64)) {batch : List (UInt64 × Binary64)}
    (exact : ∀ p ∈ batch, p.1.toNat ≤ 0x20000000000000) :
    (pointsOfWindow window (readBack (visited window (points ++ batch)))).Perm
      (pointsOfWindow window (readBack (visited window points)) ++ batchIn window batch) := by
  refine List.Perm.trans ?_ ((perm_batchIn order exact).append_left _)
  simp only [pointsOfWindow_eq_map]
  rw [← List.map_append, ← List.filter_append]
  exact ((perm_visited_append window points batch).symm.filter _).map _

/-! ## Single visits -/

section Visits

variable {site : Site Network} {connections : Connections} {c : Connection} {node : Node}
  {ref : SeriesRef} {m : SeriesMetadata} {points : List (UInt64 × Binary64)}

/-- A read of a live series shows what its sets hold, and keeps its descriptor. -/
theorem Reaches.visit_read (h : Reaches site connections ref.ns c node)
    (connected : site.client.connections = some connections)
    (finds : AccessFinds site.client.cache node.keyspace ref m)
    (holds : HoldsPoints node.keyspace ref points) {time : Instant}
    (live : m.isExpired time.seconds = false) {window : Window}
    (narrow : (bucketCount window.first window.last).toNat ≤ maxReadBuckets) :
    ∃ answer, site.visit ⟨time, .read ref window⟩ =
        .answered answer (site.remember ref (some m)) ∧
      ShowsExactly (pointsOfWindow window (readBack (visited window points))) answer := by
  obtain ⟨answer, fetched, shown⟩ :=
    (h.remember ref (some m)).fetch_visited connected holds narrow
  refine ⟨answer.map .points, ?_, shown⟩
  rw [Site.visit_read, h.guarded_found connected finds live, Site.outcome_map, fetched]
  rfl

/-- A write that is accepted stores its batch, and keeps the descriptor of its series. -/
theorem Reaches.visit_write (h : Reaches site connections ref.ns c node)
    (connected : site.client.connections = some connections)
    (finds : AccessFinds site.client.cache node.keyspace ref m)
    (holds : HoldsPoints node.keyspace ref points) {now : Instant} {req : RequestId}
    (direct : req.isEmpty = true) {draws : Draws} {times : List UInt64} {values : List Binary64}
    (accepted :
      (site.visit ⟨now, .write ref req draws times values⟩).answer = .ok .done) :
    ∃ ks, site.visit ⟨now, .write ref req draws times values⟩ =
        .succeed .done ((site.remember ref (some m)).setKeys c.server ks) ∧
      HoldsPoints ks ref (points ++ times.zip values) ∧
      ks.get? (Key.descriptor ref) = node.keyspace.get? (Key.descriptor ref) := by
  rw [Site.visit_write] at accepted ⊢
  have live := h.live_of_guarded connected finds accepted
  rw [h.guarded_found connected finds live, Site.outcome_map] at accepted ⊢
  obtain rfl := finds.1
  obtain ⟨_, full⟩ | ⟨_, _, miscounted⟩ | ⟨ks, stored, more, others⟩ :=
    (h.remember m.ref (some m)).append connected holds direct draws times values
  · rw [Outcome.answer_map, full] at accepted
    cases accepted
  · rw [Outcome.answer_map, miscounted] at accepted
    cases accepted
  · refine ⟨ks, ?_, more, others (.descriptor m.ref) (by simp)⟩
    rw [stored]
    rfl

end Visits

/-! ## A read, a write and a read -/

/-- **What a write adds to a read.**  Servers on which no command fails hold, in the sets of a
series, only entries of this backend.  The series is read, a batch is accepted, and the series is
read again, all while it has not expired.  Then the second read shows the points that the first one
showed and those points of the batch that lie in the window, and nothing else. -/
theorem visit_round_trip {site : Site Stage} (calm : site.world.Calm) {ref : SeriesRef}
    {ks : Keyspace} {m : SeriesMetadata} (serves : Serves site ref.ns ks)
    (finds : AccessFinds site.client.cache ks ref m) (own : OwnSets ks ref)
    {earlier now later : Instant} (live : m.isExpired earlier.seconds = false)
    (lives : m.isExpired later.seconds = false) {req : RequestId} (direct : req.isEmpty = true)
    (draws : Draws) {times : List UInt64} {values : List Binary64}
    (exact : ∀ p ∈ times.zip values, p.1.toNat ≤ 0x20000000000000) {window : Window}
    (order : window.first ≤ window.last)
    (narrow : (bucketCount window.first window.last).toNat ≤ maxReadBuckets) :
    let before := site.visit ⟨earlier, .read ref window⟩
    let written := before.state.visit ⟨now, .write ref req draws times values⟩
    let after := written.state.visit ⟨later, .read ref window⟩
    written.answer = .ok .done →
      ∃ points, ShowsExactly points before.answer ∧
        ShowsExactly (points ++ batchIn window (times.zip values)) after.answer := by
  intro before written after accepted
  obtain ⟨connections, c, node, connected, reaches, rfl⟩ := serves.reaches
  obtain ⟨points, holds⟩ := own.holdsPoints
  -- the three visits, on the network
  obtain ⟨same, reached, calm'⟩ := site.visit_network calm ⟨earlier, .read ref window⟩
  obtain ⟨same', reached', calm''⟩ :=
    before.state.visit_network calm' ⟨now, .write ref req draws times values⟩
  obtain ⟨same'', _, _⟩ := written.state.visit_network calm'' ⟨later, .read ref window⟩
  obtain ⟨answer, first, shown⟩ := reaches.visit_read connected finds holds live narrow
  rw [first, Outcome.state_answered] at reached
  rw [first, Outcome.answer_answered] at same
  rw [show before.state.onNetwork = _ from reached] at same' reached'
  have again := reaches.remember ref (some m)
  obtain ⟨ks', second, more, descriptor⟩ := again.visit_write connected finds.remember holds direct
    (same'.symm.trans accepted)
  rw [second, Outcome.state_succeed] at reached'
  rw [show written.state.onNetwork = _ from reached'] at same''
  have stored := (again.remember ref (some m)).setKeys ks'
  obtain ⟨answer', third, shown'⟩ := stored.visit_read connected
    (finds.remember.remember.congr descriptor) more lives narrow
  rw [third, Outcome.answer_answered] at same''
  rw [show before.answer = answer from same, show after.answer = answer' from same'']
  exact ⟨_, shown, shown'.perm (perm_pointsOfWindow_append order points exact)⟩

/-- A point that is written beside another one is read back with it. -/
theorem visit_round_trip_beside :
    let m : SeriesMetadata := ⟨⟨1⟩, ⟨0⟩, "load", [], none⟩
    let p := encodeScored 5 (paddedKey 5 .zero) (.ofUInt64 3)
    let site := Site.alone (seriesKeys m 0 [(p.member, p.score)])
    let before := site.visit ⟨⟨0⟩, .read m.ref ⟨0, 10⟩⟩
    let written := before.state.visit
      ⟨⟨1⟩, .write m.ref .empty (fun _ _ => .zero) [6, 20] [.ofUInt64 4, .zero]⟩
    let after := written.state.visit ⟨⟨2⟩, .read m.ref ⟨0, 10⟩⟩
    written.answer = .ok .done ∧ ∃ points, ShowsExactly points before.answer ∧
      ShowsExactly (points ++ [⟨6, .ofUInt64 4⟩]) after.answer := by
  intro m p site before written after
  have own : OwnSets (seriesKeys m 0 [(p.member, p.score)]) m.ref := by
    refine ownSets_seriesKeys m fun entry inside => ?_
    obtain rfl := List.mem_singleton.mp inside
    exact ⟨5, .ofUInt64 3, rfl, isKeyOf_paddedKey 5 .zero, rfl⟩
  have accepted : written.answer = .ok .done := by decide +kernel
  have inside : batchIn ⟨0, 10⟩ ([6, 20].zip [.ofUInt64 4, .zero]) =
      [⟨6, .ofUInt64 4⟩] := by decide +kernel
  have found := accessFinds_seriesKeys m 0 [(p.member, p.score)]
    (show site.client.cache.get? m.ref = none from rfl)
  have shown := @visit_round_trip site (Site.calm_alone _) m.ref _ m (Site.serves_alone _ m.ref.ns)
    found own ⟨0⟩ ⟨1⟩ ⟨2⟩ rfl rfl .empty rfl (fun _ _ => .zero) [6, 20] [.ofUInt64 4, .zero]
    (by decide +kernel) ⟨0, 10⟩ (by decide) (by decide +kernel) accepted
  rw [inside] at shown
  exact ⟨accepted, shown⟩

end Remote

end SeriesStorage
