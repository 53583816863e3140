import Mathlib.Data.List.Perm.Basic
import SeriesStorage.Proofs.Memory.AcceptedPoints
import SeriesStorage.Proofs.Point.Buckets
import SeriesStorage.Proofs.Remote.Deletion
import SeriesStorage.Proofs.Remote.StoringPoints

/-!
# Reading points

A read asks for the entries of all buckets that its window meets, and so finds those points of the
window that the sets of these buckets hold (`Reaches.fetch_visited`).  These are all points of the
window (`Reaches.fetch`) as long as timestamps are whole numbers that a double holds exactly.

* `Reaches.queryRanges`: entries are asked for all at once, or one bucket after the other.
* `decodeScored_spec`: entries that stand for points are read back.
* `perm_visited`: the points of the window are those in the buckets that it meets.
-/

namespace SeriesStorage

/-- An answer that shows some points shows them in any order. -/
theorem Shows.perm {window : Window} {accepted accepted' : List AcceptedPoint}
    {answer : Except Error Answer} (h : Shows window accepted answer)
    (perm : (pointsOfWindow window accepted).Perm (pointsOfWindow window accepted')) :
    Shows window accepted' answer := by
  obtain ⟨nothing, failed⟩ | ⟨points, ok, some, shown, sorted⟩ := h
  · rw [nothing] at perm
    exact Or.inl ⟨List.nil_perm.mp perm, failed⟩
  · exact Or.inr ⟨points, ok, some, shown.trans perm, sorted⟩

namespace Remote

open Server (Command Keyspace Network Node Reply Runs)

/-- The points with their values as a member gives them back. -/
def readBack (points : List (UInt64 × Binary64)) : List (UInt64 × Binary64) :=
  points.map fun p => (p.1, p.2.canonical)

/-- Whether a point is found in a window. -/
def liesIn (window : Window) (p : UInt64 × Binary64) : Bool :=
  window.first ≤ storedTime p.1 && storedTime p.1 ≤ window.last

/-! ## Asking -/

section Asking

variable {site : Site Network} {connections : Connections} {ns : Namespace} {c : Connection}
  {node : Node} {buckets : List UInt64} {ask : UInt64 → Command}
  {found : UInt64 → List (String × Binary64)}

theorem runs_scored {required : String} {ks : Keyspace}
    (each : ∀ bucket ∈ buckets,
      Server.exec required (ask bucket) ks = (.ok (.scored (found bucket)), ks)) :
    Runs required (buckets.map ask) ks (buckets.map fun bucket => .scored (found bucket)) ks := by
  induction buckets with
  | nil => exact .done
  | cons bucket rest ih =>
    exact .step (each bucket List.mem_cons_self) (ih fun b hb => each b (List.mem_cons_of_mem _ hb))

theorem mapM_scoredMembers (found : UInt64 → List (String × Binary64)) (buckets : List UInt64) :
    (buckets.map fun bucket => Reply.scored (found bucket)).mapM scoredMembers =
      .ok (buckets.map found) := by
  induction buckets with
  | nil => rfl
  | cons bucket rest ih =>
    rw [List.map_cons, List.mapM_cons, ih]
    rfl

theorem Reaches.querySingly (h : Reaches site connections ns c node)
    (each : ∀ bucket ∈ buckets, Server.exec node.password (ask bucket) node.keyspace =
      (.ok (.scored (found bucket)), node.keyspace)) :
    site.outcome (queryRanges.querySingly c (buckets.map ask)) =
      .succeed (buckets.flatMap found) site := by
  induction buckets with
  | nil => rfl
  | cons bucket rest ih =>
    have first := each bucket List.mem_cons_self
    have single : (Server.Request.single (ask bucket)).exec node.password node.keyspace =
        (.ok [.scored (found bucket)], node.keyspace) := (Runs.step first .done).exec_request rfl
    rw [List.map_cons]
    unfold queryRanges.querySingly
    rw [Site.outcome_bind, h.request, single, Outcome.andThen_succeed, Site.outcome_bind,
      Site.outcome_orFault, h.setKeys_self]
    show (Outcome.succeed [Reply.scored (found bucket)] site).andThen _ = _
    rw [Outcome.andThen_succeed, Site.outcome_bind, Site.outcome_orFault]
    show (Outcome.succeed (found bucket) site).andThen _ = _
    rw [Outcome.andThen_succeed, Site.outcome_bind,
      ih fun b hb => each b (List.mem_cons_of_mem _ hb), Outcome.andThen_succeed]
    rfl

/-- Ranges are asked for, in one way or the other. -/
theorem Reaches.queryRanges (h : Reaches site connections ns c node)
    (each : ∀ bucket ∈ buckets, Server.exec node.password (ask bucket) node.keyspace =
      (.ok (.scored (found bucket)), node.keyspace)) :
    site.outcome (queryRanges c (buckets.map ask)) = .succeed (buckets.flatMap found) site := by
  unfold Remote.queryRanges
  split
  · rw [Site.outcome_bind, h.request, (runs_scored each).exec_request rfl, Outcome.andThen_succeed,
      Site.outcome_bind, Site.outcome_orFault, h.setKeys_self]
    show (Outcome.succeed (buckets.map fun bucket => Reply.scored (found bucket))
      site).andThen _ = _
    rw [Outcome.andThen_succeed, Site.outcome_orFault, mapM_scoredMembers]
    rfl
  · exact h.querySingly each

end Asking

/-! ## Decoding -/

/-- What was decoded is a point: the key is one of its timestamp, and the value is that of the
member. -/
structure Decodes (point : UInt64 × Binary64) (scored : Binary64 × Binary64) : Prop where
  key : IsKeyOf point.1 scored.1
  value : scored.2 = point.2.canonical

/-- Entries that stand for points are read back. -/
theorem mapM_decode {points : List (UInt64 × Binary64)} {entries : List (String × Binary64)}
    (stands : List.Forall₂ StandsFor points entries) :
    ∃ scored, (entries.mapM fun e => (decodeMember e.1).map (e.2, ·)) = .ok scored ∧
      List.Forall₂ Decodes points scored := by
  induction stands with
  | nil => exact ⟨[], rfl, .nil⟩
  | @cons point entry _ _ first _ ih =>
    obtain ⟨scored, decoded, decodes⟩ := ih
    refine ⟨(entry.2, point.2.canonical) :: scored, ?_, .cons ⟨first.score, rfl⟩ decodes⟩
    rw [List.mapM_cons, first.member, decoded]
    rfl

/-- Of entries that stand for points those of a window stand for the points of the window. -/
theorem standsFor_window (window : Window) {points : List (UInt64 × Binary64)}
    {entries : List (String × Binary64)} (stands : List.Forall₂ StandsFor points entries) :
    List.Forall₂ StandsFor
      (points.filter (liesIn window))
      (entries.filter fun e => window.contains e.2) := by
  induction stands with
  | nil => exact .nil
  | @cons point entry _ _ first _ ih =>
    have same : window.contains entry.2 = liesIn window point := by
      unfold Window.contains liesIn
      rw [first.score.keyTime_eq]
      rfl
    by_cases inside : liesIn window point = true
    · rw [List.filter_cons_of_pos inside, List.filter_cons_of_pos (by rwa [same])]
      exact .cons first ih
    · rw [List.filter_cons_of_neg inside, List.filter_cons_of_neg (by rwa [same])]
      exact ih

/-- A server gives all entries of a window, and maybe others. -/
theorem perm_membersBetween (window : Window) (scores : Table String Binary64)
    (keys : ∀ e ∈ scores.entries, ∃ time, IsKeyOf time e.2) :
    ((Server.membersBetween scores (.ofUInt64 window.first) window.upperKey).filter
        fun e => window.contains e.2).Perm
      (scores.entries.filter fun e => window.contains e.2) := by
  unfold Server.membersBetween
  refine ((List.mergeSort_perm _ _).filter _).trans ?_
  rw [List.filter_filter]
  refine List.Perm.of_eq (List.filter_congr fun e he => ?_)
  cases inside : window.contains e.2 with
  | false => rfl
  | true =>
    obtain ⟨_, key⟩ := keys e he
    obtain ⟨low, high⟩ := key.between inside
    simpa using ⟨low, high⟩

/-! ## The points of a window -/

/-- The points that a read of a window comes across: those of the buckets that the window meets. -/
def visited (window : Window) (points : List (UInt64 × Binary64)) : List (UInt64 × Binary64) :=
  (bucketsIn window.first window.last).flatMap fun bucket => inBucket bucket points

/-- Points of a window, as a read shows them. -/
theorem pointsOfWindow_eq_map (window : Window) (points : List (UInt64 × Binary64)) :
    pointsOfWindow window (readBack points) =
      (points.filter (liesIn window)).map fun p => ⟨storedTime p.1, p.2.canonical⟩ := by
  unfold pointsOfWindow readBack
  rw [List.map_map, List.filter_map]
  rfl

/-- The points of a window are those in the buckets that it meets. -/
theorem perm_visited {window : Window} (order : window.first ≤ window.last)
    {points : List (UInt64 × Binary64)} (exact : ∀ p ∈ points, p.1.toNat ≤ 0x20000000000000) :
    ((visited window points).filter (liesIn window)).Perm (points.filter (liesIn window)) := by
  refine ((perm_flatMap_filter (fun p : UInt64 × Binary64 => bucketOf p.1) points
    (bucketsIn_nodup order)).filter _).trans ?_
  rw [List.filter_filter]
  refine List.Perm.of_eq (List.filter_congr fun p hp => ?_)
  have time : storedTime p.1 = p.1 := keyTime_ofUInt64 (exact p hp)
  unfold liesIn
  rw [time]
  by_cases inside : window.first ≤ p.1 ∧ p.1 ≤ window.last
  · simp [inside.1, inside.2, bucketOf_mem inside.1 inside.2]
  · have outside : (decide (window.first ≤ p.1) && decide (p.1 ≤ window.last)) = false := by
      simpa [Decidable.not_and_iff_not_or_not] using inside
    rw [outside, Bool.false_and]

/-- What was decoded from the entries of a window shows its points. -/
theorem pointsOfWindow_eq {window : Window} {points found : List (UInt64 × Binary64)}
    {scored : List (Binary64 × Binary64)} (decodes : List.Forall₂ Decodes found scored)
    (perm : found.Perm (points.filter (liesIn window))) :
    (scored.map fun s => (⟨keyTime s.1, s.2⟩ : Point)).Perm
      (pointsOfWindow window (readBack points)) := by
  have shown : (scored.map fun s => (⟨keyTime s.1, s.2⟩ : Point)) =
      found.map fun p => ⟨storedTime p.1, p.2.canonical⟩ := by
    clear perm
    induction decodes with
    | nil => rfl
    | cons first _ ih =>
      rw [List.map_cons, List.map_cons, ih, first.key.keyTime_eq, first.value]
      rfl
  rw [shown, pointsOfWindow_eq_map]
  exact perm.map _

/-- **Entries are read back.**  What the server gives for the buckets of a window are the points of
the window in these buckets. -/
theorem decodeScored_spec (window : Window) {points : List (UInt64 × Binary64)}
    {scores : UInt64 → Table String Binary64}
    (stands : ∀ bucket, List.Forall₂ StandsFor (inBucket bucket points) (scores bucket).entries) :
    ∃ scored, decodeScored window ((bucketsIn window.first window.last).flatMap fun bucket =>
        Server.membersBetween (scores bucket) (.ofUInt64 window.first) window.upperKey) =
          .ok scored ∧
      (scored.map fun s => (⟨keyTime s.1, s.2⟩ : Point)).Perm
        (pointsOfWindow window (readBack (visited window points))) ∧
      ∀ s ∈ scored, ∃ time, IsKeyOf time s.1 := by
  have all : List.Forall₂ StandsFor (visited window points)
      ((bucketsIn window.first window.last).flatMap fun b => (scores b).entries) := by
    unfold visited
    induction bucketsIn window.first window.last with
    | nil => exact .nil
    | cons b rest ih => exact List.rel_append (stands b) ih
  have given : (((bucketsIn window.first window.last).flatMap fun b =>
        Server.membersBetween (scores b) (.ofUInt64 window.first) window.upperKey).filter
        fun e => window.contains e.2).Perm
      (((bucketsIn window.first window.last).flatMap fun b => (scores b).entries).filter
        fun e => window.contains e.2) := by
    rw [List.filter_flatMap, List.filter_flatMap]
    refine List.Perm.flatMap_left _ fun b _ => perm_membersBetween window (scores b) fun e he => ?_
    obtain ⟨p, _, first⟩ := exists_left_of_forall₂ (stands b) he
    exact ⟨p.1, first.score⟩
  -- the points may be reordered instead of the entries
  have reordered : Relation.Comp (List.Forall₂ StandsFor) List.Perm _ _ :=
    ⟨_, standsFor_window window all, given.symm⟩
  rw [List.forall₂_comp_perm_eq_perm_comp_forall₂] at reordered
  obtain ⟨found, perm, standing⟩ := reordered
  obtain ⟨scored, decoded, decodes⟩ := mapM_decode standing
  refine ⟨scored, decoded, pointsOfWindow_eq decodes perm.symm, fun s hs => ?_⟩
  obtain ⟨p, _, first⟩ := exists_left_of_forall₂ decodes hs
  exact ⟨p.1, first.key⟩

/-- **Points are read.**  A read finds the points of its window in the sets of the buckets that the
window meets. -/
theorem Reaches.fetch_visited {site : Site Network} {connections : Connections} {ref : SeriesRef}
    {c : Connection} {node : Node} {points : List (UInt64 × Binary64)}
    (h : Reaches site connections ref.ns c node)
    (connected : site.client.connections = some connections)
    (holds : HoldsPoints node.keyspace ref points) {window : Window}
    (narrow : (bucketCount window.first window.last).toNat ≤ maxReadBuckets) :
    ∃ answer, site.outcome (fetch ref window) = .answered answer site ∧
      Shows window (readBack (visited window points)) (answer.map .points) := by
  unfold Remote.fetch
  rw [Site.outcome_bind, Site.outcome_connected connected, Outcome.andThen_succeed]
  by_cases before : window.last < window.first
  · rw [if_pos before]
    refine ⟨.error .noDataFound, rfl, Or.inl ⟨?_, rfl⟩⟩
    exact pointsOfWindow_eq_nil before _
  · rw [if_neg before]
    choose scores found stands using holds
    obtain ⟨scored, decoded, perm, keys⟩ := decodeScored_spec window stands
    have asked : site.outcome (Remote.queryRanges c
        ((bucketsIn window.first window.last).map fun bucket =>
          .pointsBetween (Key.data ref bucket) window.first window.upperKey)) =
        .succeed ((bucketsIn window.first window.last).flatMap fun bucket =>
          Server.membersBetween (scores bucket) (.ofUInt64 window.first) window.upperKey) site :=
      h.queryRanges fun bucket _ => by simp only [Server.exec, found bucket]
    have buckets : readBuckets window.first window.last =
        .ok (bucketsIn window.first window.last) := by
      unfold readBuckets
      exact if_neg (Nat.not_lt.mpr narrow)
    rw [Site.outcome_bind, Site.outcome_ofExcept, buckets, Outcome.andThen_eq_of_ok rfl,
      Outcome.state_answered, Site.outcome_bind, Site.outcome_ofExcept, h.route,
      Outcome.andThen_eq_of_ok rfl, Outcome.state_answered, Site.outcome_bind, asked,
      Outcome.andThen_succeed, Site.outcome_bind, Site.outcome_ofExcept, decoded,
      Outcome.andThen_eq_of_ok rfl, Outcome.state_answered]
    by_cases empty : scored.isEmpty = true
    · rw [if_pos empty]
      obtain rfl := List.isEmpty_iff.mp empty
      exact ⟨.error .noDataFound, rfl, Or.inl ⟨List.nil_perm.mp perm, rfl⟩⟩
    · rw [if_neg empty]
      refine ⟨.ok _, rfl, Or.inr ⟨_, rfl, ?_, ((List.mergeSort_perm _ _).map _).trans perm, ?_⟩⟩
      · intro none_left
        have size := congrArg List.length none_left
        simp only [List.length_map, List.length_mergeSort, List.length_nil] at size
        exact empty (List.isEmpty_iff.mpr (List.length_eq_zero_iff.mp size))
      · rw [List.pairwise_map]
        exact pairwise_keyTime_mergeSort Prod.fst keys

/-- A read finds all points of its window if their timestamps are exact. -/
theorem Reaches.fetch {site : Site Network} {connections : Connections} {ref : SeriesRef}
    {c : Connection} {node : Node} {points : List (UInt64 × Binary64)}
    (h : Reaches site connections ref.ns c node)
    (connected : site.client.connections = some connections)
    (holds : HoldsPoints node.keyspace ref points)
    (exact : ∀ p ∈ points, p.1.toNat ≤ 0x20000000000000) {window : Window}
    (narrow : (bucketCount window.first window.last).toNat ≤ maxReadBuckets) :
    ∃ answer, site.outcome (Remote.fetch ref window) = .answered answer site ∧
      Shows window (readBack points) (answer.map .points) := by
  obtain ⟨answer, ran, shown⟩ := h.fetch_visited connected holds narrow
  refine ⟨answer, ran, shown.perm ?_⟩
  by_cases before : window.last < window.first
  · rw [pointsOfWindow_eq_nil before, pointsOfWindow_eq_nil before]
  · rw [pointsOfWindow_eq_map, pointsOfWindow_eq_map]
    exact (perm_visited (UInt64.not_lt.mp before) exact).map _

end Remote

end SeriesStorage
