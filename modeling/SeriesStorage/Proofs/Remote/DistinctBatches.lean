import Mathlib.Data.List.Nodup
import SeriesStorage.Proofs.Point.DistinctMembers
import SeriesStorage.Proofs.Remote.ReadingPoints

/-!
# Batches without repetitions

In a batch without repetitions, whose timestamps are whole numbers that a double holds exactly, no
point takes the place of another one.  So each gets the key that is drawn first
(`encodePoints_distinct`), and if none of its members is in the sets yet the batch is stored
(`Reaches.append_distinct`).
-/

namespace SeriesStorage

namespace Remote

open Server (Keyspace Network Node)

/-! ## Places -/

variable {points : List (UInt64 × Binary64)} {stored : List StoredPoint}

/-- What of a point its place tells: its timestamp as a double, and its value but for the payload of
a NaN. -/
def imageOf (q : UInt64 × Binary64) : Binary64 × Binary64 := (.ofUInt64 q.1, q.2.canonical)

/-- Points in the same place have the same image. -/
theorem Encodes.image_eq {q q' : UInt64 × Binary64} {p p' : StoredPoint} (h : Encodes q p)
    (h' : Encodes q' p') (same : placeOf p = placeOf p') : imageOf q = imageOf q' := by
  obtain ⟨score, key, rfl⟩ := h
  obtain ⟨score', key', rfl⟩ := h'
  obtain ⟨bucket, member⟩ := Prod.mk.inj same
  obtain ⟨time, value⟩ := member_inj key key' bucket member
  exact Prod.ext time value

/-- Points that differ are in different places. -/
theorem Encodes.place_ne {q q' : UInt64 × Binary64} {p p' : StoredPoint} (h : Encodes q p)
    (h' : Encodes q' p') (exact : q.1.toNat ≤ 0x20000000000000)
    (exact' : q'.1.toNat ≤ 0x20000000000000)
    (apart : (q.1, q.2.canonical) ≠ (q'.1, q'.2.canonical)) : placeOf p ≠ placeOf p' := by
  intro same
  obtain ⟨time, value⟩ := Prod.mk.inj (h.image_eq h' same)
  refine apart (Prod.ext ?_ value)
  rw [← keyTime_ofUInt64 exact, time, keyTime_ofUInt64 exact']

/-- A point is stored under the key that is drawn first if its place is free there. -/
theorem uniquePoint_first {taken : Taken} {draw : Nat → Padding} {time : UInt64} {value : Binary64}
    (free : placeOf (encode time value (draw 0).value) ∉ taken) :
    uniquePoint taken draw time value = .ok (encode time value (draw 0).value) := by
  have isFree : isFree taken (encode time value (draw 0).value) = true := isFree_iff.mpr free
  have attempts : List.range paddingAttempts = 0 :: [1, 2, 3, 4, 5, 6, 7] := rfl
  unfold uniquePoint
  rw [attempts, List.map_cons]
  dsimp only
  rw [List.find?_cons_of_pos isFree]

/-- **A batch without repetitions is never refused.** -/
theorem encodePoints_distinct (draws : Draws) (i : Nat) {earlier : List (UInt64 × Binary64)}
    {placed : List StoredPoint} {taken : Taken} (before : List.Forall₂ Encodes earlier placed)
    (places : ∀ place ∈ taken, ∃ p ∈ placed, placeOf p = place)
    (exact : ∀ q ∈ earlier ++ points, q.1.toNat ≤ 0x20000000000000)
    (distinct : (readBack (earlier ++ points)).Nodup) :
    ∃ stored, encodePoints draws i taken points = .ok stored := by
  induction points generalizing i earlier placed taken with
  | nil => exact ⟨[], rfl⟩
  | cons point rest ih =>
    obtain ⟨time, value⟩ := point
    have encodes : Encodes (time, value) (encode time value (draws i 0).value) :=
      ⟨_, isKeyOf_paddedKey time (draws i 0), rfl⟩
    have free : placeOf (encode time value (draws i 0).value) ∉ taken := by
      intro inside
      obtain ⟨p, hp, same⟩ := places _ inside
      obtain ⟨q, hq, encoded⟩ := exists_left_of_forall₂ before hp
      refine encoded.place_ne encodes (exact q (List.mem_append_left _ hq))
        (exact (time, value) (List.mem_append_right _ List.mem_cons_self)) (fun equal => ?_) same
      rw [readBack, List.map_append, List.nodup_append] at distinct
      exact distinct.2.2 _ (List.mem_map_of_mem hq) _ (List.mem_map_of_mem List.mem_cons_self) equal
    have split : earlier ++ (time, value) :: rest = (earlier ++ [(time, value)]) ++ rest := by simp
    rw [split] at exact distinct
    have places' : ∀ place ∈ placeOf (encode time value (draws i 0).value) :: taken,
        ∃ p ∈ placed ++ [encode time value (draws i 0).value], placeOf p = place := by
      intro place inside
      rcases List.mem_cons.mp inside with rfl | old
      · exact ⟨_, List.mem_append_right _ List.mem_cons_self, rfl⟩
      · obtain ⟨p, hp, same⟩ := places place old
        exact ⟨p, List.mem_append_left _ hp, same⟩
    obtain ⟨stored, others⟩ := ih (i + 1) (List.rel_append before (.cons encodes .nil)) places'
      exact distinct
    refine ⟨encode time value (draws i 0).value :: stored, ?_⟩
    unfold encodePoints
    rw [uniquePoint_first free]
    show (encodePoints draws (i + 1) (placeOf _ :: taken) rest).map _ = _
    rw [others]
    rfl

/-! ## Storing -/

/-- No member of a batch is in the set of its bucket yet. -/
def Lacks (ks : Keyspace) (ref : SeriesRef) (draws : Draws) (batch : List (UInt64 × Binary64)) :
    Prop :=
  ∀ stored, encodePoints draws 0 [] batch = .ok stored → ∀ p ∈ stored, ∀ scores,
    ks.sortedSet? (Key.data ref p.bucket) = .ok scores → scores.get? p.member = none

instance (ks : Keyspace) (ref : SeriesRef) (draws : Draws) (batch : List (UInt64 × Binary64)) :
    Decidable (Lacks ks ref draws batch) :=
  decidable_of_iff (∀ stored ∈ (encodePoints draws 0 [] batch).toOption, ∀ p ∈ stored,
    ∀ scores ∈ (ks.sortedSet? (Key.data ref p.bucket)).toOption, scores.get? p.member = none) (by
      unfold Lacks
      cases encodePoints draws 0 [] batch with
      | error e => simp [Except.toOption]
      | ok stored =>
        simp only [Except.toOption, Option.mem_def, Option.some.injEq, forall_eq', Except.ok.injEq]
        refine forall₂_congr fun p _ => ?_
        cases ks.sortedSet? (Key.data ref p.bucket) <;> simp)

/-- Different places are different members in each bucket. -/
theorem nodup_members (h : (stored.map placeOf).Nodup) (bucket : UInt64) :
    ((stored.filter (·.bucket = bucket)).map (·.member)).Nodup := by
  refine List.Nodup.map_on (fun p hp q hq same => ?_) (h.of_map.filter _)
  obtain ⟨hp, here⟩ := List.mem_filter.mp hp
  obtain ⟨hq, there⟩ := List.mem_filter.mp hq
  refine List.inj_on_of_nodup_map h hp hq (Prod.ext ?_ same)
  exact (of_decide_eq_true here : p.bucket = bucket).trans (of_decide_eq_true there).symm

/-- **A batch without repetitions is stored** if no member of it is there yet. -/
theorem Reaches.append_distinct {site : Site Network} {connections : Connections} {ns : Namespace}
    {c : Connection} {node : Node} (h : Reaches site connections ns c node)
    (connected : site.client.connections = some connections) {req : RequestId}
    (direct : req.isEmpty = true) {m : SeriesMetadata} {draws : Draws} {times : List UInt64}
    {values : List Binary64}
    (sets : ∀ bucket, ∃ scores, node.keyspace.sortedSet? (Key.data m.ref bucket) = .ok scores)
    (exact : ∀ p ∈ times.zip values, p.1.toNat ≤ 0x20000000000000)
    (distinct : (readBack (times.zip values)).Nodup)
    (lacks : Lacks node.keyspace m.ref draws (times.zip values)) :
    ∃ ks, site.outcome (Remote.append ns req m draws times values) =
      .succeed () (site.setKeys c.server ks) := by
  obtain ⟨stored, encoded⟩ : ∃ stored, encodePoints draws 0 [] (times.zip values) = .ok stored :=
    encodePoints_distinct draws 0 .nil nofun exact distinct
  obtain ⟨_, encoded', _, places, _⟩ | ⟨time, refused⟩ :=
    encodePoints_encodes draws 0 [] (times.zip values)
  swap
  · rw [encoded] at refused
    cases refused
  obtain rfl := Except.ok.inj (encoded.symm.trans encoded')
  obtain ⟨replies, last, n, runs, total, _, _, counts⟩ := runs_buckets node.password m stored
    (nodup_bucketsOf stored) fun bucket _ => sets bucket
  have all := counts fun bucket _ => ⟨nodup_members places bucket,
    fun scores found p hp here => lacks stored encoded p hp scores (here ▸ found)⟩
  refine ⟨last, ?_⟩
  unfold Remote.append stagePoints
  rw [Site.outcome_bind, Site.outcome_connected connected, Outcome.andThen_succeed,
    Site.outcome_bind, Site.outcome_ofExcept, encoded, Outcome.andThen_eq_of_ok rfl, if_pos direct,
    Outcome.state_answered, h.execute_counted runs total]
  unfold checkCount
  rw [if_neg (not_not.mpr all)]
  rfl

end Remote

end SeriesStorage
