import SeriesStorage.Proofs.Remote.DistinctBatches
import SeriesStorage.Proofs.Server.Attempts
import SeriesStorage.Proofs.TableKeys

/-!
# Members that a batch adds

The points of a batch are put into the sets of their buckets.  A member that is in its set already
only gets another score, and is not counted; the others come behind the members of before.  So the
commands for a batch, if none is refused, report how many of its places are new (`newPoints`).

* `addScores_keys`: what putting points into a set adds and counts.
* `attempts_buckets`: what becomes of the sets when some of the commands may be refused.
* `Grown`: what some points of a batch add to the sets of a series.
-/

namespace SeriesStorage

namespace Server

/-! ## Members of a sorted set -/

/-- The points whose members are not in a set. -/
def newTo (scores : Table String Binary64) (points : List (Binary64 × String)) :
    List (Binary64 × String) :=
  points.filter fun p => p.2 ∉ scores.keys

theorem foldl_addScore_keys {scores : Table String Binary64} {points : List (Binary64 × String)}
    (distinct : (points.map (·.2)).Nodup) (added : Nat) :
    (points.foldl addScore (scores, added)).1.keys =
        scores.keys ++ (newTo scores points).map (·.2) ∧
      (points.foldl addScore (scores, added)).2 = added + (newTo scores points).length := by
  induction points generalizing scores added with
  | nil => exact ⟨(List.append_nil _).symm, rfl⟩
  | cons point rest ih =>
    obtain ⟨fresh, distinct⟩ := List.nodup_cons.mp distinct
    have keys := scores.keys_insert point.2 point.1
    -- the members of the rest are not that of the first point
    have later : newTo (scores.insert point.2 point.1) rest = newTo scores rest := by
      refine List.filter_congr fun p inside => ?_
      have apart : p.2 ≠ point.2 := fun same => fresh (List.mem_map.mpr ⟨p, inside, same⟩)
      rw [keys]
      split <;> simp [apart]
    have known : scores.contains point.2 = true ↔ point.2 ∈ scores.keys := by
      rw [Table.contains_iff, Table.mem_keys_iff]
    rw [List.foldl_cons]
    by_cases old : point.2 ∈ scores.keys
    · have step : addScore (scores, added) point = (scores.insert point.2 point.1, added) := by
        simp [addScore, known.mpr old]
      have none : newTo scores (point :: rest) = newTo scores rest :=
        List.filter_cons_of_neg (by simpa using old)
      rw [if_pos old] at keys
      rw [step, none, ← later, ← keys]
      exact ih distinct added
    · have step : addScore (scores, added) point = (scores.insert point.2 point.1, added + 1) := by
        simp [addScore, mt known.mp old]
      have one : newTo scores (point :: rest) = point :: newTo scores rest :=
        List.filter_cons_of_pos (by simpa using old)
      rw [if_neg old] at keys
      obtain ⟨members, counted⟩ := @ih (scores.insert point.2 point.1) distinct (added + 1)
      rw [step, one, members, counted, later, keys, List.map_cons, List.length_cons]
      exact ⟨List.append_assoc .., by omega⟩

/-- Members that are new come behind the others, and they are counted. -/
theorem addScores_keys {scores : Table String Binary64} {points : List (Binary64 × String)}
    (distinct : (points.map (·.2)).Nodup) :
    (addScores scores points).1.keys = scores.keys ++ (newTo scores points).map (·.2) ∧
      (addScores scores points).2 = (newTo scores points).length := by
  have := @foldl_addScore_keys scores points distinct 0
  rwa [Nat.zero_add] at this

end Server

namespace Remote

open Server (Attempt Attempts Command Keyspace Reply Runs)

/-! ## The sets of a series -/

/-- The entries of the set of a bucket; a key that holds something else counts as the empty set. -/
def entriesAt (ks : Keyspace) (ref : SeriesRef) (bucket : UInt64) : List (String × Binary64) :=
  match ks.sortedSet? (Key.data ref bucket) with
  | .ok scores => scores.entries
  | .error _ => []

/-- The members of the set of a bucket. -/
def membersAt (ks : Keyspace) (ref : SeriesRef) (bucket : UInt64) : List String :=
  (entriesAt ks ref bucket).map (·.1)

/-- The stored points whose places are free. -/
def newPoints (ks : Keyspace) (ref : SeriesRef) (points : List StoredPoint) : List StoredPoint :=
  points.filter fun p => p.member ∉ membersAt ks ref p.bucket

/-- The points of a bucket, as its set takes them. -/
def scoredIn (bucket : UInt64) (points : List StoredPoint) : List (Binary64 × String) :=
  (points.filter (·.bucket = bucket)).map fun p => (p.score, p.member)

/-- The points of a bucket were put into its set. -/
def PutInto (ref : SeriesRef) (points : List StoredPoint) (ks last : Keyspace) (bucket : UInt64) :
    Prop :=
  ∃ scores, ks.sortedSet? (Key.data ref bucket) = .ok scores ∧
    last.sortedSet? (Key.data ref bucket) =
      .ok (Server.addScores scores (scoredIn bucket points)).1

theorem mem_of_mem_newPoints {ks : Keyspace} {ref : SeriesRef} {points : List StoredPoint}
    {p : StoredPoint} (h : p ∈ newPoints ks ref points) : p ∈ points :=
  List.mem_of_mem_filter h

section Sets

variable {ks ks' last last' : Keyspace} {ref : SeriesRef} {bucket : UInt64}
  {points : List StoredPoint} {scores : Table String Binary64}

theorem entriesAt_eq (found : ks.sortedSet? (Key.data ref bucket) = .ok scores) :
    entriesAt ks ref bucket = scores.entries := by
  unfold entriesAt
  rw [found]

theorem membersAt_eq (found : ks.sortedSet? (Key.data ref bucket) = .ok scores) :
    membersAt ks ref bucket = scores.keys := by
  unfold membersAt
  rw [entriesAt_eq found]
  rfl

theorem entriesAt_congr
    (same : ks'.sortedSet? (Key.data ref bucket) = ks.sortedSet? (Key.data ref bucket)) :
    entriesAt ks' ref bucket = entriesAt ks ref bucket := by
  unfold entriesAt
  rw [same]

theorem PutInto.congr (h : PutInto ref points ks last bucket)
    (before : ks'.sortedSet? (Key.data ref bucket) = ks.sortedSet? (Key.data ref bucket))
    (after : last'.sortedSet? (Key.data ref bucket) = last.sortedSet? (Key.data ref bucket)) :
    PutInto ref points ks' last' bucket := by
  obtain ⟨scores, found, found'⟩ := h
  exact ⟨scores, before.trans found, after.trans found'⟩

/-- What is new of a bucket depends on its set only. -/
theorem newPoints_filter_congr
    (same : ks'.sortedSet? (Key.data ref bucket) = ks.sortedSet? (Key.data ref bucket)) :
    (newPoints ks' ref points).filter (·.bucket = bucket) =
      (newPoints ks ref points).filter (·.bucket = bucket) := by
  unfold newPoints
  rw [List.filter_filter, List.filter_filter]
  refine List.filter_congr fun p _ => ?_
  by_cases here : p.bucket = bucket
  · subst here
    unfold membersAt
    rw [entriesAt_congr same]
  · simp [here]

/-- The points of a bucket that are new to its set. -/
theorem newTo_scoredIn (found : ks.sortedSet? (Key.data ref bucket) = .ok scores) :
    Server.newTo scores (scoredIn bucket points) = scoredIn bucket (newPoints ks ref points) := by
  unfold Server.newTo scoredIn newPoints
  rw [List.filter_map, List.filter_filter, List.filter_filter]
  congr 1
  refine List.filter_congr fun p _ => ?_
  by_cases here : p.bucket = bucket
  · subst here
    simp [membersAt_eq found]
  · simp [here]

/-- Different places are different members of the set of a bucket. -/
theorem nodup_scoredIn (places : (points.map placeOf).Nodup) (bucket : UInt64) :
    ((scoredIn bucket points).map (·.2)).Nodup := by
  rw [scoredIn, List.map_map]
  exact nodup_members places bucket

end Sets

/-! ## Attempts at the commands for a batch -/

theorem attempt_addPoints {required key : String} {points : List (Binary64 × String)}
    {ks mid : Keyspace} {reply : Except String Reply}
    (h : Attempt required (.addPoints key points) ks reply mid) :
    (∃ text, reply = .error text ∧ mid = ks) ∨
      ∃ scores, ks.sortedSet? key = .ok scores ∧
        reply = .ok (.integer (Server.addScores scores points).2) ∧
        mid.sortedSet? key = .ok (Server.addScores scores points).1 := by
  cases h with
  | refused text => exact Or.inl ⟨text, rfl, rfl⟩
  | executed run =>
    cases found : ks.sortedSet? key with
    | error text =>
      simp only [Server.exec, found] at run
      cases run
    | ok scores =>
      obtain ⟨ks', added, after⟩ := exec_addPoints required found points
      rw [added] at run
      obtain ⟨counted, rfl⟩ := Prod.mk.inj run
      exact Or.inr ⟨scores, rfl, counted.symm, after⟩

theorem attempt_expireAt {required key : String} {second : UInt64} {ks last : Keyspace}
    {reply : Except String Reply} (h : Attempt required (.expireAt key second) ks reply last) :
    last.sortedSet? key = ks.sortedSet? key := by
  cases h with
  | refused text => rfl
  | executed run =>
    obtain ⟨n, ks', ended, kept⟩ := exec_expireAt required ks key second
    rw [ended] at run
    obtain ⟨_, rfl⟩ := Prod.mk.inj run
    exact kept

/-- What becomes of the set of a bucket: nothing, or its points are put into it.  If nothing is
refused they are, and it is reported how many are new. -/
theorem attempts_bucket {required : String} {m : SeriesMetadata} {points : List StoredPoint}
    (places : (points.map placeOf).Nodup) (bucket : UInt64) {ks last : Keyspace}
    {replies : List (Except String Reply)}
    (h : Attempts required ((bucketCommands m points bucket).map (·.command)) ks replies last) :
    (last.sortedSet? (Key.data m.ref bucket) = ks.sortedSet? (Key.data m.ref bucket) ∨
        PutInto m.ref points ks last bucket) ∧
      ∀ found, Server.gather replies = .ok found → PutInto m.ref points ks last bucket ∧
        reportedTotal ((bucketCommands m points bucket).zip found) =
          .ok ((newPoints ks m.ref points).filter (·.bucket = bucket)).length := by
  have distinct := nodup_scoredIn places bucket
  have count : ∀ scores, ks.sortedSet? (Key.data m.ref bucket) = .ok scores →
      (Server.addScores scores (scoredIn bucket points)).2 =
        ((newPoints ks m.ref points).filter (·.bucket = bucket)).length := by
    intro scores found
    rw [(Server.addScores_keys distinct).2, newTo_scoredIn found]
    exact List.length_map _
  unfold bucketCommands at h ⊢
  dsimp only at h ⊢
  cases expiry : m.expireAt with
  | none =>
    rw [expiry] at h
    cases h with
    | step first rest =>
      cases rest
      obtain ⟨text, rfl, rfl⟩ | ⟨scores, before, rfl, after⟩ := attempt_addPoints first
      · exact ⟨Or.inl rfl, fun found gathered => by cases gathered⟩
      · have put : PutInto m.ref points ks last bucket := ⟨scores, before, after⟩
        refine ⟨Or.inr put, fun found gathered => ⟨put, ?_⟩⟩
        obtain rfl := Except.ok.inj gathered
        rw [← count scores before]
        rfl
  | some second =>
    rw [expiry] at h
    cases h with
    | step first rest =>
      cases rest with
      | step ended rest =>
        cases rest
        have kept := attempt_expireAt ended
        obtain ⟨text, rfl, rfl⟩ | ⟨scores, before, rfl, after⟩ := attempt_addPoints first
        · exact ⟨Or.inl kept, fun found gathered => by cases gathered⟩
        · have put : PutInto m.ref points ks last bucket := ⟨scores, before, kept.trans after⟩
          refine ⟨Or.inr put, fun found gathered => ⟨put, ?_⟩⟩
          obtain ⟨_, _, counted, others, rfl⟩ := Server.gather_cons gathered
          obtain ⟨reply, _, _, none, rfl⟩ := Server.gather_cons others
          obtain rfl := Except.ok.inj none
          obtain rfl := Except.ok.inj counted
          rw [← count scores before]
          rfl

/-- What becomes of the sets of some buckets, in the same way. -/
theorem attempts_buckets {required : String} {m : SeriesMetadata} {points : List StoredPoint}
    (places : (points.map placeOf).Nodup) {buckets : List UInt64} (nodup : buckets.Nodup)
    {ks last : Keyspace} {replies : List (Except String Reply)}
    (h : Attempts required ((buckets.flatMap (bucketCommands m points)).map (·.command)) ks replies
      last) :
    (∀ bucket, last.sortedSet? (Key.data m.ref bucket) = ks.sortedSet? (Key.data m.ref bucket) ∨
        bucket ∈ buckets ∧ PutInto m.ref points ks last bucket) ∧
      ∀ found, Server.gather replies = .ok found →
        (∀ bucket ∈ buckets, PutInto m.ref points ks last bucket) ∧
        reportedTotal ((buckets.flatMap (bucketCommands m points)).zip found) =
          .ok (buckets.map fun bucket =>
            ((newPoints ks m.ref points).filter (·.bucket = bucket)).length).sum := by
  induction buckets generalizing ks replies with
  | nil =>
    cases h
    exact ⟨fun _ => Or.inl rfl, fun found gathered => ⟨nofun, rfl⟩⟩
  | cons bucket rest ih =>
    obtain ⟨fresh, nodup⟩ := List.nodup_cons.mp nodup
    rw [List.flatMap_cons, List.map_append] at h
    obtain ⟨first, others, mid, rfl, attempted, attempts⟩ := h.split
    obtain ⟨here, counted⟩ := attempts_bucket places bucket attempted
    obtain ⟨there, counted'⟩ := ih nodup attempts
    -- the sets of the other buckets are those of before, and this one is not changed later
    have before : ∀ b, b ≠ bucket →
        mid.sortedSet? (Key.data m.ref b) = ks.sortedSet? (Key.data m.ref b) := by
      intro b apart
      refine sortedSet?_congr (attempted.get?_eq fun command inside changes => ?_)
      obtain ⟨staged, hstaged, rfl⟩ := List.mem_map.mp inside
      exact data_ne apart.symm (changes_bucketCommands hstaged changes)
    have after : last.sortedSet? (Key.data m.ref bucket) =
        mid.sortedSet? (Key.data m.ref bucket) := by
      refine sortedSet?_congr (attempts.get?_eq fun command inside changes => ?_)
      obtain ⟨b, hb, same⟩ := changes_buckets inside changes
      exact data_ne (fun equal => fresh (by rwa [← equal])) same
    refine ⟨fun b => ?_, fun found gathered => ?_⟩
    · by_cases same : b = bucket
      · subst same
        exact here.imp after.trans fun put =>
          ⟨List.mem_cons_self, put.congr rfl after⟩
      · exact (there b).imp (·.trans (before b same)) fun ⟨inside, put⟩ =>
          ⟨List.mem_cons_of_mem _ inside, put.congr (before b same).symm rfl⟩
    · obtain ⟨some, more, hsome, hmore, rfl⟩ := Server.gather_append gathered
      obtain ⟨put, total⟩ := counted some hsome
      obtain ⟨puts, total'⟩ := counted' more hmore
      refine ⟨List.forall_mem_cons.mpr ⟨put.congr rfl after, fun b inside => ?_⟩, ?_⟩
      · exact (puts b inside).congr (before b (fun same => fresh (by rwa [← same]))).symm rfl
      · have size : (bucketCommands m points bucket).length = some.length := by
          rw [Server.length_gather hsome, attempted.length_replies, List.length_map]
        have same : (rest.map fun b => ((newPoints mid m.ref points).filter (·.bucket = b)).length) =
            rest.map fun b => ((newPoints ks m.ref points).filter (·.bucket = b)).length := by
          refine List.map_congr_left fun b inside => ?_
          rw [newPoints_filter_congr (before b fun same => fresh (by rwa [← same]))]
        rw [List.flatMap_cons, List.zip_append size, List.map_cons, List.sum_cons, ← same]
        exact reportedTotal_append total total'

/-! ## What a batch adds -/

/-- What the points of `added` brought to the sets of a series: their members stand behind those of
before, an entry is one of before or that of a point of the batch, and what was a set is one. -/
structure Grown (ks last : Keyspace) (ref : SeriesRef) (batch added : List StoredPoint) : Prop where
  members : ∀ bucket, membersAt last ref bucket =
    membersAt ks ref bucket ++ (added.filter (·.bucket = bucket)).map (·.member)
  entries : ∀ bucket, ∀ entry ∈ entriesAt last ref bucket, entry ∈ entriesAt ks ref bucket ∨
    entry ∈ entriesIn bucket batch
  sets : ∀ bucket scores, ks.sortedSet? (Key.data ref bucket) = .ok scores →
    ∃ scores', last.sortedSet? (Key.data ref bucket) = .ok scores'

theorem grown_self (ks : Keyspace) (ref : SeriesRef) (batch : List StoredPoint) :
    Grown ks ks ref batch [] :=
  ⟨fun _ => (List.append_nil _).symm, fun _ _ inside => Or.inl inside, fun _ => Exists.intro⟩

theorem Grown.trans {ks mid last : Keyspace} {ref : SeriesRef}
    {batch batch' added added' : List StoredPoint} (h : Grown ks mid ref batch added)
    (h' : Grown mid last ref batch' added') :
    Grown ks last ref (batch ++ batch') (added ++ added') where
  members bucket := by
    rw [h'.members, h.members, List.filter_append, List.map_append, List.append_assoc]
  entries bucket entry inside := by
    have split : entriesIn bucket (batch ++ batch') =
        entriesIn bucket batch ++ entriesIn bucket batch' := by
      rw [entriesIn, List.filter_append, List.map_append]
      rfl
    rw [split, List.mem_append]
    obtain old | new := h'.entries bucket entry inside
    · exact (h.entries bucket entry old).imp_right Or.inl
    · exact Or.inr (Or.inr new)
  sets bucket scores found := by
    obtain ⟨scores', found'⟩ := h.sets bucket scores found
    exact h'.sets bucket scores' found'

/-- Points of a batch, gathered bucket by bucket. -/
theorem perm_bucketsOf {points some : List StoredPoint} (part : ∀ p ∈ some, p ∈ points) :
    ((bucketsOf points).flatMap fun bucket => some.filter (·.bucket = bucket)).Perm some := by
  have all : some.filter (fun p => decide (p.bucket ∈ bucketsOf points)) = some :=
    List.filter_eq_self.mpr fun p hp =>
      decide_eq_true (mem_bucketsOf.mpr ⟨p, part p hp, rfl⟩)
  have gathered := perm_flatMap_filter (·.bucket) some (nodup_bucketsOf points)
  rwa [all] at gathered

/-- The sizes of a batch in its buckets add up. -/
theorem sum_length_filter {points some : List StoredPoint} (part : ∀ p ∈ some, p ∈ points) :
    ((bucketsOf points).map fun bucket => (some.filter (·.bucket = bucket)).length).sum =
      some.length := by
  rw [← List.length_flatMap]
  exact (perm_bucketsOf part).length_eq

/-- The commands for a batch of stored points. -/
def batchCommands (m : SeriesMetadata) (stored : List StoredPoint) : List StagedCommand :=
  (bucketsOf stored).flatMap (bucketCommands m stored)

theorem stagePoints_eq (m : SeriesMetadata) (draws : Draws) (times : List UInt64)
    (values : List Binary64) :
    stagePoints m draws times values =
      (encodePoints draws 0 [] (times.zip values)).map (batchCommands m) := rfl

theorem expectedTotal_bucketCommands (m : SeriesMetadata) (points : List StoredPoint)
    (bucket : UInt64) :
    expectedTotal (bucketCommands m points bucket) = (points.filter (·.bucket = bucket)).length := by
  unfold bucketCommands
  cases m.expireAt <;> rfl

/-- The commands for a batch should report all of its points as new. -/
theorem expectedTotal_batch (m : SeriesMetadata) (points : List StoredPoint) :
    expectedTotal (batchCommands m points) = points.length := by
  unfold batchCommands
  rw [← @sum_length_filter points points fun _ hp => hp]
  induction bucketsOf points with
  | nil => rfl
  | cons bucket rest ih =>
    rw [List.flatMap_cons, expectedTotal_append, ih, expectedTotal_bucketCommands, List.map_cons,
      List.sum_cons]

/-- What a batch adds to the sets of a series when some of its commands may be refused: some of its
points with free places, and all of them if nothing is refused. -/
theorem attempts_batch {required : String} {m : SeriesMetadata} {points : List StoredPoint}
    (places : (points.map placeOf).Nodup) {ks last : Keyspace}
    {replies : List (Except String Reply)}
    (h : Attempts required ((batchCommands m points).map (·.command)) ks replies last) :
    ∃ added, added.Sublist points ∧ Grown ks last m.ref points added ∧
      ∀ found, Server.gather replies = .ok found → added = newPoints ks m.ref points ∧
        reportedTotal ((batchCommands m points).zip found) = .ok added.length := by
  classical
  obtain ⟨sets, counted⟩ := attempts_buckets places (nodup_bucketsOf points) h
  let done (p : StoredPoint) : Bool := decide (PutInto m.ref points ks last p.bucket)
  have chosen : ∀ bucket, PutInto m.ref points ks last bucket →
      ((newPoints ks m.ref points).filter done).filter (·.bucket = bucket) =
        (newPoints ks m.ref points).filter (·.bucket = bucket) := by
    intro bucket put
    rw [List.filter_filter]
    refine List.filter_congr fun p _ => ?_
    by_cases here : p.bucket = bucket
    · simp [done, here, put]
    · simp [here]
  have left : ∀ bucket, ¬ PutInto m.ref points ks last bucket →
      ((newPoints ks m.ref points).filter done).filter (·.bucket = bucket) = [] := by
    intro bucket unput
    rw [List.filter_filter, List.filter_eq_nil_iff]
    rintro p _ both
    simp only [done, Bool.and_eq_true, decide_eq_true_eq] at both
    exact unput (both.1 ▸ both.2)
  refine ⟨(newPoints ks m.ref points).filter done,
    List.filter_sublist.trans List.filter_sublist,
    ⟨fun bucket => ?_, fun bucket entry => ?_, fun bucket scores before => ?_⟩,
    fun found gathered => ?_⟩
  · by_cases put : PutInto m.ref points ks last bucket
    · obtain ⟨scores, before, after⟩ := id put
      rw [chosen bucket put, membersAt_eq after, membersAt_eq before,
        (Server.addScores_keys (nodup_scoredIn places bucket)).1, newTo_scoredIn before, scoredIn,
        List.map_map]
      rfl
    · rw [left bucket put, membersAt, entriesAt_congr ((sets bucket).resolve_right fun h => put h.2)]
      exact (List.append_nil _).symm
  · intro inside
    obtain same | ⟨_, scores, before, after⟩ := sets bucket
    · rw [entriesAt_congr same] at inside
      exact Or.inl inside
    · rw [entriesAt_eq after] at inside
      rw [entriesAt_eq before]
      refine (Server.mem_addScores inside).imp_right fun new => ?_
      obtain ⟨p, hp, same⟩ := List.mem_map.mp new
      obtain ⟨score, member⟩ := Prod.mk.inj same
      exact List.mem_map.mpr ⟨p, hp, Prod.ext member score⟩
  · obtain same | ⟨_, _, _, after⟩ := sets bucket
    · exact ⟨scores, same.trans before⟩
    · exact ⟨_, after⟩
  · obtain ⟨put, total⟩ := counted found gathered
    have all : (newPoints ks m.ref points).filter done = newPoints ks m.ref points :=
      List.filter_eq_self.mpr fun p hp => decide_eq_true
        (put p.bucket (mem_bucketsOf.mpr ⟨p, mem_of_mem_newPoints hp, rfl⟩))
    refine ⟨all, ?_⟩
    unfold batchCommands
    rw [total, sum_length_filter fun p hp => mem_of_mem_newPoints hp, all]

/-- What a batch adds where nothing is refused: its points with free places, which are counted. -/
theorem runs_batch (required : String) (m : SeriesMetadata) {points : List StoredPoint}
    (places : (points.map placeOf).Nodup) {ks : Keyspace}
    (sets : ∀ bucket, ∃ scores, ks.sortedSet? (Key.data m.ref bucket) = .ok scores) :
    ∃ replies last,
      Runs required ((batchCommands m points).map (·.command)) ks replies last ∧
      reportedTotal ((batchCommands m points).zip replies) =
        .ok (newPoints ks m.ref points).length ∧
      Grown ks last m.ref points (newPoints ks m.ref points) := by
  obtain ⟨replies, last, _, runs, _⟩ :=
    runs_buckets required m points (nodup_bucketsOf points) fun bucket _ => sets bucket
  obtain ⟨added, _, grown, counted⟩ := attempts_batch places runs.attempts
  obtain ⟨rfl, total⟩ := counted replies (Server.gather_map_ok replies)
  exact ⟨replies, last, runs, total, grown⟩

end Remote

end SeriesStorage
