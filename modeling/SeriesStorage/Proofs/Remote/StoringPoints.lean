import SeriesStorage.Proofs.Point.StoredPoints
import SeriesStorage.Proofs.Remote.Creation

/-!
# Storing points

The sets of a series, one for each bucket, hold points if each of them has its entry in the set of
its bucket, in the order of their writing (`HoldsPoints`).  A batch of points is stored, or it is
found that an entry is there already, and the write fails (`Reaches.append`).

* `addScores_spec`: entries that are all counted come behind the others.
* `runs_buckets`: what the commands for some buckets report and leave.
-/

namespace SeriesStorage

namespace Server

/-! ## Entries of a sorted set -/

theorem entries_insert_new {κ α : Type} [DecidableEq κ] {t : Table κ α} {k : κ}
    (absent : t.get? k = none) (a : α) : (t.insert k a).entries = t.entries ++ [(k, a)] := by
  obtain ⟨entries⟩ := t
  change Table.lookup k entries = none at absent
  show Table.put k a entries = entries ++ [(k, a)]
  induction entries with
  | nil => rfl
  | cons entry rest ih =>
    obtain ⟨key, value⟩ := entry
    rw [Table.lookup] at absent
    split at absent
    · cases absent
    · next other => rw [Table.put, if_neg other, ih absent, List.cons_append]

/-- The entries that points become. -/
def entriesOf (points : List (Binary64 × String)) : List (String × Binary64) :=
  points.map fun (score, member) => (member, score)

/-- Puts one member with its score into a sorted set and counts it if it is new. -/
def addScore (counted : Table String Binary64 × Nat) (point : Binary64 × String) :
    Table String Binary64 × Nat :=
  (counted.1.insert point.2 point.1,
    if counted.1.contains point.2 then counted.2 else counted.2 + 1)

theorem foldl_addScore (scores : Table String Binary64) (added : Nat)
    (points : List (Binary64 × String)) :
    (points.foldl addScore (scores, added)).2 ≤ added + points.length ∧
      ((points.foldl addScore (scores, added)).2 = added + points.length →
        (points.foldl addScore (scores, added)).1.entries =
          scores.entries ++ entriesOf points) := by
  induction points generalizing scores added with
  | nil => simp [entriesOf]
  | cons point rest ih =>
    rw [List.foldl_cons, List.length_cons]
    cases absent : scores.get? point.2 with
    | some _ =>
      -- an entry that was there is never made up for
      have step : addScore (scores, added) point = (scores.insert point.2 point.1, added) := by
        simp [addScore, Table.contains, absent]
      rw [step]
      have := (ih (scores.insert point.2 point.1) added).1
      exact ⟨by omega, fun all => by omega⟩
    | none =>
      have step : addScore (scores, added) point = (scores.insert point.2 point.1, added + 1) := by
        simp [addScore, Table.contains, absent]
      rw [step]
      obtain ⟨counted, appended⟩ := ih (scores.insert point.2 point.1) (added + 1)
      refine ⟨by omega, fun all => ?_⟩
      rw [appended (by omega), entries_insert_new absent, List.append_assoc]
      rfl

/-- At most all points are counted as new; if all are, their entries come behind the others. -/
theorem addScores_spec (scores : Table String Binary64) (points : List (Binary64 × String)) :
    (addScores scores points).2 ≤ points.length ∧
      ((addScores scores points).2 = points.length →
        (addScores scores points).1.entries = scores.entries ++ entriesOf points) := by
  have := foldl_addScore scores 0 points
  rwa [Nat.zero_add] at this

/-- Different members that are not there yet are all counted as new. -/
theorem addScores_new {scores : Table String Binary64} {points : List (Binary64 × String)}
    (distinct : (points.map (·.2)).Nodup) (absent : ∀ point ∈ points, scores.get? point.2 = none) :
    (addScores scores points).2 = points.length := by
  suffices ∀ added, (points.foldl addScore (scores, added)).2 = added + points.length by
    rw [← Nat.zero_add points.length]
    exact this 0
  induction points generalizing scores with
  | nil => exact fun _ => rfl
  | cons point rest ih =>
    intro added
    obtain ⟨fresh, distinct⟩ := List.nodup_cons.mp distinct
    have step : addScore (scores, added) point = (scores.insert point.2 point.1, added + 1) := by
      simp [addScore, Table.contains, absent point List.mem_cons_self]
    rw [List.foldl_cons, List.length_cons, step, ih distinct]
    · omega
    · intro other inside
      rw [Table.get?_insert, if_neg]
      · exact absent other (List.mem_cons_of_mem _ inside)
      · exact fun same => fresh (List.mem_map.mpr ⟨other, inside, same.symm⟩)

/-- Whatever is in a set after points were added was there, or is one of them. -/
theorem mem_addScores {scores : Table String Binary64} {points : List (Binary64 × String)}
    {entry : String × Binary64} (h : entry ∈ (addScores scores points).1.entries) :
    entry ∈ scores.entries ∨ (entry.2, entry.1) ∈ points := by
  suffices ∀ added, entry ∈ (points.foldl addScore (scores, added)).1.entries →
      entry ∈ scores.entries ∨ (entry.2, entry.1) ∈ points from this 0 h
  clear h
  induction points generalizing scores with
  | nil => exact fun _ => Or.inl
  | cons point rest ih =>
    intro added inside
    rcases ih _ inside with old | new
    · rcases Table.mem_insert old with rfl | old
      · exact Or.inr List.mem_cons_self
      · exact Or.inl old
    · exact Or.inr (List.mem_cons_of_mem _ new)

end Server

namespace Remote

open Server (Command Keyspace Network Node Reply Runs)

/-! ## The points of a series -/

/-- An entry stands for a point: its score is a key of the timestamp, its member gives the value. -/
structure StandsFor (point : UInt64 × Binary64) (entry : String × Binary64) : Prop where
  score : IsKeyOf point.1 entry.2
  member : decodeMember entry.1 = .ok point.2.canonical

/-- The points among others that belong to a bucket. -/
def inBucket (bucket : UInt64) (points : List (UInt64 × Binary64)) : List (UInt64 × Binary64) :=
  points.filter fun p => bucketOf p.1 = bucket

/-- The sets of a series hold these points, in the order of their writing. -/
def HoldsPoints (ks : Keyspace) (ref : SeriesRef) (points : List (UInt64 × Binary64)) : Prop :=
  ∀ bucket, ∃ scores, ks.sortedSet? (Key.data ref bucket) = .ok scores ∧
    List.Forall₂ StandsFor (inBucket bucket points) scores.entries

theorem sortedSet?_congr {ks ks' : Keyspace} {key : String} (h : ks'.get? key = ks.get? key) :
    ks'.sortedSet? key = ks.sortedSet? key := by
  unfold Keyspace.sortedSet?
  rw [h]

theorem holdsPoints_nil {ks : Keyspace} {ref : SeriesRef}
    (unused : ∀ bucket, ks.get? (Key.data ref bucket) = none) : HoldsPoints ks ref [] := by
  intro bucket
  refine ⟨.empty, ?_, .nil⟩
  unfold Keyspace.sortedSet?
  rw [unused]

/-- What holds points are sets. -/
theorem HoldsPoints.sets {ks : Keyspace} {ref : SeriesRef} {points : List (UInt64 × Binary64)}
    (h : HoldsPoints ks ref points) (bucket : UInt64) :
    ∃ scores, ks.sortedSet? (Key.data ref bucket) = .ok scores := by
  obtain ⟨scores, found, _⟩ := h bucket
  exact ⟨scores, found⟩

theorem HoldsPoints.congr {ks ks' : Keyspace} {ref : SeriesRef} {points : List (UInt64 × Binary64)}
    (h : HoldsPoints ks ref points)
    (same : ∀ bucket, ks'.get? (Key.data ref bucket) = ks.get? (Key.data ref bucket)) :
    HoldsPoints ks' ref points := by
  intro bucket
  obtain ⟨scores, found, stands⟩ := h bucket
  exact ⟨scores, (sortedSet?_congr (same bucket)).trans found, stands⟩

theorem data_ne {ref : SeriesRef} {bucket bucket' : UInt64} (h : bucket ≠ bucket') :
    Key.data ref bucket ≠ Key.data ref bucket' :=
  @KeyName.text_ne (.data ref bucket) (.data ref bucket') (by simpa using h)

/-! ## Adding the points of a bucket -/

/-- The entries of stored points. -/
def entriesIn (bucket : UInt64) (points : List StoredPoint) : List (String × Binary64) :=
  (points.filter (·.bucket = bucket)).map fun p => (p.member, p.score)

/-- The entries of stored points came behind those of before, for some buckets. -/
def Appended (ref : SeriesRef) (points : List StoredPoint) (buckets : List UInt64)
    (ks ks' : Keyspace) : Prop :=
  ∀ bucket ∈ buckets, ∀ scores, ks.sortedSet? (Key.data ref bucket) = .ok scores →
    ∃ scores', ks'.sortedSet? (Key.data ref bucket) = .ok scores' ∧
      scores'.entries = scores.entries ++ entriesIn bucket points

/-- The members of stored points for a bucket are different, and none is in its set. -/
def AllNew (ks : Keyspace) (ref : SeriesRef) (points : List StoredPoint) (bucket : UInt64) : Prop :=
  ((points.filter (·.bucket = bucket)).map (·.member)).Nodup ∧
    ∀ scores, ks.sortedSet? (Key.data ref bucket) = .ok scores →
      ∀ p ∈ points, p.bucket = bucket → scores.get? p.member = none

/-- The set at a key keeps its entries whatever is said about its end. -/
theorem exec_expireAt (required : String) (ks : Keyspace) (key : String) (second : UInt64) :
    ∃ n ks', Server.exec required (.expireAt key second) ks = (.ok (.integer n), ks') ∧
      ks'.sortedSet? key = ks.sortedSet? key := by
  simp only [Server.exec]
  cases found : ks.get? key with
  | none => exact ⟨0, ks, rfl, rfl⟩
  | some entry =>
    refine ⟨1, _, rfl, ?_⟩
    unfold Keyspace.sortedSet?
    rw [Table.get?_insert, if_pos rfl, found]
    obtain ⟨value, _, _⟩ := entry
    cases value <;> rfl

theorem exec_addPoints (required : String) {ks : Keyspace} {key : String}
    {scores : Table String Binary64} (found : ks.sortedSet? key = .ok scores)
    (points : List (Binary64 × String)) :
    ∃ ks', Server.exec required (.addPoints key points) ks =
        (.ok (.integer (Server.addScores scores points).2), ks') ∧
      ks'.sortedSet? key = .ok (Server.addScores scores points).1 := by
  refine ⟨ks.setValue key (.sortedSet (Server.addScores scores points).1), ?_, ?_⟩
  · simp only [Server.exec, found]
  · unfold Keyspace.sortedSet?
    rw [Server.Keyspace.get?_setValue, if_pos rfl]

/-- The commands for a bucket report how many entries are new; exactly if all are they are appended. -/
theorem runs_bucket (required : String) (m : SeriesMetadata) (points : List StoredPoint)
    (bucket : UInt64) {ks : Keyspace} {scores : Table String Binary64}
    (found : ks.sortedSet? (Key.data m.ref bucket) = .ok scores) :
    ∃ replies last n,
      Runs required ((bucketCommands m points bucket).map (·.command)) ks replies last ∧
      reportedTotal ((bucketCommands m points bucket).zip replies) = .ok n ∧
      n ≤ expectedTotal (bucketCommands m points bucket) ∧
      (n = expectedTotal (bucketCommands m points bucket) →
        Appended m.ref points [bucket] ks last) ∧
      (AllNew ks m.ref points bucket → n = expectedTotal (bucketCommands m points bucket)) := by
  let chosen := points.filter (·.bucket = bucket)
  let adds := chosen.map fun p => (p.score, p.member)
  have entries : Server.entriesOf adds = entriesIn bucket points := by
    simp [Server.entriesOf, adds, chosen, entriesIn]
  have size : adds.length = chosen.length := List.length_map _
  obtain ⟨mid, added, found'⟩ := exec_addPoints required found adds
  obtain ⟨counted, appended⟩ := Server.addScores_spec scores adds
  rw [entries] at appended
  have all : ∀ last : Keyspace, last.sortedSet? (Key.data m.ref bucket) =
      mid.sortedSet? (Key.data m.ref bucket) →
      (Server.addScores scores adds).2 = adds.length → Appended m.ref points [bucket] ks last := by
    intro last kept full b hb scores' before
    obtain rfl := List.mem_singleton.mp hb
    obtain rfl := Except.ok.inj (found.symm.trans before)
    exact ⟨_, kept.trans found', appended full⟩
  have counts : AllNew ks m.ref points bucket →
      (Server.addScores scores adds).2 = chosen.length + 0 := by
    rintro ⟨distinct, absent⟩
    rw [Server.addScores_new, size, Nat.add_zero]
    · rwa [List.map_map]
    · intro point inside
      obtain ⟨p, hp, rfl⟩ := List.mem_map.mp inside
      obtain ⟨hp, here⟩ := List.mem_filter.mp hp
      exact absent scores found p hp (of_decide_eq_true here)
  unfold bucketCommands
  cases m.expireAt with
  | none =>
    refine ⟨[.integer (Server.addScores scores adds).2], mid, (Server.addScores scores adds).2,
      .step added .done, rfl, ?_, fun full => all mid rfl ?_, counts⟩
    · show _ ≤ chosen.length + 0
      omega
    · change _ = chosen.length + 0 at full
      omega
  | some second =>
    obtain ⟨n, last, ended, kept⟩ := exec_expireAt required mid (Key.data m.ref bucket)
      (max (bucketEndSeconds bucket) second)
    refine ⟨[.integer (Server.addScores scores adds).2, .integer n], last,
      (Server.addScores scores adds).2, .step added (.step ended .done), rfl, ?_,
      fun full => all last kept ?_, counts⟩
    · show _ ≤ chosen.length + 0
      omega
    · change _ = chosen.length + 0 at full
      omega

/-- The commands for a bucket add points to its set, as many as are expected, or tell when it
ends. -/
theorem bucketCommands_cases {m : SeriesMetadata} {points : List StoredPoint} {bucket : UInt64}
    {staged : StagedCommand} (h : staged ∈ bucketCommands m points bucket) :
    (∃ added, staged = .checked (.addPoints (Key.data m.ref bucket) added) added.length) ∨
      ∃ second, staged = .unchecked (.expireAt (Key.data m.ref bucket) second) := by
  have adds : ∃ added, StagedCommand.checked (.addPoints (Key.data m.ref bucket)
      ((points.filter (·.bucket = bucket)).map fun p => (p.score, p.member)))
      (points.filter (·.bucket = bucket)).length =
        .checked (.addPoints (Key.data m.ref bucket) added) added.length :=
    ⟨_, by rw [List.length_map]⟩
  unfold bucketCommands at h
  cases expiry : m.expireAt with
  | none =>
    rw [expiry] at h
    obtain rfl := List.mem_singleton.mp h
    exact Or.inl adds
  | some second =>
    rw [expiry] at h
    rcases List.mem_cons.mp h with rfl | h
    · exact Or.inl adds
    · exact Or.inr ⟨_, List.mem_singleton.mp h⟩

/-- A staged batch consists of commands for buckets. -/
theorem stagePoints_cases {m : SeriesMetadata} {draws : Draws} {times : List UInt64}
    {values : List Binary64} {commands : List StagedCommand}
    (h : stagePoints m draws times values = .ok commands) : ∀ staged ∈ commands, ∃ bucket,
      (∃ added, staged = .checked (.addPoints (Key.data m.ref bucket) added) added.length) ∨
        ∃ second, staged = .unchecked (.expireAt (Key.data m.ref bucket) second) := by
  unfold stagePoints at h
  cases points : encodePoints draws 0 [] (times.zip values) with
  | error e =>
    rw [points] at h
    cases h
  | ok points' =>
    rw [points] at h
    obtain rfl := Except.ok.inj h
    intro staged inside
    obtain ⟨bucket, _, inside⟩ := List.mem_flatMap.mp inside
    exact ⟨bucket, bucketCommands_cases inside⟩

/-- The commands for a bucket change its set only. -/
theorem changes_bucketCommands {m : SeriesMetadata} {points : List StoredPoint} {bucket : UInt64}
    {staged : StagedCommand} (h : staged ∈ bucketCommands m points bucket) {key : String}
    (changes : staged.command.Changes key) : Key.data m.ref bucket = key := by
  obtain ⟨added, rfl⟩ | ⟨second, rfl⟩ := bucketCommands_cases h
  · exact changes
  · exact changes

/-- What the commands for some buckets change is one of their sets. -/
theorem changes_buckets {m : SeriesMetadata} {points : List StoredPoint} {buckets : List UInt64}
    {command : Command}
    (h : command ∈ (buckets.flatMap (bucketCommands m points)).map (·.command)) {key : String}
    (changes : command.Changes key) : ∃ bucket ∈ buckets, Key.data m.ref bucket = key := by
  obtain ⟨staged, hstaged, rfl⟩ := List.mem_map.mp h
  obtain ⟨bucket, hbucket, inside⟩ := List.mem_flatMap.mp hstaged
  exact ⟨bucket, hbucket, changes_bucketCommands inside changes⟩

/-! ## Adding the points of all buckets -/

/-- The commands for different buckets report how many entries are new, and if all are they are
appended. -/
theorem runs_buckets (required : String) (m : SeriesMetadata) (points : List StoredPoint)
    {buckets : List UInt64} (nodup : buckets.Nodup) {ks : Keyspace}
    (sets : ∀ bucket ∈ buckets, ∃ scores, ks.sortedSet? (Key.data m.ref bucket) = .ok scores) :
    ∃ replies last n,
      Runs required ((buckets.flatMap (bucketCommands m points)).map (·.command)) ks replies last ∧
      reportedTotal ((buckets.flatMap (bucketCommands m points)).zip replies) = .ok n ∧
      n ≤ expectedTotal (buckets.flatMap (bucketCommands m points)) ∧
      (n = expectedTotal (buckets.flatMap (bucketCommands m points)) →
        Appended m.ref points buckets ks last) ∧
      ((∀ bucket ∈ buckets, AllNew ks m.ref points bucket) →
        n = expectedTotal (buckets.flatMap (bucketCommands m points))) := by
  induction buckets generalizing ks with
  | nil => exact ⟨[], ks, 0, .done, rfl, Nat.le_refl 0, fun _ bucket hb => (by cases hb), fun _ => rfl⟩
  | cons bucket rest ih =>
    obtain ⟨fresh, nodup⟩ := List.nodup_cons.mp nodup
    obtain ⟨scores, found⟩ := sets bucket List.mem_cons_self
    obtain ⟨replies, mid, n, runs, total, most, appended, counts⟩ :=
      runs_bucket required m points bucket found
    -- the other sets are those of before
    have kept : ∀ b ∈ rest,
        mid.sortedSet? (Key.data m.ref b) = ks.sortedSet? (Key.data m.ref b) := by
      intro b hb
      refine sortedSet?_congr (runs.get?_eq fun command hc changes => ?_)
      obtain ⟨staged, hstaged, rfl⟩ := List.mem_map.mp hc
      have same := changes_bucketCommands hstaged changes
      refine data_ne ?_ same
      rintro rfl
      exact fresh hb
    have sets' : ∀ b ∈ rest, ∃ scores, mid.sortedSet? (Key.data m.ref b) = .ok scores := by
      intro b hb
      rw [kept b hb]
      exact sets b (List.mem_cons_of_mem _ hb)
    obtain ⟨replies', last, n', runs', total', most', appended', counts'⟩ := ih nodup sets'
    rw [List.flatMap_cons]
    refine ⟨replies ++ replies', last, n + n', ?_, ?_, ?_, fun all => ?_, fun new => ?_⟩
    · rw [List.map_append]
      exact runs.append runs'
    · have size := runs.length_replies
      rw [List.length_map] at size
      rw [List.zip_append size.symm]
      exact reportedTotal_append total total'
    · rw [expectedTotal_append]
      omega
    · rw [expectedTotal_append] at all
      intro b hb scores' before
      rcases List.mem_cons.mp hb with rfl | hb
      · obtain ⟨after, found', entries⟩ :=
          appended (by omega) b List.mem_cons_self scores' before
        refine ⟨after, ?_, entries⟩
        rw [← found']
        refine sortedSet?_congr (runs'.get?_eq fun command hc changes => ?_)
        obtain ⟨b', hb', same⟩ := changes_buckets hc changes
        refine data_ne ?_ same
        rintro rfl
        exact fresh hb'
      · exact appended' (by omega) b hb scores' ((kept b hb).trans before)
    · rw [expectedTotal_append, counts (new bucket List.mem_cons_self), counts' fun b hb => ?_]
      obtain ⟨distinct, absent⟩ := new b (List.mem_cons_of_mem _ hb)
      exact ⟨distinct, fun scores' found' => absent scores' ((kept b hb).symm.trans found')⟩

theorem nodup_eraseDups {α : Type} [DecidableEq α] (as : List α) : as.eraseDups.Nodup := by
  generalize size : as.length = n
  induction n using Nat.strongRecOn generalizing as with
  | ind n ih =>
    cases as with
    | nil => exact List.nodup_nil
    | cons a rest =>
      rw [List.eraseDups_cons, List.nodup_cons, List.mem_eraseDups]
      refine ⟨by simp, ih _ ?_ _ rfl⟩
      have := List.length_filter_le (fun b => !b == a) rest
      rw [← size, List.length_cons]
      omega

theorem nodup_bucketsOf (points : List StoredPoint) : (bucketsOf points).Nodup :=
  (List.mergeSort_perm _ _).nodup_iff.mpr (nodup_eraseDups _)

theorem mem_bucketsOf {points : List StoredPoint} {bucket : UInt64} :
    bucket ∈ bucketsOf points ↔ ∃ p ∈ points, p.bucket = bucket := by
  unfold bucketsOf
  rw [List.mem_mergeSort, List.mem_eraseDups, List.mem_map]

/-- The entries of a bucket stand for the points of the bucket. -/
theorem standsFor_entriesIn {batch : List (UInt64 × Binary64)} {points : List StoredPoint}
    (stored : List.Forall₂ (fun point p => StoredPoint.Of p point) batch points)
    (bucket : UInt64) :
    List.Forall₂ StandsFor (inBucket bucket batch) (entriesIn bucket points) := by
  induction stored with
  | nil => exact .nil
  | @cons point p _ _ first _ ih =>
    unfold inBucket entriesIn at ih ⊢
    by_cases here : p.bucket = bucket
    · have there : bucketOf point.1 = bucket := first.bucket.symm.trans here
      rw [List.filter_cons_of_pos (by simpa using there),
        List.filter_cons_of_pos (by simpa using here)]
      exact .cons ⟨first.score, first.member⟩ ih
    · have elsewhere : ¬ bucketOf point.1 = bucket := fun same => here (first.bucket.trans same)
      rw [List.filter_cons_of_neg (by simpa using elsewhere),
        List.filter_cons_of_neg (by simpa using here)]
      exact ih

/-- The points of a batch come behind those that were held before. -/
theorem HoldsPoints.append {ks last : Keyspace} {ref : SeriesRef}
    {accepted batch : List (UInt64 × Binary64)} {points : List StoredPoint}
    (h : HoldsPoints ks ref accepted)
    (stored : List.Forall₂ (fun point p => StoredPoint.Of p point) batch points)
    (appended : Appended ref points (bucketsOf points) ks last)
    (others : ∀ bucket, bucket ∉ bucketsOf points →
      last.get? (Key.data ref bucket) = ks.get? (Key.data ref bucket)) :
    HoldsPoints last ref (accepted ++ batch) := by
  intro bucket
  obtain ⟨scores, found, stands⟩ := h bucket
  have batchStands := standsFor_entriesIn stored bucket
  have split : inBucket bucket (accepted ++ batch) =
      inBucket bucket accepted ++ inBucket bucket batch := List.filter_append _ _
  by_cases written : bucket ∈ bucketsOf points
  · obtain ⟨scores', found', entries⟩ := appended bucket written scores found
    refine ⟨scores', found', ?_⟩
    rw [split, entries]
    exact List.rel_append stands batchStands
  · refine ⟨scores, (sortedSet?_congr (others bucket written)).trans found, ?_⟩
    have none_here : entriesIn bucket points = [] := by
      rw [entriesIn, List.map_eq_nil_iff, List.filter_eq_nil_iff]
      intro p hp here
      exact written (mem_bucketsOf.mpr ⟨p, hp, by simpa using here⟩)
    rw [none_here] at batchStands
    rw [split, List.forall₂_nil_right_iff.mp batchStands, List.append_nil]
    exact stands

/-- **A batch is stored.**  Or it lacks a free place, or some entry of it is there already. -/
theorem Reaches.append {site : Site Network} {connections : Connections} {ns : Namespace}
    {c : Connection} {node : Node} {m : SeriesMetadata} {accepted : List (UInt64 × Binary64)}
    (h : Reaches site connections ns c node)
    (connected : site.client.connections = some connections)
    (holds : HoldsPoints node.keyspace m.ref accepted) {req : RequestId}
    (direct : req.isEmpty = true) (draws : Draws) (times : List UInt64) (values : List Binary64) :
    (∃ time, (site.outcome (append ns req m draws times values)).answer =
      .error (.keySpaceExhausted time)) ∨
    (∃ expected stored, (site.outcome (append ns req m draws times values)).answer =
      .error (.internal (.writeCount expected stored))) ∨
    ∃ ks, site.outcome (append ns req m draws times values) =
        .succeed () (site.setKeys c.server ks) ∧
      HoldsPoints ks m.ref (accepted ++ times.zip values) ∧
      ∀ k : KeyName, (∀ bucket, k ≠ .data m.ref bucket) →
        ks.get? k.text = node.keyspace.get? k.text := by
  unfold Remote.append stagePoints
  rw [Site.outcome_bind, Site.outcome_connected connected, Outcome.andThen_succeed,
    Site.outcome_bind, Site.outcome_ofExcept]
  obtain ⟨points, encoded, stored⟩ | ⟨time, refused⟩ :=
    encodePoints_spec draws 0 [] (times.zip values)
  · rw [encoded]
    obtain ⟨replies, last, n, runs, total, _, appended, _⟩ :=
      runs_buckets node.password m points (nodup_bucketsOf points) fun bucket _ => holds.sets bucket
    rw [Outcome.andThen_eq_of_ok rfl, if_pos direct, Outcome.state_answered,
      h.execute_counted runs total]
    unfold checkCount
    split
    · exact Or.inr (Or.inl ⟨_, _, rfl⟩)
    · next all =>
      refine Or.inr (Or.inr ⟨last, rfl, ?_, fun k hk => ?_⟩)
      · refine holds.append stored (appended (by simpa using all)) fun bucket untouched => ?_
        refine runs.get?_eq fun command hc changes => ?_
        obtain ⟨b, hb, same⟩ := changes_buckets hc changes
        refine data_ne ?_ same
        rintro rfl
        exact untouched hb
      · refine runs.get?_eq fun command hc changes => ?_
        obtain ⟨b, _, same⟩ := changes_buckets hc changes
        exact @KeyName.text_ne (.data m.ref b) k (hk b).symm same
  · rw [refused]
    exact Or.inl ⟨time, rfl⟩

end Remote

end SeriesStorage
