import SeriesStorage.Proofs.Remote.FailedWrites
import SeriesStorage.Proofs.Remote.NativeExpiry

/-!
# Batches in buckets

The commands for a batch store each of its points once, in the bucket of its timestamp and in the
order of the batch (`Partitions`).  A batch is refused only for a timestamp of its own that has no
free place (`encodePoints_refused`), and then the write has done nothing but look for the series,
which changes neither keys nor what waits for a flush (`AsBefore`).

`stagePoints_partitions` puts both together.
-/

namespace SeriesStorage

namespace Remote

open Server (Keyspace Reply Stage)

/-! ## Refusals -/

/-- A batch is refused for one of its own timestamps. -/
theorem encodePoints_refused {draws : Draws} {i : Nat} {taken : Taken}
    {points : List (UInt64 × Binary64)} {e : Error}
    (refused : encodePoints draws i taken points = .error e) :
    ∃ time ∈ points.map (·.1), e = .keySpaceExhausted time := by
  induction points generalizing i taken with
  | nil => cases refused
  | cons point rest ih =>
    obtain ⟨time, value⟩ := point
    unfold encodePoints at refused
    obtain ⟨p, first, _⟩ | full := uniquePoint_spec taken (draws i) time value
    · rw [first] at refused
      dsimp only at refused
      cases others : encodePoints draws (i + 1) ((p.bucket, p.member) :: taken) rest with
      | ok stored =>
        rw [others] at refused
        cases refused
      | error e' =>
        rw [others] at refused
        obtain rfl := Except.error.inj refused
        obtain ⟨later, inside, same⟩ := ih others
        exact ⟨later, List.mem_cons_of_mem _ inside, same⟩
    · rw [full] at refused
      exact ⟨time, List.mem_cons_self, (Except.error.inj refused).symm⟩

/-! ## Buckets of a batch -/

/-- Commands that store the points of a batch: per bucket that occurs, in ascending order, one
checked command that adds the points of the bucket in the order of the batch, and one that ends the
key of the bucket if the series expires. -/
structure Partitions (m : SeriesMetadata) (batch : List (UInt64 × Binary64))
    (buckets : List UInt64) (stored : UInt64 → List StoredPoint) (commands : List StagedCommand) :
    Prop where
  staged : commands = buckets.flatMap fun bucket =>
    .checked (.addPoints (Key.data m.ref bucket) ((stored bucket).map fun p => (p.score, p.member)))
        (stored bucket).length ::
      (m.expireAt.map fun last => StagedCommand.unchecked
        (.expireAt (Key.data m.ref bucket) (max (bucketEndSeconds bucket) last))).toList
  ascending : buckets.Pairwise (· < ·)
  occurring : ∀ bucket, bucket ∈ buckets ↔ ∃ point ∈ batch, bucketOf point.1 = bucket
  keys : (buckets.map (Key.data m.ref)).Nodup
  points : ∀ bucket ∈ buckets, List.Forall₂ Encodes (inBucket bucket batch) (stored bucket)
  members : ∀ bucket ∈ buckets, ((stored bucket).map (·.member)).Nodup

theorem pairwise_lt_bucketsOf (points : List StoredPoint) :
    (bucketsOf points).Pairwise (· < ·) := by
  have sorted : (bucketsOf points).Pairwise fun a b => decide (a ≤ b) = true := by
    unfold bucketsOf
    apply List.pairwise_mergeSort
    · intro a b c
      simpa using UInt64.le_trans
    · intro a b
      simpa using UInt64.le_total a b
  exact (sorted.and (nodup_bucketsOf points)).imp fun ⟨le, ne⟩ =>
    UInt64.lt_of_le_of_ne (of_decide_eq_true le) ne

/-- The stored forms in a bucket are those of the points in it. -/
theorem encodes_inBucket {batch : List (UInt64 × Binary64)} {points : List StoredPoint}
    (encodes : List.Forall₂ Encodes batch points) (bucket : UInt64) :
    List.Forall₂ Encodes (inBucket bucket batch) (points.filter (·.bucket = bucket)) :=
  List.rel_filter (fun point p form => by
    show decide (bucketOf point.1 = bucket) = true ↔ decide (p.bucket = bucket) = true
    rw [form.of.bucket]) encodes

/-- **The commands for a batch** partition it. -/
theorem partitions_batchCommands {m : SeriesMetadata} {draws : Draws}
    {batch : List (UInt64 × Binary64)} {points : List StoredPoint}
    (encoded : encodePoints draws 0 [] batch = .ok points) :
    Partitions m batch (bucketsOf points) (fun bucket => points.filter (·.bucket = bucket))
        (batchCommands m points) ∧
      expectedTotal (batchCommands m points) = batch.length := by
  obtain ⟨stored, same, encodes, places, _⟩ | ⟨time, refused⟩ :=
    encodePoints_encodes draws 0 [] batch
  · obtain rfl := Except.ok.inj (encoded.symm.trans same)
    refine ⟨⟨?_, pairwise_lt_bucketsOf points, fun _ => mem_bucketsOf_encoded encoded,
      List.pairwise_map.mpr ((nodup_bucketsOf points).imp fun apart => data_ne apart),
      fun bucket _ => encodes_inBucket encodes bucket,
      fun bucket _ => nodup_members places bucket⟩, ?_⟩
    · unfold batchCommands
      congr 1
      funext bucket
      unfold bucketCommands
      cases m.expireAt <;> rfl
    · rw [expectedTotal_batch, encodes.length_eq]
  · rw [encoded] at refused
    cases refused

/-! ## Looking for a series -/

/-- Nobody else changes keys, and the keys of all servers, what waits for a flush and the
connections are as they were at first. -/
structure AsBefore (first site : Site Stage) : Prop where
  undisturbed : site.world.Undisturbed
  keys : ∀ server, site.keysAt server = first.keysAt server
  pending : site.client.pending = first.client.pending
  connections : site.client.connections = first.client.connections

namespace AsBefore

variable {first : Site Stage}

/-- Looking up a key changes no keys, also if it is refused. -/
theorem request_get (server : Nat) (key : String) :
    Preserves (AsBefore first) (request server (.single (.get key))) := by
  intro site h
  rw [Site.outcome_request]
  -- a served request is taken apart by how it was served
  have unmoved : ∀ result : Except Fault (List Reply) × Stage,
      Stage.Served site.world server (.single (.get key)) result →
      AsBefore first { site with world := result.2 } := by
    intro result served
    cases served with
    | missing => exact h
    | refused _ _ _ _ transaction => cases transaction
    | @attempted r r' replies found _ quiet attempts =>
      have same : r'.keyspace = r.keyspace :=
        attempts.preserves (P := fun ks => ks = r.keyspace)
          (fun command inside ks reply ks' one here => by
            obtain rfl := List.mem_singleton.mp inside
            exact (attempt_get one).1.trans here) rfl
      refine ⟨h.undisturbed.update server quiet _, fun i => (?_ : _ = _).trans (h.keys i),
        h.pending, h.connections⟩
      unfold Site.keysAt
      dsimp only
      rw [Stage.getElem?_update]
      split
      · next here =>
        subst here
        rw [found, Option.map_some, Option.map_some, same]
        rfl
      · rfl
  exact unmoved _ (Stage.served h.undisturbed server _)

theorem cached (f : Cache → Cache) : Preserves (AsBefore first)
    (modify fun client => { client with cache := f client.cache } : Task Unit) :=
  fun _ h => ⟨h.undisturbed, h.keys, h.pending, h.connections⟩

/-- An access changes nothing but the cache. -/
theorem access (now : UInt64) (ref : SeriesRef) :
    Preserves (AsBefore first) (Remote.access now ref) := by
  have loaded : ∀ connections, Preserves (AsBefore first) (loadMetadata connections ref) := by
    intro connections
    refine .bind (.ask _ _ _ _ fun server => request_get server _) fun text => ?_
    cases text with
    | none => exact .pure _
    | some text =>
      dsimp only
      split
      · exact .pure _
      · exact .throw _
  refine .bind .connected fun connections => .bind (.bind .get fun client => ?_) fun _ => .pure _
  cases client.cache.get? ref with
  | some m => exact .bind (cached (·.insert ref m)) fun _ => .pure _
  | none =>
    refine .bind (loaded connections) fun found => ?_
    cases found with
    | none => exact .pure _
    | some m => exact .bind (cached (·.insert ref m)) fun _ => .pure _

end AsBefore

/-- **A write whose batch is refused** answers with the refusal and has changed nothing but the
cache. -/
theorem visit_refused {site : Site Stage} (undisturbed : site.world.Undisturbed) {now : Instant}
    {ref : SeriesRef} {m : SeriesMetadata}
    (found : (site.outcome (access now.seconds ref)).answer = .ok (.live m)) (req : RequestId)
    {draws : Draws} {times : List UInt64} {values : List Binary64} {e : Error}
    (refused : stagePoints m draws times values = .error e) :
    let write := site.visit ⟨now, .write ref req draws times values⟩
    write.answer = .error e ∧ AsBefore site write.state := by
  have same := AsBefore.access now.seconds ref site ⟨undisturbed, fun _ => rfl, rfl, rfl⟩
  intro write
  have failed : write = .fail e (site.outcome (access now.seconds ref)).state := by
    cases connected : site.client.connections with
    | none =>
      unfold access at found
      rw [Site.outcome_bind, Site.outcome_connected_none connected] at found
      cases found
    | some connections =>
      show site.visit _ = _
      rw [Site.visit_write]
      unfold guarded append
      rw [Site.outcome_bind, Outcome.andThen_eq_of_ok found]
      dsimp only
      rw [Site.outcome_map, Site.outcome_bind,
        Site.outcome_connected (same.connections.trans connected), Outcome.andThen_succeed, refused,
        Site.outcome_bind, Site.outcome_ofExcept]
      rfl
  rw [failed]
  exact ⟨rfl, same⟩

/-- **Staging partitions a batch.**  The commands for a batch of points, which is as long as the
shorter one of its lists, store it bucket by bucket, and their counts add up to its length.  If
there are none, a timestamp of the batch has no free place left, and a write of the batch to a live
series fails and leaves the keys of all servers and what waits for a flush as they were; commands
may be refused, but nobody else changes keys meanwhile. -/
theorem stagePoints_partitions (m : SeriesMetadata) (draws : Draws) (times : List UInt64)
    (values : List Binary64) :
    (∀ commands, stagePoints m draws times values = .ok commands →
        (∃ buckets stored, Partitions m (times.zip values) buckets stored commands) ∧
          expectedTotal commands = min times.length values.length) ∧
      (∀ e, stagePoints m draws times values = .error e →
        (∃ time ∈ (times.zip values).map (·.1), e = .keySpaceExhausted time) ∧
          ∀ (site : Site Stage) (now : Instant) (ref : SeriesRef) (req : RequestId),
            site.world.Undisturbed →
            (site.outcome (access now.seconds ref)).answer = .ok (.live m) →
            let write := site.visit ⟨now, .write ref req draws times values⟩
            write.answer = .error e ∧
              (∀ server, write.state.keysAt server = site.keysAt server) ∧
              write.state.client.pending = site.client.pending) := by
  rw [stagePoints_eq]
  cases encoded : encodePoints draws 0 [] (times.zip values) with
  | ok points =>
    refine ⟨fun commands staged => ?_, fun e refused => by cases refused⟩
    obtain rfl := Except.ok.inj staged
    obtain ⟨partitions, total⟩ := partitions_batchCommands encoded
    exact ⟨⟨_, _, partitions⟩, total.trans List.length_zip⟩
  | error e =>
    refine ⟨fun commands staged => (by cases staged), fun e' refused => ?_⟩
    obtain rfl := Except.error.inj refused
    refine ⟨encodePoints_refused encoded, fun site now ref req undisturbed found => ?_⟩
    have staged : stagePoints m draws times values = .error e := by
      rw [stagePoints_eq, encoded]
      rfl
    obtain ⟨answer, same⟩ := visit_refused undisturbed found req staged
    exact ⟨answer, same.keys, same.pending⟩

/-- A series to which equal points are written at a time at which paddings do not show. -/
def crowded : SeriesMetadata := ⟨⟨1⟩, ⟨0⟩, "load", [], none⟩

/-- Two points of different days are staged, and two equal points are refused. -/
theorem stagePoints_partitions_tenSeconds :
    (∃ buckets stored, Partitions tenSeconds
        [(5, ⟨0x4008000000000000⟩), (1598261325123, ⟨0x4008000000000000⟩)] buckets stored
        tenSecondsStaged) ∧
      let write := (Site.alone (recordKeys crowded)).visit ⟨⟨0⟩, .write crowded.ref .empty
        (fun _ _ => .zero) [9007199254740992, 9007199254740992] [.zero, .zero]⟩
      write.answer = .error (.keySpaceExhausted 9007199254740992) ∧
        write.state.keysAt 0 = recordKeys crowded := by
  have staged := (stagePoints_partitions tenSeconds (fun _ _ => .zero) [5, 1598261325123]
    [⟨0x4008000000000000⟩, ⟨0x4008000000000000⟩]).1 _ stagePoints_tenSeconds
  have refused : stagePoints crowded (fun _ _ => .zero) [9007199254740992, 9007199254740992]
      [.zero, .zero] = .error (.keySpaceExhausted 9007199254740992) := by decide +kernel
  have found : ((Site.alone (recordKeys crowded)).outcome (access 0 crowded.ref)).answer =
      .ok (.live crowded) := by decide +kernel
  obtain ⟨answer, keys, _⟩ := ((stagePoints_partitions crowded (fun _ _ => .zero)
    [9007199254740992, 9007199254740992] [.zero, .zero]).2 _ refused).2 _ ⟨0⟩ crowded.ref .empty
      (fun r inside => (Site.calm_alone _ r inside).2) found
  exact ⟨staged.1, answer, keys 0⟩

end Remote

end SeriesStorage
