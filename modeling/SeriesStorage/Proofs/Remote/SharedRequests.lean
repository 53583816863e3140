import Mathlib.Data.List.Dedup
import SeriesStorage.Proofs.Remote.AddedMembers
import SeriesStorage.Proofs.Remote.Flush
import SeriesStorage.Proofs.Remote.OwnSeries

/-!
# Writes that share a request

The members of a batch are kept apart, but each write begins anew, and a flush sends all batches of
its request together and compares one count.  So points of different writes may take the same place,
and then the flush fails.  Writes to a series without points do not collide (`NoCollision`) exactly
if all places are different, and they are if no point of one write looks like a point of another
(`visits_shared_request`).

* `FirstAtPlaces`: of points that are put into sets one after the other, those that are counted.
* `runs_batches`: what the batches of a request report and leave.
* `Gathers.write`, `Gathers.writes`: what one write stages, and what many do.
-/

namespace SeriesStorage

namespace Remote

open Server (Keyspace Network Node Runs Stage)

/-! ## Places of staged points -/

/-- Where commands put points: the keys of their sets, and the members there. -/
def placesIn (commands : List StagedCommand) : List (String × String) :=
  commands.flatMap fun staged =>
    match staged.command with
    | .addPoints key points => points.map fun p => (key, p.2)
    | _ => []

/-- The key and the member of a place of a series. -/
def filedAt (ref : SeriesRef) (place : UInt64 × String) : String × String :=
  (Key.data ref place.1, place.2)

theorem filedAt_injective (ref : SeriesRef) : Function.Injective (filedAt ref) := by
  rintro ⟨bucket, member⟩ ⟨bucket', member'⟩ same
  obtain ⟨key, rfl⟩ := Prod.mk.inj same
  by_cases equal : bucket = bucket'
  · rw [equal]
  · exact absurd key (data_ne equal)

theorem placesIn_bucketCommands (m : SeriesMetadata) (stored : List StoredPoint)
    (bucket : UInt64) :
    placesIn (bucketCommands m stored bucket) =
      (stored.filter (·.bucket = bucket)).map fun p => filedAt m.ref (placeOf p) := by
  have here : ((stored.filter (·.bucket = bucket)).map fun p => (p.score, p.member)).map
        (fun p => (Key.data m.ref bucket, p.2)) =
      (stored.filter (·.bucket = bucket)).map fun p => filedAt m.ref (placeOf p) := by
    rw [List.map_map]
    refine List.map_congr_left fun p inside => ?_
    rw [← (of_decide_eq_true (List.mem_filter.mp inside).2 : p.bucket = bucket)]
    rfl
  unfold bucketCommands placesIn
  rw [← here]
  cases m.expireAt <;> simp [StagedCommand.checked, StagedCommand.unchecked]

/-- The commands for a batch put each of its points into its place. -/
theorem placesIn_batchCommands (m : SeriesMetadata) (stored : List StoredPoint) :
    (placesIn (batchCommands m stored)).Perm (stored.map fun p => filedAt m.ref (placeOf p)) := by
  have each : placesIn (batchCommands m stored) = ((bucketsOf stored).flatMap fun bucket =>
      stored.filter (·.bucket = bucket)).map fun p => filedAt m.ref (placeOf p) := by
    unfold batchCommands
    rw [List.map_flatMap]
    simp only [← placesIn_bucketCommands]
    exact List.flatMap_assoc
  rw [each]
  exact (perm_bucketsOf fun _ inside => inside).map _

theorem placesIn_batches (m : SeriesMetadata) (batches : List (List StoredPoint)) :
    (placesIn (batches.flatMap (batchCommands m))).Perm
      ((batches.flatten.map placeOf).map (filedAt m.ref)) := by
  induction batches with
  | nil => exact .nil
  | cons stored rest ih =>
    have split : placesIn ((stored :: rest).flatMap (batchCommands m)) =
        placesIn (batchCommands m stored) ++ placesIn (rest.flatMap (batchCommands m)) := by
      rw [List.flatMap_cons]
      exact List.flatMap_append
    rw [split, List.flatten_cons, List.map_append, List.map_append]
    refine List.Perm.append ?_ ih
    rw [List.map_map]
    exact placesIn_batchCommands m stored

/-! ## Batches one after the other -/

/-- Of points that are put into the sets of a series one after the other, these found their places
free, one at each place that was. -/
structure FirstAtPlaces (ks : Keyspace) (ref : SeriesRef) (points first : List StoredPoint) :
    Prop where
  part : first.Sublist points
  distinct : (first.map placeOf).Nodup
  free : ∀ p ∈ first, p.member ∉ membersAt ks ref p.bucket
  covers : ∀ p ∈ points, p.member ∈ membersAt ks ref p.bucket ∨ placeOf p ∈ first.map placeOf

/-- In a batch whose places are different, they are those that are new. -/
theorem firstAtPlaces_newPoints (ks : Keyspace) (ref : SeriesRef) {stored : List StoredPoint}
    (places : (stored.map placeOf).Nodup) :
    FirstAtPlaces ks ref stored (newPoints ks ref stored) where
  part := List.filter_sublist
  distinct := places.sublist (List.filter_sublist.map placeOf)
  free p inside := of_decide_eq_true (List.mem_filter.mp inside).2
  covers p inside := by
    by_cases old : p.member ∈ membersAt ks ref p.bucket
    · exact Or.inl old
    · exact Or.inr (List.mem_map_of_mem (List.mem_filter.mpr ⟨inside, decide_eq_true old⟩))

/-- What is in the sets after some points were added. -/
theorem Grown.mem_membersAt {ks last : Keyspace} {ref : SeriesRef}
    {batch added : List StoredPoint} (h : Grown ks last ref batch added) (p : StoredPoint) :
    p.member ∈ membersAt last ref p.bucket ↔
      p.member ∈ membersAt ks ref p.bucket ∨ placeOf p ∈ added.map placeOf := by
  rw [h.members, List.mem_append]
  refine or_congr_right ⟨fun inside => ?_, fun inside => ?_⟩
  · obtain ⟨q, hq, member⟩ := List.mem_map.mp inside
    obtain ⟨hq, bucket⟩ := List.mem_filter.mp hq
    exact List.mem_map.mpr ⟨q, hq, Prod.ext (of_decide_eq_true bucket) member⟩
  · obtain ⟨q, hq, same⟩ := List.mem_map.mp inside
    obtain ⟨bucket, member⟩ := Prod.mk.inj same
    exact List.mem_map.mpr ⟨q, List.mem_filter.mpr ⟨hq, decide_eq_true bucket⟩, member⟩

/-- Points that come later find the places of the earlier ones taken. -/
theorem FirstAtPlaces.append {ks mid : Keyspace} {ref : SeriesRef}
    {points points' first first' : List StoredPoint} (h : FirstAtPlaces ks ref points first)
    (grown : Grown ks mid ref points first) (h' : FirstAtPlaces mid ref points' first') :
    FirstAtPlaces ks ref (points ++ points') (first ++ first') where
  part := h.part.append h'.part
  distinct := by
    rw [List.map_append, List.nodup_append]
    refine ⟨h.distinct, h'.distinct, fun place early later late same => ?_⟩
    obtain ⟨q, hq, rfl⟩ := List.mem_map.mp late
    exact h'.free q hq ((grown.mem_membersAt q).mpr (Or.inr (same ▸ early)))
  free := by
    intro p inside
    rcases List.mem_append.mp inside with early | late
    · exact h.free p early
    · exact fun old => h'.free p late ((grown.mem_membersAt p).mpr (Or.inl old))
  covers := by
    intro p inside
    rw [List.map_append, List.mem_append, ← or_assoc]
    rcases List.mem_append.mp inside with early | late
    · exact Or.inl (h.covers p early)
    · exact (h'.covers p late).imp_left (grown.mem_membersAt p).mp

/-- The commands for several batches report how many points found their places free. -/
theorem runs_batches (required : String) (m : SeriesMetadata) {batches : List (List StoredPoint)}
    (places : ∀ stored ∈ batches, (stored.map placeOf).Nodup) {ks : Keyspace}
    (sets : ∀ bucket, ∃ scores, ks.sortedSet? (Key.data m.ref bucket) = .ok scores) :
    ∃ replies last first,
      Runs required ((batches.flatMap (batchCommands m)).map (·.command)) ks replies last ∧
      reportedTotal ((batches.flatMap (batchCommands m)).zip replies) = .ok first.length ∧
      Grown ks last m.ref batches.flatten first ∧
      FirstAtPlaces ks m.ref batches.flatten first := by
  induction batches generalizing ks with
  | nil =>
    exact ⟨[], ks, [], .done, rfl, grown_self _ _ _, .slnil, List.nodup_nil, nofun, nofun⟩
  | cons stored rest ih =>
    obtain ⟨here, later⟩ := List.forall_mem_cons.mp places
    obtain ⟨replies, mid, runs, total, grown⟩ := runs_batch required m here sets
    have sets' : ∀ bucket, ∃ scores, mid.sortedSet? (Key.data m.ref bucket) = .ok scores := by
      intro bucket
      obtain ⟨scores, found⟩ := sets bucket
      exact grown.sets bucket scores found
    obtain ⟨replies', last, first, runs', total', grown', atPlaces⟩ := ih later sets'
    refine ⟨replies ++ replies', last, newPoints ks m.ref stored ++ first, ?_, ?_, ?_, ?_⟩
    · rw [List.flatMap_cons, List.map_append]
      exact runs.append runs'
    · have size := runs.length_replies
      rw [List.length_map] at size
      rw [List.flatMap_cons, List.zip_append size.symm, List.length_append]
      exact reportedTotal_append total total'
    · exact grown.trans grown'
    · exact (firstAtPlaces_newPoints ks m.ref here).append grown atPlaces

/-- The commands for several batches should report all of their points as new. -/
theorem expectedTotal_batches (m : SeriesMetadata) (batches : List (List StoredPoint)) :
    expectedTotal (batches.flatMap (batchCommands m)) = batches.flatten.length := by
  induction batches with
  | nil => rfl
  | cons stored rest ih =>
    rw [List.flatMap_cons, expectedTotal_append, expectedTotal_batch, ih, List.flatten_cons,
      List.length_append]

/-! ## A series without points -/

section Empty

variable {ks last : Keyspace} {ref : SeriesRef} {stored first : List StoredPoint}

theorem HoldsPoints.entriesAt_nil (empty : HoldsPoints ks ref []) (bucket : UInt64) :
    entriesAt ks ref bucket = [] := by
  obtain ⟨scores, found, stands⟩ := empty bucket
  rw [entriesAt_eq found]
  exact List.forall₂_nil_left_iff.mp stands

/-- In empty sets each place is taken once. -/
theorem FirstAtPlaces.length_eq (h : FirstAtPlaces ks ref stored first)
    (empty : HoldsPoints ks ref []) : first.length = (stored.map placeOf).dedup.length := by
  have same : (first.map placeOf).Perm (stored.map placeOf).dedup := by
    refine (List.perm_ext_iff_of_nodup h.distinct (List.nodup_dedup _)).mpr fun place => ?_
    rw [List.mem_dedup]
    refine ⟨fun inside => (h.part.map placeOf).subset inside, fun inside => ?_⟩
    obtain ⟨p, hp, rfl⟩ := List.mem_map.mp inside
    refine (h.covers p hp).resolve_left fun old => ?_
    rw [membersAt, empty.entriesAt_nil] at old
    cases old
  rw [← same.length_eq, List.length_map]

/-- Entries are told by their members. -/
theorem eq_of_members {entries entries' : List (String × Binary64)}
    (members : entries.map (·.1) = entries'.map (·.1)) (nodup : (entries'.map (·.1)).Nodup)
    (part : ∀ entry ∈ entries, entry ∈ entries') : entries = entries' := by
  have size : entries.length = entries'.length := by
    simpa using congrArg List.length members
  have apart : entries.Nodup := List.Nodup.of_map (·.1) (members ▸ nodup)
  refine List.ext_getElem size fun i hi hi' => ?_
  have same : entries[i].1 = entries'[i].1 := by
    have := congrArg (·[i]?) members
    simpa [List.getElem?_eq_getElem, hi, hi'] using this
  exact List.inj_on_of_nodup_map nodup (part _ (List.getElem_mem hi)) (List.getElem_mem hi') same

/-- If all points find their places free, the sets hold them. -/
theorem Grown.holdsPoints (h : Grown ks last ref stored stored) (empty : HoldsPoints ks ref [])
    (places : (stored.map placeOf).Nodup) {points : List (UInt64 × Binary64)}
    (encodes : List.Forall₂ Encodes points stored) : HoldsPoints last ref points := by
  intro bucket
  obtain ⟨scores, found, _⟩ := empty bucket
  obtain ⟨scores', found'⟩ := h.sets bucket scores found
  have members := h.members bucket
  rw [membersAt, membersAt, empty.entriesAt_nil, List.map_nil, List.nil_append,
    entriesAt_eq found'] at members
  have same : scores'.entries = entriesIn bucket stored := by
    refine eq_of_members (by rw [members, entriesIn, List.map_map]; rfl) ?_ fun entry inside => ?_
    · rw [entriesIn, List.map_map]
      exact nodup_members places bucket
    · have := h.entries bucket entry (by rwa [entriesAt_eq found'])
      rw [empty.entriesAt_nil] at this
      exact this.resolve_left List.not_mem_nil
  refine ⟨scores', found', ?_⟩
  rw [same]
  exact standsFor_entriesIn (encodes.imp fun _ _ h => h.of) bucket

end Empty

/-! ## Staging -/

/-- A write of points. -/
structure PointWrite where
  time : Instant
  draws : Draws
  times : List UInt64
  values : List Binary64

/-- The points of a write. -/
def PointWrite.points (w : PointWrite) : List (UInt64 × Binary64) := w.times.zip w.values

/-- A write to a series under a request. -/
def PointWrite.visit (w : PointWrite) (ref : SeriesRef) (req : RequestId) : Visit :=
  ⟨w.time, .write ref req w.draws w.times w.values⟩

/-- Whether no point of one write looks like a point of another one. -/
def PointWrite.Apart (w w' : PointWrite) : Prop :=
  ∀ p ∈ w.points, ∀ p' ∈ w'.points, imageOf p ≠ imageOf p'

/-- What is staged once the commands for some batches were staged for a namespace. -/
def stagedWrites (ns : Namespace) (m : SeriesMetadata) (batches : List (List StoredPoint)) :
    Option StagedWrites :=
  if batches.isEmpty then none else some ⟨[(ns, batches.flatMap (batchCommands m))]⟩

theorem writes?_stage_stagedWrites {pending : Pending} {req : RequestId} {ns : Namespace}
    {m : SeriesMetadata} {batches : List (List StoredPoint)}
    (h : pending.writes? req = stagedWrites ns m batches) (stored : List StoredPoint) :
    (pending.stage req ns (batchCommands m stored)).writes? req =
      stagedWrites ns m (batches ++ [stored]) := by
  have staged : (pending.stage req ns (batchCommands m stored)).writes? req =
      some (((pending.writes? req).getD .empty).insert ns
        (pending.commands req ns ++ batchCommands m stored)) := by
    show Table.get? (Table.insert _ _ _) _ = _
    rw [Table.get?_insert, if_pos rfl]
    rfl
  have commands : pending.commands req ns =
      (((pending.writes? req).getD .empty).get? ns).getD [] := rfl
  rw [staged, commands, h]
  unfold stagedWrites
  cases batches with
  | nil => simp [Table.insert, Table.put, Table.empty, Table.get?, Table.lookup]
  | cons first rest => simp [Table.insert, Table.put, Table.get?, Table.lookup]

/-- Writes to a series were staged under a request: nothing else has become of the site. -/
structure Gathers (net : Network) (connections : Connections) (ks : Keyspace) (m : SeriesMetadata)
    (req : RequestId) (batches : List (List StoredPoint)) (site : Site Network) : Prop where
  world : site.world = net
  connected : site.client.connections = some connections
  finds : AccessFinds site.client.cache ks m.ref m
  staged : site.client.pending.writes? req = stagedWrites m.ref.ns m batches

/-- The stored forms of the points of a write. -/
def StoredFor (w : PointWrite) (stored : List StoredPoint) : Prop :=
  List.Forall₂ Encodes w.points stored ∧ (stored.map placeOf).Nodup

section Staging

variable {net : Network} {connections : Connections} {c : Connection} {node : Node}
  {m : SeriesMetadata} {req : RequestId} {batches : List (List StoredPoint)} {site : Site Network}

/-- One write that is accepted is staged. -/
theorem Gathers.write (h : Gathers net connections node.keyspace m req batches site)
    (route : connections.route m.ref.ns = .ok c) (there : net.nodes[c.server]? = some node)
    (buffered : req.isEmpty = false) {w : PointWrite}
    (accepted : (site.visit (w.visit m.ref req)).answer = .ok .done) :
    ∃ stored, StoredFor w stored ∧
      Gathers net connections node.keyspace m req (batches ++ [stored])
        (site.visit (w.visit m.ref req)).state := by
  have reaches : Reaches site connections m.ref.ns c node := ⟨route, by rw [h.world]; exact there⟩
  unfold PointWrite.visit at accepted ⊢
  rw [Site.visit_write] at accepted ⊢
  have live := reaches.live_of_guarded h.connected h.finds accepted
  rw [reaches.guarded_found h.connected h.finds live, Site.outcome_map] at accepted ⊢
  rw [Outcome.state_map]
  unfold append at accepted ⊢
  have connected : (site.remember m.ref (some m)).client.connections = some connections :=
    h.connected
  rw [Site.outcome_bind, Site.outcome_connected connected, Outcome.andThen_succeed,
    Site.outcome_bind, Site.outcome_ofExcept, stagePoints_eq] at accepted ⊢
  obtain ⟨stored, encoded, encodes, places, _⟩ | ⟨time, full⟩ :=
    encodePoints_encodes w.draws 0 [] (w.times.zip w.values)
  · refine ⟨stored, ⟨encodes, places⟩, ?_⟩
    rw [encoded, Outcome.andThen_eq_of_ok rfl, if_neg (by simp [buffered]), Site.outcome_modify]
    exact ⟨h.world, h.connected, h.finds.remember,
      writes?_stage_stagedWrites h.staged stored⟩
  · rw [full] at accepted
    cases accepted

/-- Writes that are accepted are staged one behind the other. -/
theorem Gathers.writes (h : Gathers net connections node.keyspace m req batches site)
    (route : connections.route m.ref.ns = .ok c) (there : net.nodes[c.server]? = some node)
    (buffered : req.isEmpty = false) {writes : List PointWrite}
    (accepted : ∀ entry ∈ (site.visits (writes.map (·.visit m.ref req))).1, entry.2 = .ok .done) :
    ∃ more, List.Forall₂ StoredFor writes more ∧
      Gathers net connections node.keyspace m req (batches ++ more)
        (site.visits (writes.map (·.visit m.ref req))).2 := by
  induction writes generalizing site batches with
  | nil => exact ⟨[], .nil, by rw [List.append_nil]; exact h⟩
  | cons w rest ih =>
    obtain ⟨first, others⟩ := List.forall_mem_cons.mp accepted
    obtain ⟨stored, here, gathers⟩ := h.write route there buffered first
    obtain ⟨more, there, gathered⟩ := ih gathers others
    rw [List.append_assoc] at gathered
    exact ⟨stored :: more, .cons here there, gathered⟩

/-- The places of what was staged. -/
theorem Gathers.perm_places (h : Gathers net connections node.keyspace m req batches site) :
    (placesIn (site.client.pending.commands req m.ref.ns)).Perm
      ((batches.flatten.map placeOf).map (filedAt m.ref)) := by
  have waiting : site.client.pending.commands req m.ref.ns =
      batches.flatMap (batchCommands m) := by
    show (((site.client.pending.writes? req).getD .empty).get? m.ref.ns).getD [] = _
    rw [h.staged, stagedWrites]
    cases batches with
    | nil => rfl
    | cons first rest => simp [Table.get?, Table.lookup]
  rw [waiting]
  exact placesIn_batches m batches

/-- What was staged is sent: it is counted how many points found their places free. -/
theorem Gathers.flush (h : Gathers net connections node.keyspace m req batches site)
    (route : connections.route m.ref.ns = .ok c) (there : net.nodes[c.server]? = some node)
    (some : batches ≠ []) (places : ∀ stored ∈ batches, (stored.map placeOf).Nodup)
    (sets : ∀ bucket, ∃ scores, node.keyspace.sortedSet? (Key.data m.ref bucket) = .ok scores) :
    ∃ last first, Grown node.keyspace last m.ref batches.flatten first ∧
      FirstAtPlaces node.keyspace m.ref batches.flatten first ∧
      let flushed := site.outcome (Remote.flush req)
      flushed.answer = (if first.length = batches.flatten.length then .ok ()
        else .error (.internal (.writeCount batches.flatten.length first.length))) ∧
      flushed.state.client.connections = Option.some connections ∧
      Reaches flushed.state connections m.ref.ns c { node with keyspace := last } := by
  obtain ⟨replies, last, first, runs, total, grown, atPlaces⟩ :=
    runs_batches node.password m places sets
  refine ⟨last, first, grown, atPlaces, ?_⟩
  have staged := h.staged
  rw [stagedWrites, if_neg (by simpa using some)] at staged
  obtain ⟨client, world⟩ := site
  obtain rfl := h.world
  have reaches : Reaches ⟨{ client with pending := client.pending.remove req }, world⟩ connections
      m.ref.ns c node := ⟨route, there⟩
  have connected : ({ client with pending := client.pending.remove req } : Client).connections =
      Option.some connections := h.connected
  intro flushed
  have sent : flushed = ((⟨{ client with pending := client.pending.remove req }, world⟩ :
      Site Network).setKeys c.server last).outcome
        (checkCount (batches.flatMap (batchCommands m)) first.length) := by
    simp only [flushed]
    rw [outcome_flush staged, Site.outcome_bind, Site.outcome_connected connected,
      Outcome.andThen_succeed, outcome_executeWrites_one, reaches.execute_counted runs total]
  rw [sent]
  unfold checkCount
  rw [expectedTotal_batches]
  by_cases all : first.length = batches.flatten.length
  · rw [if_neg (not_not.mpr all), if_pos all]
    exact ⟨rfl, connected, reaches.setKeys last⟩
  · rw [if_pos all, if_neg all]
    exact ⟨rfl, connected, reaches.setKeys last⟩

/-- A visit that flushes the request, whenever it is. -/
theorem Gathers.visit_flush {site : Site Stage} (calm : site.world.Calm)
    (h : Gathers net connections node.keyspace m req batches site.onNetwork)
    (route : connections.route m.ref.ns = .ok c) (there : net.nodes[c.server]? = some node)
    (some : batches ≠ []) (places : ∀ stored ∈ batches, (stored.map placeOf).Nodup)
    (sets : ∀ bucket, ∃ scores, node.keyspace.sortedSet? (Key.data m.ref bucket) = .ok scores) :
    ∃ last first, Grown node.keyspace last m.ref batches.flatten first ∧
      FirstAtPlaces node.keyspace m.ref batches.flatten first ∧
      ∀ now, let flushed := site.visit ⟨now, .flush req⟩
        flushed.answer = (if first.length = batches.flatten.length then .ok .done
          else .error (.internal (.writeCount batches.flatten.length first.length))) ∧
        Serves flushed.state m.ref.ns last := by
  obtain ⟨last, first, grown, atPlaces, answered, kept, reached⟩ :=
    h.flush route there some places sets
  refine ⟨last, first, grown, atPlaces, fun now => ?_⟩
  obtain ⟨same, state, _⟩ := site.visit_network calm ⟨now, .flush req⟩
  have visited : site.onNetwork.visit ⟨now, .flush req⟩ =
      (site.onNetwork.outcome (Remote.flush req)).map fun _ => .done :=
    Site.outcome_map _ _ _
  rw [visited, Outcome.answer_map, answered] at same
  rw [visited, Outcome.state_map] at state
  rw [← state] at kept reached
  refine ⟨?_, reached.serves kept⟩
  rw [same]
  split <;> rfl

end Staging

/-! ## Collisions -/

/-- Points that were written under a request do not collide: they are staged at different places,
and whenever the request is flushed they are all stored. -/
def NoCollision (site : Site Stage) (ref : SeriesRef) (req : RequestId)
    (points : List (UInt64 × Binary64)) : Prop :=
  (placesIn (site.client.pending.commands req ref.ns)).Nodup ∧
    ∀ now, let flushed := site.visit ⟨now, .flush req⟩
      flushed.answer = .ok .done ∧
        ∃ ks, Serves flushed.state ref.ns ks ∧ HoldsPoints ks ref points

theorem encodes_flatten {writes : List PointWrite} {batches : List (List StoredPoint)}
    (h : List.Forall₂ StoredFor writes batches) :
    List.Forall₂ Encodes (writes.flatMap (·.points)) batches.flatten := by
  induction h with
  | nil => exact .nil
  | cons first _ ih => exact List.rel_append first.1 ih

/-- Points of different writes are at different places if none looks like another. -/
theorem nodup_places {writes : List PointWrite} {batches : List (List StoredPoint)}
    (h : List.Forall₂ StoredFor writes batches) (apart : writes.Pairwise PointWrite.Apart) :
    (batches.flatten.map placeOf).Nodup := by
  induction h with
  | nil => exact List.nodup_nil
  | @cons w stored rest batches first others ih =>
    obtain ⟨here, later⟩ := List.pairwise_cons.mp apart
    rw [List.flatten_cons, List.map_append, List.nodup_append]
    refine ⟨first.2, ih later, fun place early place' late same => ?_⟩
    obtain ⟨p, hp, rfl⟩ := List.mem_map.mp early
    obtain ⟨p', hp', rfl⟩ := List.mem_map.mp late
    obtain ⟨q, hq, encodes⟩ := exists_left_of_forall₂ first.1 hp
    obtain ⟨q', hq', encodes'⟩ := exists_left_of_forall₂ (encodes_flatten others) hp'
    obtain ⟨w', hw', inside⟩ := List.mem_flatMap.mp hq'
    exact here w' hw' q hq q' inside (encodes.image_eq encodes' same)

/-- **Writes that share a request.**  A series without points gets writes under a request under
which nothing waits yet; all are accepted, and no command fails.  Then each point is staged at a
place.  If no point of a write looks like a point of another one, the points do not collide; exactly
if all places are different they do not, and otherwise the flush fails, as there are fewer places
than points. -/
theorem visits_shared_request {site : Site Stage} (calm : site.world.Calm) {ref : SeriesRef}
    {ks : Keyspace} {m : SeriesMetadata} (serves : Serves site ref.ns ks)
    (finds : AccessFinds site.client.cache ks ref m) (empty : HoldsPoints ks ref [])
    {req : RequestId} (buffered : req.isEmpty = false)
    (fresh : site.client.pending.writes? req = none) {writes : List PointWrite}
    (some : writes ≠ []) :
    let written := site.visits (writes.map (·.visit ref req))
    let points := writes.flatMap (·.points)
    let places := placesIn (written.2.client.pending.commands req ref.ns)
    (∀ entry ∈ written.1, entry.2 = .ok .done) →
      places.length = points.length ∧
      (writes.Pairwise PointWrite.Apart → NoCollision written.2 ref req points) ∧
      (NoCollision written.2 ref req points ↔ places.Nodup) ∧
      (¬ places.Nodup → ∀ now, (written.2.visit ⟨now, .flush req⟩).answer =
        .error (.internal (.writeCount points.length places.dedup.length))) := by
  intro written points places accepted
  obtain ⟨connections, c, node, connected, reaches, rfl⟩ := serves.reaches
  obtain rfl := finds.1
  -- the writes, on the network
  obtain ⟨trace, left, calm'⟩ := site.visits_network calm (writes.map (·.visit m.ref req))
  have start : Gathers site.onNetwork.world connections node.keyspace m req [] site.onNetwork :=
    ⟨rfl, connected, finds, fresh⟩
  obtain ⟨batches, stored, gathered⟩ := start.writes reaches.route reaches.node buffered
    (fun entry inside => accepted entry (trace ▸ inside))
  rw [List.nil_append, ← left] at gathered
  have encodes := encodes_flatten stored
  have size : points.length = batches.flatten.length := encodes.length_eq
  have nonempty : batches ≠ [] := by
    rintro rfl
    exact some (List.forall₂_nil_right_iff.mp stored)
  have staged : places.Perm ((batches.flatten.map placeOf).map (filedAt m.ref)) :=
    gathered.perm_places
  have nodup_iff : places.Nodup ↔ (batches.flatten.map placeOf).Nodup :=
    staged.nodup_iff.trans (List.nodup_map_iff (filedAt_injective m.ref))
  have count : places.dedup.length = (batches.flatten.map placeOf).dedup.length := by
    rw [staged.dedup.length_eq, List.dedup_map_of_injective (filedAt_injective m.ref),
      List.length_map]
  have each : ∀ batch ∈ batches, (batch.map placeOf).Nodup := by
    intro batch inside
    obtain ⟨w, _, here⟩ := exists_left_of_forall₂ stored inside
    exact here.2
  obtain ⟨last, first, grown, atPlaces, visited⟩ :=
    gathered.visit_flush calm' reaches.route reaches.node nonempty each empty.sets
  have distinct := atPlaces.length_eq empty
  have apart : places.Nodup → NoCollision written.2 m.ref req points := by
    intro nodup
    have nodup' := nodup_iff.mp nodup
    have all : first.length = batches.flatten.length := by
      rw [distinct, nodup'.dedup, List.length_map]
    obtain rfl := atPlaces.part.eq_of_length all
    refine ⟨nodup, fun now => ?_⟩
    obtain ⟨answer, serves'⟩ := visited now
    exact ⟨answer.trans (if_pos rfl), last, serves', grown.holdsPoints empty nodup' encodes⟩
  refine ⟨?_, fun pairwise => apart (nodup_iff.mpr (nodup_places stored pairwise)),
    ⟨fun h => h.1, apart⟩, fun collide now => ?_⟩
  · rw [staged.length_eq, List.length_map, List.length_map, size]
  · have fewer : first.length ≠ batches.flatten.length := by
      intro all
      obtain rfl := atPlaces.part.eq_of_length all
      exact collide (nodup_iff.mpr atPlaces.distinct)
    rw [(visited now).1, if_neg fewer, size, distinct, count]

/-! ## A point that is written twice -/

/-- The series of the examples. -/
def unwritten : SeriesMetadata := ⟨⟨1⟩, ⟨0⟩, "load", [], none⟩

/-- A write of one point. -/
def pointWrite (time value : UInt64) : PointWrite :=
  ⟨⟨0⟩, fun _ _ => .zero, [time], [.ofUInt64 value]⟩

/-- What is left of writes to the series under one request. -/
def afterWrites (writes : List PointWrite) : Trace × Site Stage :=
  (Site.alone (recordKeys unwritten)).visits (writes.map (·.visit unwritten.ref ⟨"r"⟩))

/-- The same point, at a time at which paddings do not show. -/
def samePoint : List PointWrite := [pointWrite 9007199254740992 3, pointWrite 9007199254740992 3]

/-- Both writes are accepted, they put the point into one place, and the flush fails. -/
theorem not_noCollision_samePoint :
    (∀ entry ∈ (afterWrites samePoint).1, entry.2 = .ok .done) ∧
      ((afterWrites samePoint).2.visit ⟨⟨0⟩, .flush ⟨"r"⟩⟩).answer =
        .error (.internal (.writeCount 2 1)) ∧
      ¬ NoCollision (afterWrites samePoint).2 unwritten.ref ⟨"r"⟩
        (samePoint.flatMap (·.points)) := by
  refine ⟨by decide +kernel, by decide +kernel, fun noCollision => ?_⟩
  have nodup := noCollision.1
  revert nodup
  decide +kernel

/-- Two values at the same time do not collide. -/
theorem visits_shared_request_twoValues :
    NoCollision (afterWrites [pointWrite 5 3, pointWrite 5 4]).2 unwritten.ref ⟨"r"⟩
      [(5, .ofUInt64 3), (5, .ofUInt64 4)] := by
  have apart : [pointWrite 5 3, pointWrite 5 4].Pairwise PointWrite.Apart := by
    refine .cons (fun w inside => ?_) (.cons nofun .nil)
    obtain rfl := List.mem_singleton.mp inside
    unfold PointWrite.Apart
    decide +kernel
  exact (@visits_shared_request (Site.alone (recordKeys unwritten)) (Site.calm_alone _)
    unwritten.ref _ unwritten (Site.serves_alone _ unwritten.ref.ns)
    (accessFinds_recordKeys unwritten rfl) (holdsPoints_recordKeys unwritten) ⟨"r"⟩ rfl rfl
    [pointWrite 5 3, pointWrite 5 4] (List.cons_ne_nil _ _) (by decide +kernel)).2.1 apart

end Remote

end SeriesStorage
