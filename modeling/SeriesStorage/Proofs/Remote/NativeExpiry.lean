import SeriesStorage.Proofs.Remote.StoringPoints

/-!
# Points that a server drops by itself

A series with a time to live is live up to and with its last second, and the keys of its points are
given a second at which the server drops them.  The server drops a key as soon as its time has
reached that second (`Keyspace.heldAt`), so a key outlives the series only if it is told a later
second than the last one of the series (`Outlives`).

What is told is the end of the bucket or the last second of the series, whichever comes later.  So a
batch outlives its series exactly if the bucket of each point ends behind the last second, and else
points are gone in this one second (`outlives_stagePoints`).
-/

namespace SeriesStorage

namespace Server

/-- What a server holds at a key at a second, when it drops a key whose second has been reached. -/
def Keyspace.heldAt (ks : Keyspace) (now : UInt64) (key : String) : Option Entry :=
  (ks.get? key).filter fun entry => entry.expireAt.all (now < ·)

theorem Keyspace.heldAt_of_get? {ks : Keyspace} {now : UInt64} {key : String} {entry : Entry}
    {second : UInt64} (found : ks.get? key = some entry) (ends : entry.expireAt = some second) :
    (ks.heldAt now key).isSome ↔ now < second := by
  unfold Keyspace.heldAt
  rw [found, Option.filter_some, ends]
  by_cases early : now < second <;> simp [early]

/-- After points were added to a key the key holds something, also if they were refused. -/
theorem get?_exec_addPoints (required : String) (ks : Keyspace) (key : String)
    (points : List (Binary64 × String)) :
    ∃ entry, (exec required (.addPoints key points) ks).2.get? key = some entry := by
  simp only [exec]
  cases set : ks.sortedSet? key with
  | ok scores =>
    dsimp only
    rw [Keyspace.get?_setValue, if_pos rfl]
    exact ⟨_, rfl⟩
  | error e =>
    -- only a key of another type refuses them
    cases found : ks.get? key with
    | some entry => exact ⟨entry, rfl⟩
    | none =>
      rw [Keyspace.sortedSet?, found] at set
      cases set

/-- A key that holds something is told its second. -/
theorem get?_exec_expireAt (required : String) {ks : Keyspace} {key : String} {entry : Entry}
    (found : ks.get? key = some entry) (second : UInt64) :
    (exec required (.expireAt key second) ks).2.get? key =
      some { entry with expireAt := some second } := by
  simp only [exec, found]
  rw [Table.get?_insert, if_pos rfl]

end Server

namespace Remote

open Server (Command Keyspace)

/-! ## What the keys of a batch are told -/

/-- The second at which the key of a bucket is told to go, in a series with this last second. -/
def keyEnd (bucket last : UInt64) : UInt64 := max (bucketEndSeconds bucket) last

/-- While a series is live no key is told to go by staged commands. -/
def Outlives (m : SeriesMetadata) (commands : List StagedCommand) : Prop :=
  ∀ staged ∈ commands, ∀ key second, staged.command = .expireAt key second →
    ∀ now, m.isExpired now = false → now < second

theorem lt_keyEnd {now bucket last : UInt64} :
    now < keyEnd bucket last ↔ now < last ∨ now < bucketEndSeconds bucket := by
  unfold keyEnd
  show now < (if bucketEndSeconds bucket ≤ last then last else bucketEndSeconds bucket) ↔ _
  simp only [UInt64.lt_iff_toNat_lt, UInt64.le_iff_toNat_le]
  split <;> omega

/-- In its last second a series is the only live one whose keys may be gone. -/
theorem lt_keyEnd_of_live {m : SeriesMetadata} {now bucket last : UInt64}
    (expires : m.expireAt = some last) (live : m.isExpired now = false) :
    now < keyEnd bucket last ↔ now ≠ last ∨ last < bucketEndSeconds bucket := by
  have reached : ¬ last < now := by simpa [SeriesMetadata.isExpired, expires] using live
  rw [lt_keyEnd]
  simp only [ne_eq, ← UInt64.toNat_inj, UInt64.lt_iff_toNat_lt] at reached ⊢
  omega

/-- The only second that the commands for a bucket tell is the one of its key. -/
theorem expireAt_mem_bucketCommands {m : SeriesMetadata} {points : List StoredPoint}
    {bucket : UInt64} {key : String} {second : UInt64} :
    (∃ staged ∈ bucketCommands m points bucket, staged.command = .expireAt key second) ↔
      ∃ last, m.expireAt = some last ∧ key = Key.data m.ref bucket ∧
        second = keyEnd bucket last := by
  unfold bucketCommands
  cases m.expireAt with
  | none => simp [StagedCommand.checked]
  | some last => simp [StagedCommand.checked, StagedCommand.unchecked, keyEnd, eq_comm]

theorem outlives_bucketCommands {m : SeriesMetadata} {points : List StoredPoint}
    {buckets : List UInt64} :
    Outlives m (buckets.flatMap (bucketCommands m points)) ↔
      ∀ last, m.expireAt = some last → ∀ bucket ∈ buckets, last < bucketEndSeconds bucket := by
  constructor
  · intro outlives last expires bucket inside
    obtain ⟨staged, hstaged, tells⟩ : ∃ staged ∈ bucketCommands m points bucket,
        staged.command = .expireAt (Key.data m.ref bucket) (keyEnd bucket last) :=
      expireAt_mem_bucketCommands.mpr ⟨last, expires, rfl, rfl⟩
    -- the last second itself is a live one
    have live : m.isExpired last = false := by simp [SeriesMetadata.isExpired, expires]
    have later := outlives staged (List.mem_flatMap.mpr ⟨bucket, inside, hstaged⟩) _ _ tells last
      live
    exact ((lt_keyEnd_of_live expires live).mp later).resolve_left fun other => other rfl
  · intro behind staged hstaged key second tells now live
    obtain ⟨bucket, inside, hstaged⟩ := List.mem_flatMap.mp hstaged
    obtain ⟨last, expires, rfl, rfl⟩ := expireAt_mem_bucketCommands.mp ⟨staged, hstaged, tells⟩
    exact (lt_keyEnd_of_live expires live).mpr (Or.inr (behind last expires bucket inside))

/-! ## What a server holds of a batch -/

/-- After the commands for a bucket of a series that expires its key holds something, and was told
its second. -/
theorem get?_execAll_bucket (required : String) {m : SeriesMetadata} {last : UInt64}
    (expires : m.expireAt = some last) (points : List StoredPoint) (bucket : UInt64)
    (ks : Keyspace) :
    ∃ entry, (Server.execAll (Server.exec required)
        ((bucketCommands m points bucket).map (·.command)) ks).2.get? (Key.data m.ref bucket) =
      some entry ∧ entry.expireAt = some (keyEnd bucket last) := by
  let adds := (points.filter (·.bucket = bucket)).map fun p => (p.score, p.member)
  obtain ⟨entry, added⟩ := Server.get?_exec_addPoints required ks (Key.data m.ref bucket) adds
  refine ⟨{ entry with expireAt := some (keyEnd bucket last) }, ?_, rfl⟩
  unfold bucketCommands
  rw [expires]
  exact Server.get?_exec_expireAt required added (keyEnd bucket last)

/-- After the commands for some buckets the same is true of the key of each. -/
theorem get?_execAll_buckets (required : String) {m : SeriesMetadata} {last : UInt64}
    (expires : m.expireAt = some last) (points : List StoredPoint) {buckets : List UInt64}
    {bucket : UInt64} (inside : bucket ∈ buckets) (ks : Keyspace) :
    ∃ entry, (Server.execAll (Server.exec required)
        ((buckets.flatMap (bucketCommands m points)).map (·.command)) ks).2.get?
          (Key.data m.ref bucket) = some entry ∧
      entry.expireAt = some (keyEnd bucket last) := by
  induction buckets generalizing ks with
  | nil => cases inside
  | cons first rest ih =>
    rw [List.flatMap_cons, List.map_append, Server.execAll_append]
    by_cases later : bucket ∈ rest
    · exact ih later _
    · -- what follows leaves the key of the first bucket alone
      obtain rfl : bucket = first := (List.mem_cons.mp inside).resolve_right later
      obtain ⟨entry, found, ends⟩ := get?_execAll_bucket required expires points bucket ks
      refine ⟨entry, ?_, ends⟩
      rw [← found]
      refine Server.get?_execAll required _ _ _ fun command hc changes => ?_
      obtain ⟨other, hother, same⟩ := changes_buckets hc changes
      refine data_ne ?_ same
      rintro rfl
      exact later hother

/-- The buckets of an encoded batch are those of its timestamps. -/
theorem mem_bucketsOf_encoded {draws : Draws} {batch : List (UInt64 × Binary64)}
    {points : List StoredPoint} (encoded : encodePoints draws 0 [] batch = .ok points)
    {bucket : UInt64} : bucket ∈ bucketsOf points ↔ ∃ p ∈ batch, bucketOf p.1 = bucket := by
  obtain ⟨stored, same, forms⟩ | ⟨time, refused⟩ := encodePoints_spec draws 0 [] batch
  · obtain rfl := Except.ok.inj (encoded.symm.trans same)
    rw [mem_bucketsOf]
    clear encoded same
    induction forms with
    | nil => simp
    | cons first _ ih => simp [ih, first.bucket]
  · rw [encoded] at refused
    cases refused

section Staged

variable {m : SeriesMetadata} {draws : Draws} {times : List UInt64} {values : List Binary64}
  {commands : List StagedCommand}

/-- The commands that store a batch, bucket by bucket. -/
theorem stagePoints_eq_ok (staged : stagePoints m draws times values = .ok commands) :
    ∃ points, commands = (bucketsOf points).flatMap (bucketCommands m points) ∧
      ∀ bucket, bucket ∈ bucketsOf points ↔ ∃ p ∈ times.zip values, bucketOf p.1 = bucket := by
  unfold stagePoints at staged
  cases encoded : encodePoints draws 0 [] (times.zip values) with
  | error e =>
    rw [encoded] at staged
    cases staged
  | ok points =>
    rw [encoded] at staged
    exact ⟨points, (Except.ok.inj staged).symm, fun bucket => mem_bucketsOf_encoded encoded⟩

/-- At a second at which the series is live a server that has executed the commands of a batch holds
the key of each of its points, whatever was stored before, unless this is the last second of the
series and the bucket of the point has ended by then. -/
theorem heldAt_execAll_stagePoints (staged : stagePoints m draws times values = .ok commands)
    {last : UInt64} (expires : m.expireAt = some last) (required : String) (ks : Keyspace)
    {p : UInt64 × Binary64} (inside : p ∈ times.zip values) {now : UInt64}
    (live : m.isExpired now = false) :
    ((Server.execAll (Server.exec required) (commands.map (·.command)) ks).2.heldAt now
        (Key.data m.ref (bucketOf p.1))).isSome ↔
      now ≠ last ∨ last < bucketEndSeconds (bucketOf p.1) := by
  obtain ⟨points, rfl, buckets⟩ := stagePoints_eq_ok staged
  obtain ⟨entry, found, ends⟩ :=
    get?_execAll_buckets required expires points ((buckets _).mpr ⟨p, inside, rfl⟩) ks
  exact (Keyspace.heldAt_of_get? found ends).trans (lt_keyEnd_of_live expires live)

/-- **Points outlive their series, but for its last second.**  Every key of a batch is told a later
second than each at which the series is live exactly if the bucket of each point ends behind the
last second of the series.  Otherwise a server drops the points of the buckets that have ended by
then in the last second of the series, and keeps all points at all other seconds at which the series
is live. -/
theorem outlives_stagePoints (staged : stagePoints m draws times values = .ok commands) :
    (Outlives m commands ↔ ∀ last, m.expireAt = some last →
      ∀ p ∈ times.zip values, last < bucketEndSeconds (bucketOf p.1)) ∧
    ∀ last, m.expireAt = some last → ∀ (required : String) (ks : Keyspace),
      ∀ p ∈ times.zip values, ∀ now, m.isExpired now = false →
        (((Server.execAll (Server.exec required) (commands.map (·.command)) ks).2.heldAt now
            (Key.data m.ref (bucketOf p.1))).isSome ↔
          now ≠ last ∨ last < bucketEndSeconds (bucketOf p.1)) := by
  refine ⟨?_, fun last expires required ks p inside now live =>
    heldAt_execAll_stagePoints staged expires required ks inside live⟩
  obtain ⟨points, rfl, buckets⟩ := stagePoints_eq_ok staged
  rw [outlives_bucketCommands]
  refine forall₂_congr fun last _ => ⟨fun behind p inside => ?_, fun behind bucket inside => ?_⟩
  · exact behind _ ((buckets _).mpr ⟨p, inside, rfl⟩)
  · obtain ⟨p, hp, rfl⟩ := (buckets bucket).mp inside
    exact behind p hp

end Staged

/-! ## A series of ten seconds -/

/-- A series that was created in August 2020, to live for ten seconds. -/
def tenSeconds : SeriesMetadata where
  id := ⟨1⟩
  ns := ⟨0⟩
  name := "load"
  tags := []
  expireAt := some 1598261335

/-- A point of 1970 and one of the day of creation, in their stored forms. -/
def tenSecondsPoints : List StoredPoint :=
  [⟨0, ⟨0x4014000000000000⟩, "3:5.000000"⟩,
    ⟨1598227200000, ⟨0x427741fcc6d43000⟩, "3:61325123.000000"⟩]

/-- The commands that store the two points. -/
def tenSecondsStaged : List StagedCommand :=
  [.checked (.addPoints "data_0-1-0" [(⟨0x4014000000000000⟩, "3:5.000000")]) 1,
    .unchecked (.expireAt "data_0-1-0" 1598261335),
    .checked (.addPoints "data_0-1-1598227200000" [(⟨0x427741fcc6d43000⟩, "3:61325123.000000")]) 1,
    .unchecked (.expireAt "data_0-1-1598227200000" 1598313600)]

theorem stagePoints_tenSeconds :
    stagePoints tenSeconds (fun _ _ => .zero) [5, 1598261325123]
      [⟨0x4008000000000000⟩, ⟨0x4008000000000000⟩] = .ok tenSecondsStaged := by
  have encoded : encodePoints (fun _ _ => .zero) 0 []
      [(5, ⟨0x4008000000000000⟩), (1598261325123, ⟨0x4008000000000000⟩)] =
        .ok tenSecondsPoints := by decide +kernel
  have buckets : bucketsOf tenSecondsPoints = [0, 1598227200000] :=
    List.mergeSort_of_pairwise (by decide)
  show Except.map _ (encodePoints _ _ _ [_, _]) = _
  rw [encoded, Except.map, buckets]
  decide +kernel

/-- In its last second, when it is still live, the series of ten seconds has lost the point of 1970
and kept the one of the day of creation, on every server. -/
theorem outlives_stagePoints_tenSeconds :
    stagePoints tenSeconds (fun _ _ => .zero) [5, 1598261325123]
        [⟨0x4008000000000000⟩, ⟨0x4008000000000000⟩] = .ok tenSecondsStaged ∧
      tenSeconds.isExpired 1598261335 = false ∧
      ∀ (required : String) (ks : Keyspace),
        (((Server.execAll (Server.exec required) (tenSecondsStaged.map (·.command)) ks).2.heldAt
          1598261335 (Key.data tenSeconds.ref 0)).isSome = false) ∧
        ((Server.execAll (Server.exec required) (tenSecondsStaged.map (·.command)) ks).2.heldAt
          1598261335 (Key.data tenSeconds.ref 1598227200000)).isSome = true := by
  refine ⟨stagePoints_tenSeconds, rfl, fun required ks => ?_⟩
  have held := (outlives_stagePoints stagePoints_tenSeconds).2 1598261335 rfl required ks
  constructor
  · rw [Bool.eq_false_iff, ne_eq]
    refine (held (5, ⟨0x4008000000000000⟩) (by decide) 1598261335 rfl).not.mpr ?_
    decide
  · exact (held (1598261325123, ⟨0x4008000000000000⟩) (by decide) 1598261335 rfl).mpr (by decide)

/-- The commands for the series of ten seconds tell the key of 1970 to go in the last second of the
series, in which it is still live. -/
theorem not_outlives_tenSeconds :
    stagePoints tenSeconds (fun _ _ => .zero) [5, 1598261325123]
        [⟨0x4008000000000000⟩, ⟨0x4008000000000000⟩] = .ok tenSecondsStaged ∧
      ¬ Outlives tenSeconds tenSecondsStaged := by
  refine ⟨stagePoints_tenSeconds, fun outlives => ?_⟩
  have later : (1598261335 : UInt64) < 1598261335 :=
    outlives (.unchecked (.expireAt "data_0-1-0" 1598261335)) (by simp [tenSecondsStaged])
      "data_0-1-0" 1598261335 rfl 1598261335 rfl
  exact absurd later (by decide)

end Remote

end SeriesStorage
