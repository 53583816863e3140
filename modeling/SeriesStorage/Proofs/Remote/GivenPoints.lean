import SeriesStorage.Proofs.Deployment.Lifetimes
import SeriesStorage.Proofs.Remote.Orderly
import SeriesStorage.Proofs.Remote.ReadingPoints

/-!
# Where stored points come from

The sets of a server hold only points that were given for their series (`HoldsGiven`) as long as no
command adds others (`Brings`).  A batch of points is turned into such commands
(`stagePoints_brings`).

* `Reaches.append_given`: a write fails before it sends anything, or answers what `touches` looks
  for; if it succeeds its points have their entries.
* `Reaches.fetch_held`: a read shows what the sets hold in its window.
* `Reaches.fetch_given`: a read shows points that were given.
-/

namespace SeriesStorage

namespace Remote

open Server (Command Keyspace Network Node)

/-! ## Sets of points that were given -/

/-- The sets of every series hold points that were given for the series. -/
def HoldsGiven (given : SeriesRef → AcceptedPoint → Prop) (ks : Keyspace) : Prop :=
  ∀ ref bucket, ∃ scores, ks.sortedSet? (Key.data ref bucket) = .ok scores ∧
    ∀ entry ∈ scores.entries, ∃ p, given ref p ∧ StandsFor p entry

/-- An entry is in a set of a series. -/
def InSet (ks : Keyspace) (ref : SeriesRef) (bucket : UInt64) (entry : String × Binary64) : Prop :=
  ∃ scores, ks.sortedSet? (Key.data ref bucket) = .ok scores ∧ entry ∈ scores.entries

/-- A command changes no key, or it changes a set of a series and adds only points that were given
for the series. -/
inductive Brings (given : SeriesRef → AcceptedPoint → Prop) : Command → Prop
  | quiet {command : Command} : (∀ key, ¬ command.Changes key) → Brings given command
  | points (ref : SeriesRef) (bucket : UInt64) (points : List (Binary64 × String)) :
      (∀ point ∈ points, ∃ p, given ref p ∧ StandsFor p (point.2, point.1)) →
      Brings given (.addPoints (Key.data ref bucket) points)
  | ending (ref : SeriesRef) (bucket second : UInt64) :
      Brings given (.expireAt (Key.data ref bucket) second)

variable {given given' : SeriesRef → AcceptedPoint → Prop} {ks ks' : Keyspace}

theorem Brings.mono {command : Command} (h : Brings given command)
    (more : ∀ ref p, given ref p → given' ref p) : Brings given' command := by
  cases h with
  | quiet keyless => exact .quiet keyless
  | points ref bucket points sourced =>
    refine .points ref bucket points fun point inside => ?_
    obtain ⟨p, hp, stands⟩ := sourced point inside
    exact ⟨p, more ref p hp, stands⟩
  | ending ref bucket second => exact .ending ref bucket second

theorem Brings.onPoints {command : Command} (h : Brings given command) : OnPoints command := by
  intro k other changes
  cases h with
  | quiet keyless => exact keyless _ changes
  | points ref bucket points _ =>
    exact KeyName.text_ne (k := .data ref bucket) (other ref bucket).symm changes
  | ending ref bucket second =>
    exact KeyName.text_ne (k := .data ref bucket) (other ref bucket).symm changes

theorem holdsGiven_empty : HoldsGiven given .empty := fun _ _ => ⟨.empty, rfl, nofun⟩

theorem HoldsGiven.mono (h : HoldsGiven given ks) (more : ∀ ref p, given ref p → given' ref p) :
    HoldsGiven given' ks := by
  intro ref bucket
  obtain ⟨scores, found, sourced⟩ := h ref bucket
  refine ⟨scores, found, fun entry inside => ?_⟩
  obtain ⟨p, hp, stands⟩ := sourced entry inside
  exact ⟨p, more ref p hp, stands⟩

/-- Only the sets of points matter. -/
theorem HoldsGiven.congr (h : HoldsGiven given ks)
    (same : ∀ ref bucket, ks'.get? (Key.data ref bucket) = ks.get? (Key.data ref bucket)) :
    HoldsGiven given ks' := by
  intro ref bucket
  obtain ⟨scores, found, sourced⟩ := h ref bucket
  exact ⟨scores, (sortedSet?_congr (same ref bucket)).trans found, sourced⟩

/-- One set changes. -/
theorem HoldsGiven.change (h : HoldsGiven given ks) {ref : SeriesRef} {bucket : UInt64}
    {scores : Table String Binary64} (here : ks'.sortedSet? (Key.data ref bucket) = .ok scores)
    (sourced : ∀ entry ∈ scores.entries, ∃ p, given ref p ∧ StandsFor p entry)
    (others : ∀ key, key ≠ Key.data ref bucket → ks'.get? key = ks.get? key) :
    HoldsGiven given ks' := by
  intro ref' bucket'
  by_cases same : KeyName.data ref' bucket' = .data ref bucket
  · obtain ⟨rfl, rfl⟩ := KeyName.data.inj same
    exact ⟨scores, here, sourced⟩
  · obtain ⟨old, found, oldSourced⟩ := h ref' bucket'
    exact ⟨old, (sortedSet?_congr (others _ (KeyName.text_ne same))).trans found, oldSourced⟩

/-- **One command** that brings only points that were given. -/
theorem HoldsGiven.exec (h : HoldsGiven given ks) {command : Command}
    (brings : Brings given command) (required : String) :
    HoldsGiven given (Server.exec required command ks).2 := by
  cases brings with
  | quiet keyless =>
    rw [Server.exec_unchanged required ks keyless]
    exact h
  | points ref bucket points brought =>
    obtain ⟨scores, found, sourced⟩ := h ref bucket
    obtain ⟨last, ran, here⟩ := exec_addPoints required found points
    rw [ran]
    refine h.change here (fun entry inside => ?_) fun key other => ?_
    · rcases Server.mem_addScores inside with old | new
      · exact sourced entry old
      · exact brought _ new
    · have kept := Server.get?_exec required (.addPoints _ points) ks key (Ne.symm other)
      rwa [ran] at kept
  | ending ref bucket second =>
    obtain ⟨scores, found, sourced⟩ := h ref bucket
    obtain ⟨n, last, ran, kept⟩ := exec_expireAt required ks (Key.data ref bucket) second
    rw [ran]
    refine h.change (kept.trans found) sourced fun key other => ?_
    have others := Server.get?_exec required (.expireAt _ second) ks key (Ne.symm other)
    rwa [ran] at others

theorem HoldsGiven.execAll (h : HoldsGiven given ks) {commands : List Command}
    (brings : ∀ command ∈ commands, Brings given command) (required : String) :
    HoldsGiven given (Server.execAll (Server.exec required) commands ks).2 := by
  induction commands generalizing ks with
  | nil => exact h
  | cons command rest ih =>
    exact ih (h.exec (brings command List.mem_cons_self) required)
      fun c inside => brings c (List.mem_cons_of_mem _ inside)

/-! ## Writing -/

/-- What is staged for a batch brings the points of the batch. -/
theorem stagePoints_brings {m : SeriesMetadata} {draws : Draws} {times : List UInt64}
    {values : List Binary64} {commands : List StagedCommand}
    (h : stagePoints m draws times values = .ok commands)
    (all : ∀ p ∈ times.zip values, given m.ref p) :
    ∀ staged ∈ commands, Brings given staged.command := by
  unfold stagePoints at h
  obtain ⟨points, encoded, stored⟩ | ⟨time, refused⟩ :=
    encodePoints_spec draws 0 [] (times.zip values)
  · rw [encoded] at h
    obtain rfl := Except.ok.inj h
    have added : ∀ bucket, Brings given (.addPoints (Key.data m.ref bucket)
        ((points.filter (·.bucket = bucket)).map fun p => (p.score, p.member))) := by
      refine fun bucket => .points m.ref bucket _ fun point inside => ?_
      obtain ⟨p, hp, rfl⟩ := List.mem_map.mp inside
      obtain ⟨q, hq, of⟩ := exists_left_of_forall₂ stored (List.mem_filter.mp hp).1
      exact ⟨q, all q hq, of.score, of.member⟩
    intro staged inside
    obtain ⟨bucket, _, inside⟩ := List.mem_flatMap.mp inside
    unfold bucketCommands at inside
    cases expiry : m.expireAt with
    | none =>
      rw [expiry] at inside
      obtain rfl := List.mem_singleton.mp inside
      exact added bucket
    | some second =>
      rw [expiry] at inside
      rcases List.mem_cons.mp inside with rfl | inside
      · exact added bucket
      · obtain rfl := List.mem_singleton.mp inside
        exact .ending m.ref bucket _
  · rw [refused] at h
    cases h

variable {site : Site Network} {connections : Connections} {c : Connection} {node : Node}

/-- **A write** is refused for lack of a free place before anything is sent, or all its commands are
executed or staged; if all are executed as they should be, each point has its entry. -/
theorem Reaches.append_given {ns : Namespace} (h : Reaches site connections ns c node)
    (connected : site.client.connections = some connections)
    (holds : HoldsGiven given node.keyspace)
    (req : RequestId) (m : SeriesMetadata) (draws : Draws) (times : List UInt64)
    (values : List Binary64) :
    let outcome := site.outcome (Remote.append ns req m draws times values)
    (∃ time, outcome = .fail (.keySpaceExhausted time) site) ∨
    (outcome.answer = .ok () ∧ (req.isEmpty = true →
      ∃ ks, outcome = .succeed () (site.setKeys c.server ks) ∧
        ∀ p ∈ times.zip values, ∃ entry, InSet ks m.ref (bucketOf p.1) entry ∧
          StandsFor p entry)) ∨
    ∃ expected stored, outcome.answer = .error (.internal (.writeCount expected stored)) := by
  intro outcome
  unfold outcome Remote.append stagePoints
  rw [Site.outcome_bind, Site.outcome_connected connected, Outcome.andThen_succeed,
    Site.outcome_bind, Site.outcome_ofExcept]
  obtain ⟨points, encoded, ofBatch⟩ | ⟨time, refused⟩ :=
    encodePoints_spec draws 0 [] (times.zip values)
  · rw [encoded, Outcome.andThen_eq_of_ok rfl, Outcome.state_answered]
    split
    · have sets : ∀ bucket ∈ bucketsOf points,
          ∃ scores, node.keyspace.sortedSet? (Key.data m.ref bucket) = .ok scores := by
        intro bucket _
        obtain ⟨scores, found, _⟩ := holds m.ref bucket
        exact ⟨scores, found⟩
      obtain ⟨replies, last, n, runs, total, _, appended, _⟩ :=
        runs_buckets node.password m points (nodup_bucketsOf points) sets
      rw [h.execute_counted runs total]
      unfold checkCount
      split
      · exact Or.inr (Or.inr ⟨_, _, rfl⟩)
      · next all =>
        refine Or.inr (Or.inl ⟨rfl, fun _ => ⟨last, rfl, fun p inside => ?_⟩⟩)
        obtain ⟨q, hq, of⟩ := exists_left_of_forall₂ ofBatch.flip inside
        have written : q.bucket ∈ bucketsOf points := mem_bucketsOf.mpr ⟨q, hq, rfl⟩
        obtain ⟨scores, found, _⟩ := holds m.ref q.bucket
        obtain ⟨scores', found', entries⟩ := appended (by simpa using all) q.bucket written scores found
        refine ⟨(q.member, q.score), ⟨scores', of.bucket ▸ found', ?_⟩, of.score, of.member⟩
        rw [entries]
        refine List.mem_append_right _ (List.mem_map.mpr ⟨q, List.mem_filter.mpr ⟨hq, ?_⟩, rfl⟩)
        exact decide_eq_true rfl
    · next staged => exact Or.inr (Or.inl ⟨rfl, fun direct => absurd direct staged⟩)
  · rw [refused]
    exact Or.inl ⟨time, rfl⟩

/-! ## Reading -/

/-- Entries that stand for points are decoded: all those of the window, and no others. -/
theorem decodeScored_given {entries : List (String × Binary64)} {P : AcceptedPoint → Prop}
    (stands : ∀ entry ∈ entries, ∃ p, P p ∧ StandsFor p entry) (window : Window) :
    ∃ scored, decodeScored window entries = .ok scored ∧
      ∀ s, s ∈ scored ↔ ∃ entry ∈ entries, window.contains entry.2 = true ∧
        s.1 = entry.2 ∧ decodeMember entry.1 = .ok s.2 := by
  have filtered : ∀ s : Binary64 × Binary64,
      (∃ entry ∈ entries, window.contains entry.2 = true ∧ s.1 = entry.2 ∧
        decodeMember entry.1 = .ok s.2) ↔
      ∃ entry ∈ entries.filter fun e => window.contains e.2, s.1 = entry.2 ∧
        decodeMember entry.1 = .ok s.2 := by
    simp only [List.mem_filter, and_assoc, implies_true]
  simp only [filtered]
  unfold decodeScored
  have standing : ∀ entry ∈ entries.filter fun e => window.contains e.2,
      ∃ p, P p ∧ StandsFor p entry := fun entry inside => stands entry (List.mem_filter.mp inside).1
  generalize entries.filter (fun e => window.contains e.2) = chosen at standing ⊢
  induction chosen with
  | nil => exact ⟨[], rfl, fun s => by simp⟩
  | cons entry rest ih =>
    obtain ⟨member, score⟩ := entry
    obtain ⟨p, hp, first⟩ := standing (member, score) List.mem_cons_self
    obtain ⟨scored, decoded, others⟩ := ih fun e he => standing e (List.mem_cons_of_mem _ he)
    have value : decodeMember member = .ok p.2.canonical := first.member
    refine ⟨(score, p.2.canonical) :: scored, ?_, fun s => ?_⟩
    · rw [List.mapM_cons, decoded]
      dsimp only
      rw [value]
      rfl
    · simp only [List.mem_cons, others, exists_eq_or_imp, value, Except.ok.injEq]
      exact or_congr_left (Prod.ext_iff.trans (and_congr_right fun _ => eq_comm))

/-- What a window shows of the sets of a series: scores with the values of their members. -/
def Held (ks : Keyspace) (ref : SeriesRef) (window : Window) (s : Binary64 × Binary64) : Prop :=
  ∃ bucket ∈ bucketsIn window.first window.last, ∃ entry, InSet ks ref bucket entry ∧
    window.contains entry.2 = true ∧ s.1 = entry.2 ∧ decodeMember entry.1 = .ok s.2

/-- **A read** within the limit shows all that the sets hold in its window, and nothing else. -/
theorem Reaches.fetch_held {ref : SeriesRef} (h : Reaches site connections ref.ns c node)
    (connected : site.client.connections = some connections)
    (holds : HoldsGiven given node.keyspace) {window : Window}
    (order : window.first ≤ window.last)
    (narrow : (bucketCount window.first window.last).toNat ≤ maxReadBuckets) :
    ∃ answer, site.outcome (Remote.fetch ref window) = .answered answer site ∧
      ((answer = .error .noDataFound ∧ ∀ s, ¬ Held node.keyspace ref window s) ∨
        ∃ points, answer = .ok points ∧ points ≠ [] ∧ ∀ p : Point, p ∈ points ↔
          ∃ s, Held node.keyspace ref window s ∧ ⟨keyTime s.1, s.2⟩ = p) := by
  choose scores found sourced using holds ref
  let ranges := (bucketsIn window.first window.last).flatMap fun bucket =>
    Server.membersBetween (scores bucket) (.ofUInt64 window.first) window.upperKey
  have asked : site.outcome (Remote.queryRanges c
      ((bucketsIn window.first window.last).map fun bucket =>
        .pointsBetween (Key.data ref bucket) window.first window.upperKey)) =
      .succeed ranges site :=
    h.queryRanges fun bucket _ => by simp only [Server.exec, found bucket]
  have stands : ∀ entry ∈ ranges, ∃ q, given ref q ∧ StandsFor q entry := by
    intro entry inside
    obtain ⟨bucket, _, inside⟩ := List.mem_flatMap.mp inside
    exact sourced bucket entry (List.mem_filter.mp (List.mem_mergeSort.mp inside)).1
  obtain ⟨scored, decoded, members⟩ := decodeScored_given stands window
  -- the server leaves out only what is not in the window
  have held : ∀ s, s ∈ scored ↔ Held node.keyspace ref window s := by
    intro s
    rw [members]
    constructor
    · rintro ⟨entry, inside, within, same⟩
      obtain ⟨bucket, hbucket, inside⟩ := List.mem_flatMap.mp inside
      exact ⟨bucket, hbucket, entry, ⟨scores bucket, found bucket,
        (List.mem_filter.mp (List.mem_mergeSort.mp inside)).1⟩, within, same⟩
    · rintro ⟨bucket, hbucket, entry, ⟨scores', found', inside⟩, within, same⟩
      obtain rfl := Except.ok.inj ((found bucket).symm.trans found')
      obtain ⟨q, _, stand⟩ := sourced bucket entry inside
      obtain ⟨low, high⟩ := stand.score.between within
      refine ⟨entry, List.mem_flatMap.mpr ⟨bucket, hbucket, List.mem_mergeSort.mpr
        (List.mem_filter.mpr ⟨inside, ?_⟩)⟩, within, same⟩
      simpa using ⟨low, high⟩
  have buckets : readBuckets window.first window.last =
      .ok (bucketsIn window.first window.last) := if_neg (Nat.not_lt.mpr narrow)
  unfold Remote.fetch
  rw [Site.outcome_bind, Site.outcome_connected connected, Outcome.andThen_succeed,
    if_neg (UInt64.not_lt.mpr order), Site.outcome_bind, Site.outcome_ofExcept, buckets,
    Outcome.andThen_eq_of_ok rfl, Outcome.state_answered, Site.outcome_bind,
    Site.outcome_ofExcept, h.route, Outcome.andThen_eq_of_ok rfl, Outcome.state_answered,
    Site.outcome_bind, asked, Outcome.andThen_succeed, Site.outcome_bind,
    Site.outcome_ofExcept, decoded, Outcome.andThen_eq_of_ok rfl, Outcome.state_answered]
  by_cases empty : scored.isEmpty = true
  · rw [if_pos empty]
    obtain rfl := List.isEmpty_iff.mp empty
    refine ⟨.error .noDataFound, rfl, Or.inl ⟨rfl, fun s shown => ?_⟩⟩
    exact List.not_mem_nil ((held s).mpr shown)
  · rw [if_neg empty]
    refine ⟨.ok _, rfl, Or.inr ⟨_, rfl, fun nothing => empty ?_, fun p => ?_⟩⟩
    · have size := congrArg List.length nothing
      rw [List.length_map, List.length_mergeSort] at size
      exact List.isEmpty_iff.mpr (List.length_eq_zero_iff.mp size)
    · simp only [List.mem_map, List.mem_mergeSort, held]

/-- **A read** shows points that were given, or fails for another reason than an expired series. -/
theorem Reaches.fetch_given {ref : SeriesRef} (h : Reaches site connections ref.ns c node)
    (connected : site.client.connections = some connections)
    (holds : HoldsGiven given node.keyspace)
    (window : Window) :
    ∃ answer, site.outcome (Remote.fetch ref window) = .answered answer site ∧
      answer ≠ .error .seriesExpired ∧ ∀ points, answer = .ok points →
        ∀ p : Point, p ∈ points → ∃ q, given ref q ∧ p.ShowsGiven q := by
  by_cases before : window.last < window.first
  · unfold Remote.fetch
    rw [Site.outcome_bind, Site.outcome_connected connected, Outcome.andThen_succeed, if_pos before]
    exact ⟨.error .noDataFound, rfl, by simp, by simp⟩
  · by_cases wide : maxReadBuckets < (bucketCount window.first window.last).toNat
    · have refused : readBuckets window.first window.last = .error (.invalidQuery
          (.span window.first window.last _ maxReadBuckets)) := if_pos wide
      unfold Remote.fetch
      rw [Site.outcome_bind, Site.outcome_connected connected, Outcome.andThen_succeed,
        if_neg before, Site.outcome_bind, Site.outcome_ofExcept, refused]
      exact ⟨.error _, rfl, by simp, by simp⟩
    · obtain ⟨answer, ran, ⟨rfl, _⟩ | ⟨points, rfl, _, shown⟩⟩ :=
        h.fetch_held connected holds (UInt64.not_lt.mp before) (Nat.not_lt.mp wide)
      · exact ⟨_, ran, by simp, by simp⟩
      · refine ⟨_, ran, by simp, fun found same p inside => ?_⟩
        obtain rfl := Except.ok.inj same
        obtain ⟨s, ⟨bucket, _, entry, ⟨scores, found, there⟩, _, score, member⟩, rfl⟩ :=
          (shown p).mp inside
        obtain ⟨scores', found', sourced⟩ := holds ref bucket
        obtain rfl := Except.ok.inj (found.symm.trans found')
        obtain ⟨q, hq, stands⟩ := sourced entry there
        have value : s.2 = q.2.canonical := Except.ok.inj (member.symm.trans stands.member)
        refine ⟨q, hq, ?_, ?_⟩
        · rw [score]
          exact stands.score.keyTime_eq
        · show s.2.canonical = q.2.canonical
          rw [value, Binary64.canonical_canonical]

end Remote

end SeriesStorage
