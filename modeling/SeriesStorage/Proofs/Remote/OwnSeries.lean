import Mathlib.Data.List.Nodup
import SeriesStorage.Proofs.Remote.CachedRecords
import SeriesStorage.Proofs.Remote.StoringPoints

/-!
# Series with points of this backend

What is assumed of a single series, whatever else its server holds and the client keeps: an access
finds a descriptor of the series (`AccessFinds`), and its sets hold only entries that a write leaves
(`OwnSets`).

* `OwnSets.holdsPoints`: then the sets hold some points.
* `Reaches.guarded_found`: a read or a write of a series that is found goes on with it.
-/

namespace SeriesStorage

namespace Remote

open Server (Keyspace Network Node Stage)

/-! ## Entries of this backend -/

/-- An entry that a write leaves in the set of a bucket: its score is a key of some timestamp of the
bucket, and its member is the text of a value under this score. -/
def Written (bucket : UInt64) (entry : String × Binary64) : Prop :=
  ∃ time value, bucketOf time = bucket ∧ IsKeyOf time entry.2 ∧
    entry.1 = (encodeScored time entry.2 value).member

/-- The sets of a series hold only entries that writes leave. -/
def OwnSets (ks : Keyspace) (ref : SeriesRef) : Prop :=
  ∀ bucket, ∃ scores, ks.sortedSet? (Key.data ref bucket) = .ok scores ∧
    ∀ entry ∈ scores.entries, Written bucket entry

theorem Written.standsFor {bucket : UInt64} {entry : String × Binary64} (h : Written bucket entry) :
    ∃ p : UInt64 × Binary64, bucketOf p.1 = bucket ∧ StandsFor p entry := by
  obtain ⟨time, value, here, key, member⟩ := h
  exact ⟨(time, value), here, key, by rw [member]; exact decodeMember_encodeScored _ _ _⟩

/-- Entries of this backend stand for points of their bucket. -/
theorem exists_standsFor {bucket : UInt64} {entries : List (String × Binary64)}
    (written : ∀ entry ∈ entries, Written bucket entry) :
    ∃ points : List (UInt64 × Binary64), (∀ p ∈ points, bucketOf p.1 = bucket) ∧
      List.Forall₂ StandsFor points entries := by
  induction entries with
  | nil => exact ⟨[], nofun, .nil⟩
  | cons entry rest ih =>
    obtain ⟨p, here, stands⟩ := (written entry List.mem_cons_self).standsFor
    obtain ⟨others, there, standing⟩ := ih fun e inside => written e (List.mem_cons_of_mem _ inside)
    exact ⟨p :: others, List.forall_mem_cons.mpr ⟨here, there⟩, .cons stands standing⟩

/-- All words, each once. -/
theorem exists_all_words : ∃ words : List UInt64, words.Nodup ∧ ∀ n, n ∈ words := by
  refine ⟨(List.range 0x10000000000000000).map UInt64.ofNat, ?_, fun n => ?_⟩
  · refine List.Nodup.map_on (fun a ha b hb same => ?_) List.nodup_range
    have equal := congrArg UInt64.toNat same
    rw [List.mem_range] at ha hb
    rwa [UInt64.toNat_ofNat_of_lt' ha, UInt64.toNat_ofNat_of_lt' hb] at equal
  · exact List.mem_map.mpr ⟨n.toNat, List.mem_range.mpr n.toNat_lt, UInt64.ofNat_toNat⟩

/-- Lists of points by bucket are what the buckets have of one list. -/
theorem exists_points_inBucket {contents : UInt64 → List (UInt64 × Binary64)}
    (here : ∀ bucket, ∀ p ∈ contents bucket, bucketOf p.1 = bucket) :
    ∃ points, ∀ bucket, inBucket bucket points = contents bucket := by
  obtain ⟨words, nodup, all⟩ := exists_all_words
  refine ⟨words.flatMap contents, fun bucket => ?_⟩
  unfold inBucket
  rw [List.filter_flatMap]
  have chosen : ∀ b, (contents b).filter (fun p => decide (bucketOf p.1 = bucket)) =
      if b = bucket then contents b else [] := by
    intro b
    split
    · next same =>
      exact List.filter_eq_self.mpr fun p hp => decide_eq_true ((here b p hp).trans same)
    · next other =>
      refine List.filter_eq_nil_iff.mpr fun p hp same => other ?_
      rw [← here b p hp]
      exact of_decide_eq_true same
  simp only [chosen]
  have there := all bucket
  clear all
  induction words with
  | nil => cases there
  | cons b rest ih =>
    obtain ⟨fresh, nodup⟩ := List.nodup_cons.mp nodup
    rw [List.flatMap_cons]
    by_cases same : b = bucket
    · subst same
      have none : rest.flatMap (fun b' => if b' = b then contents b' else []) = [] := by
        refine List.flatMap_eq_nil_iff.mpr fun b' inside => if_neg ?_
        rintro rfl
        exact fresh inside
      rw [if_pos rfl, none, List.append_nil]
    · rw [if_neg same, List.nil_append]
      exact ih nodup ((List.mem_cons.mp there).resolve_left (Ne.symm same))

/-- Sets with entries of this backend hold some points. -/
theorem OwnSets.holdsPoints {ks : Keyspace} {ref : SeriesRef} (h : OwnSets ks ref) :
    ∃ points, HoldsPoints ks ref points := by
  have each : ∀ bucket, ∃ contents : List (UInt64 × Binary64),
      (∀ p ∈ contents, bucketOf p.1 = bucket) ∧
        ∃ scores, ks.sortedSet? (Key.data ref bucket) = .ok scores ∧
          List.Forall₂ StandsFor contents scores.entries := by
    intro bucket
    obtain ⟨scores, found, written⟩ := h bucket
    obtain ⟨contents, here, stands⟩ := exists_standsFor written
    exact ⟨contents, here, scores, found, stands⟩
  choose contents here held using each
  obtain ⟨points, same⟩ := exists_points_inBucket here
  refine ⟨points, fun bucket => ?_⟩
  rw [same]
  exact held bucket

/-! ## Descriptors that are found -/

/-- An access to a series finds a descriptor of it: the cache keeps it, or it does not know the
series and the server holds its record. -/
def AccessFinds (cache : Cache) (ks : Keyspace) (ref : SeriesRef) (m : SeriesMetadata) : Prop :=
  m.ref = ref ∧ (cache.capacity ≠ 0 ∧ cache.get? ref = some m ∨
    cache.get? ref = none ∧ HoldsRecord ks ref m)

theorem Cache.get?_insert_self {cache : Cache} (on : cache.capacity ≠ 0) (ref : SeriesRef)
    (m : SeriesMetadata) : (cache.insert ref m).get? ref = some m := by
  obtain ⟨n, size⟩ := Nat.exists_eq_succ_of_ne_zero on
  simp [Cache.get?, Cache.insert, size]

theorem Cache.get?_insert_off {cache : Cache} (off : cache.capacity = 0) (ref : SeriesRef)
    (m : SeriesMetadata) : (cache.insert ref m).get? ref = none := by
  simp [Cache.get?, Cache.insert, off]

namespace AccessFinds

variable {cache : Cache} {ks ks' : Keyspace} {ref : SeriesRef} {m : SeriesMetadata}

/-- What was found is found again. -/
theorem remember (h : AccessFinds cache ks ref m) : AccessFinds (cache.insert ref m) ks ref m := by
  obtain ⟨own, there⟩ := h
  refine ⟨own, ?_⟩
  by_cases off : cache.capacity = 0
  · obtain ⟨on, _⟩ | ⟨_, record⟩ := there
    · exact absurd off on
    · exact Or.inr ⟨Cache.get?_insert_off off ref m, record⟩
  · exact Or.inl ⟨off, Cache.get?_insert_self off ref m⟩

/-- Only the key of the descriptor matters. -/
theorem congr (h : AccessFinds cache ks ref m)
    (same : ks'.get? (Key.descriptor ref) = ks.get? (Key.descriptor ref)) :
    AccessFinds cache ks' ref m :=
  ⟨h.1, h.2.imp_right fun ⟨absent, record⟩ => ⟨absent, record.congr same⟩⟩

end AccessFinds

/-! ## Going on with a series -/

namespace Reaches

variable {site : Site Network} {connections : Connections} {c : Connection} {node : Node}
  {ref : SeriesRef} {m : SeriesMetadata}

theorem access_found (h : Reaches site connections ref.ns c node)
    (connected : site.client.connections = some connections)
    (finds : AccessFinds site.client.cache node.keyspace ref m) (now : UInt64) :
    site.outcome (Remote.access now ref) =
      .succeed (if m.isExpired now then .expired m else .live m)
        (site.remember ref (some m)) := by
  obtain ⟨own, there⟩ := finds
  have ns : m.ns = ref.ns := congrArg SeriesRef.ns own
  have found : site.outcome (Remote.cachedMetadata connections ref) =
      .succeed (some m) (site.remember ref (some m)) := by
    unfold Remote.cachedMetadata
    rw [Site.outcome_bind, Site.outcome_get, Outcome.andThen_succeed]
    obtain ⟨_, cached⟩ | ⟨absent, text, stored, decoded, _⟩ := there
    · rw [cached]
      dsimp only
      rw [Site.outcome_bind, Site.outcome_modify, Outcome.andThen_succeed]
      rfl
    · have run : Server.exec node.password (.get (Key.descriptor ref)) node.keyspace =
          (.ok (.text text), node.keyspace) := by
        simp only [Server.exec, stored]
      rw [absent]
      dsimp only
      unfold Remote.loadMetadata
      have asked := h.ask_unchanged run (show textOrNothing (.text text) = .ok (some text) from rfl)
      rw [Site.outcome_bind, Site.outcome_bind, asked, Outcome.andThen_succeed]
      dsimp only
      rw [decoded]
      dsimp only
      rw [Site.outcome_pure, Outcome.andThen_succeed]
      dsimp only
      rw [Site.outcome_bind, Site.outcome_modify, Outcome.andThen_succeed]
      rfl
  unfold Remote.access
  rw [Site.outcome_bind, Site.outcome_connected connected, Outcome.andThen_succeed,
    Site.outcome_bind, found, Outcome.andThen_succeed, Site.outcome_pure]
  unfold Access.ofMetadata
  exact congrArg (Outcome.succeed · _) (if_neg (not_not_intro ns))

/-- A read or a write of a live series that is found goes on with it. -/
theorem guarded_found {α : Type} (h : Reaches site connections ref.ns c node)
    (connected : site.client.connections = some connections)
    (finds : AccessFinds site.client.cache node.keyspace ref m) {now : UInt64}
    (live : m.isExpired now = false) (act : SeriesMetadata → Task α) :
    site.outcome (Remote.guarded now ref act) =
      (site.remember ref (some m)).outcome (act m) := by
  unfold Remote.guarded
  rw [Site.outcome_bind, h.access_found connected finds, Outcome.andThen_succeed, live]
  rfl

/-- A read or a write of an expired series does not succeed. -/
theorem live_of_guarded {α : Type} (h : Reaches site connections ref.ns c node)
    (connected : site.client.connections = some connections)
    (finds : AccessFinds site.client.cache node.keyspace ref m) {now : UInt64}
    {act : SeriesMetadata → Task α} {a : α}
    (done : (site.outcome (Remote.guarded now ref act)).answer = .ok a) :
    m.isExpired now = false := by
  cases expired : m.isExpired now with
  | false => rfl
  | true =>
    unfold Remote.guarded at done
    rw [Site.outcome_bind, h.access_found connected finds, Outcome.andThen_succeed, expired,
      if_pos rfl] at done
    dsimp only at done
    rw [Site.outcome_bind, Outcome.answer_andThen_eq_ok_iff] at done
    obtain ⟨_, _, thrown⟩ := done
    cases thrown

end Reaches

/-- The server of a namespace, on the network. -/
theorem Serves.reaches {site : Site Stage} {ns : Namespace} {ks : Keyspace}
    (h : Serves site ns ks) : ∃ connections c node,
      site.onNetwork.client.connections = some connections ∧
        Reaches site.onNetwork connections ns c node ∧ node.keyspace = ks := by
  obtain ⟨connections, c, r, own, route, found, rfl⟩ := h
  refine ⟨connections, c, r.node, own, ⟨route, ?_⟩, rfl⟩
  rw [nodes_onNetwork, found]
  rfl

/-- A server that is reached on the network is the server of its namespace. -/
theorem Reaches.serves {site : Site Stage} {connections : Connections} {ns : Namespace}
    {c : Connection} {node : Node} (h : Reaches site.onNetwork connections ns c node)
    (connected : site.client.connections = some connections) :
    Serves site ns node.keyspace := by
  have there := h.node
  rw [nodes_onNetwork] at there
  obtain ⟨r, found, rfl⟩ := Option.map_eq_some_iff.mp there
  exact ⟨connections, c, r, connected, h.route, found, rfl⟩

/-! ## A server with a single series -/

/-- Keys with nothing but the record of a series. -/
def recordKeys (m : SeriesMetadata) : Keyspace :=
  Table.empty.insert (Key.descriptor m.ref) { value := .string m.encode }

/-- Keys with the record of a series and the set of one of its buckets. -/
def seriesKeys (m : SeriesMetadata) (bucket : UInt64) (entries : List (String × Binary64)) :
    Keyspace :=
  (recordKeys m).insert (Key.data m.ref bucket) { value := .sortedSet ⟨entries⟩ }

theorem get?_recordKeys_data (m : SeriesMetadata) (bucket : UInt64) :
    (recordKeys m).get? (Key.data m.ref bucket) = none := by
  have apart : Key.descriptor m.ref ≠ Key.data m.ref bucket :=
    @KeyName.text_ne (.descriptor m.ref) (.data m.ref bucket) (by simp)
  unfold recordKeys
  rw [Table.get?_insert, if_neg apart]
  rfl

theorem holdsPoints_recordKeys (m : SeriesMetadata) : HoldsPoints (recordKeys m) m.ref [] :=
  holdsPoints_nil (get?_recordKeys_data m)

theorem ownSets_seriesKeys (m : SeriesMetadata) {bucket : UInt64}
    {entries : List (String × Binary64)} (written : ∀ entry ∈ entries, Written bucket entry) :
    OwnSets (seriesKeys m bucket entries) m.ref := by
  intro bucket'
  unfold Keyspace.sortedSet? seriesKeys
  by_cases here : bucket = bucket'
  · subst here
    rw [Table.get?_insert, if_pos rfl]
    exact ⟨_, rfl, written⟩
  · rw [Table.get?_insert, if_neg (data_ne here), get?_recordKeys_data]
    exact ⟨_, rfl, nofun⟩

theorem accessFinds_recordKeys (m : SeriesMetadata) {cache : Cache}
    (absent : cache.get? m.ref = none) : AccessFinds cache (recordKeys m) m.ref m := by
  refine ⟨rfl, Or.inr ⟨absent, m.encode, ?_, m.decode_encode, rfl⟩⟩
  unfold Keyspace.string? recordKeys
  rw [Table.get?_insert, if_pos rfl]

theorem accessFinds_seriesKeys (m : SeriesMetadata) (bucket : UInt64)
    (entries : List (String × Binary64)) {cache : Cache} (absent : cache.get? m.ref = none) :
    AccessFinds cache (seriesKeys m bucket entries) m.ref m := by
  have apart : Key.data m.ref bucket ≠ Key.descriptor m.ref :=
    @KeyName.text_ne (.data m.ref bucket) (.descriptor m.ref) (by simp)
  refine (accessFinds_recordKeys m absent).congr ?_
  unfold seriesKeys
  rw [Table.get?_insert, if_neg apart]

/-- A client of the only server, which has these keys. -/
def Site.alone (ks : Keyspace) : Site Stage where
  client := { Client.ofOptions { connections := [] } with
    connections := some [(defaultNamespace, ⟨0, true⟩)] }
  world := ⟨[{ Server.Rehearsal.withPassword "" with keyspace := ks }], [], []⟩

theorem Site.calm_alone (ks : Keyspace) : (Site.alone ks).world.Calm := by
  intro r inside
  obtain rfl := List.mem_singleton.mp inside
  exact ⟨rfl, rfl⟩

theorem Site.serves_alone (ks : Keyspace) (ns : Namespace) : Serves (Site.alone ks) ns ks := by
  refine ⟨_, ⟨0, true⟩, _, rfl, ?_, rfl, rfl⟩
  by_cases default : defaultNamespace = ns <;> simp [Connections.route, default]

end Remote

end SeriesStorage
