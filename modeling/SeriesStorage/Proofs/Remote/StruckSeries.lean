import SeriesStorage.Proofs.Remote.CachedRecords

/-!
# Series that are struck off a server

The commands of a deletion delete the name and the record of each series, and take its id out of the
sets of its tags.  What they leave of the keys is told for all series at once (`Strikes`), so that
it does not matter which series were removed together, in which order, or how often.

* `Strikes.trans`: series that are struck off after others.
* `removals_strike`: the commands of a deletion all succeed, and strike off just their series.
* `Strikes.only`: where keys agree, every other series stays with its name.
-/

namespace SeriesStorage

/-! ## Keys of a series -/

/-- Whether a series is entered under a key. -/
def KeyName.Enters (m : SeriesMetadata) : KeyName → Prop
  | .name ns n => m.ns = ns ∧ m.name = n
  | .descriptor ref => m.ref = ref
  | .tag ns t => m.ns = ns ∧ t ∈ m.tags
  | .data _ _ => False
  | .lock _ _ => False
  | .counter _ => False

namespace Remote

open Server (Keyspace Runs)

/-- A key that a series is entered under. -/
def EnteredUnder (m : SeriesMetadata) (key : String) : Prop :=
  ∃ k : KeyName, k.Enters m ∧ k.text = key

theorem enteredUnder_text {m : SeriesMetadata} {k : KeyName} :
    EnteredUnder m k.text ↔ k.Enters m := by
  constructor
  · rintro ⟨k', entered, same⟩
    rwa [← KeyName.text_inj.mp same]
  · exact fun entered => ⟨k, entered, rfl⟩

/-- A deletion changes only keys that the series is entered under. -/
theorem enteredUnder_of_changes {m : SeriesMetadata} {staged : StagedCommand}
    (h : staged ∈ removal m) {key : String} (changes : staged.command.Changes key) :
    EnteredUnder m key := by
  rcases List.mem_cons.mp h with rfl | unlisting
  · rcases List.mem_cons.mp changes with rfl | same
    · exact ⟨.name m.ns m.name, ⟨rfl, rfl⟩, rfl⟩
    · exact ⟨.descriptor m.ref, rfl, (List.mem_singleton.mp same).symm⟩
  · obtain ⟨t, tagged, rfl⟩ := List.mem_map.mp unlisting
    exact ⟨.tag m.ns t, ⟨rfl, tagged⟩, changes⟩

/-! ## Keys without some series -/

/-- What is left of keys without some series: their names and records are gone, and their ids from
the sets of their tags.  Every key that none of them is entered under is as it was. -/
structure Strikes (gone : SeriesMetadata → Prop) (ks ks' : Keyspace) : Prop where
  names : ∀ m, gone m → ks'.get? (Key.name m.ns m.name) = none
  records : ∀ m, gone m → ks'.get? (Key.descriptor m.ref) = none
  tags : ∀ ns t members, ks.set? (Key.tag ns t) = .ok members → ∃ members',
    ks'.set? (Key.tag ns t) = .ok members' ∧ ∀ s, s ∈ members' ↔
      s ∈ members ∧ ∀ m, gone m → m.ns = ns → t ∈ m.tags → s ≠ toString m.id
  otherKeys : ∀ key, (∀ m, gone m → ¬ EnteredUnder m key) → ks'.get? key = ks.get? key

/-- The tags of a namespace hold sets. -/
def TagsAreSets (ks : Keyspace) (ns : Namespace) : Prop :=
  ∀ t, ∃ members, ks.set? (Key.tag ns t) = .ok members

namespace Strikes

variable {gone gone' : SeriesMetadata → Prop} {ks ks' last : Keyspace}

/-- No series is struck off. -/
theorem none (ks : Keyspace) : Strikes (fun _ => False) ks ks where
  names := nofun
  records := nofun
  tags := fun ns t members found => ⟨members, found, by simp⟩
  otherKeys := fun _ _ => rfl

theorem congr (h : Strikes gone ks ks') (same : ∀ m, gone m ↔ gone' m) : Strikes gone' ks ks' := by
  obtain rfl : gone = gone' := funext fun m => propext (same m)
  exact h

theorem tagsAreSets (h : Strikes gone ks ks') {ns : Namespace} (sets : TagsAreSets ks ns) :
    TagsAreSets ks' ns := by
  intro t
  obtain ⟨members, found⟩ := sets t
  obtain ⟨members', found', _⟩ := h.tags ns t members found
  exact ⟨members', found'⟩

/-- Names that are gone do not come back. -/
theorem names_none (h : Strikes gone ks ks') {ns : Namespace} {n : String}
    (missing : ks.get? (Key.name ns n) = .none) : ks'.get? (Key.name ns n) = .none := by
  by_cases struck : ∃ m, gone m ∧ EnteredUnder m (Key.name ns n)
  · obtain ⟨m, hm, entered⟩ := struck
    obtain ⟨rfl, rfl⟩ := (@enteredUnder_text m (.name ns n)).mp entered
    exact h.names m hm
  · rw [h.otherKeys _ fun m hm entered => struck ⟨m, hm, entered⟩]
    exact missing

/-- Records that are gone do not come back. -/
theorem records_none (h : Strikes gone ks ks') {ref : SeriesRef}
    (missing : ks.get? (Key.descriptor ref) = .none) : ks'.get? (Key.descriptor ref) = .none := by
  by_cases struck : ∃ m, gone m ∧ EnteredUnder m (Key.descriptor ref)
  · obtain ⟨m, hm, entered⟩ := struck
    obtain rfl : m.ref = ref := (@enteredUnder_text m (.descriptor ref)).mp entered
    exact h.records m hm
  · rw [h.otherKeys _ fun m hm entered => struck ⟨m, hm, entered⟩]
    exact missing

/-- Series are struck off after others. -/
theorem trans (h : Strikes gone ks ks') (h' : Strikes gone' ks' last) :
    Strikes (fun m => gone m ∨ gone' m) ks last where
  names := by
    rintro m (first | second)
    · exact h'.names_none (h.names m first)
    · exact h'.names m second
  records := by
    rintro m (first | second)
    · exact h'.records_none (h.records m first)
    · exact h'.records m second
  tags := by
    intro ns t members found
    obtain ⟨members', found', left⟩ := h.tags ns t members found
    obtain ⟨members'', found'', left'⟩ := h'.tags ns t members' found'
    refine ⟨members'', found'', fun s => ?_⟩
    rw [left', left, and_assoc]
    simp only [or_imp, forall_and]
  otherKeys := fun key apart =>
    (h'.otherKeys key fun m hm => apart m (Or.inr hm)).trans
      (h.otherKeys key fun m hm => apart m (Or.inl hm))

end Strikes

/-! ## The commands of a deletion -/

variable (required : String) {ks : Keyspace}

/-- The commands for one series delete two keys and take its id from the sets of its tags. -/
theorem removal_runs {m : SeriesMetadata} (sets : TagsAreSets ks m.ns) :
    ∃ replies last, Runs required ((removal m).map (·.command)) ks replies last ∧
      last.get? (Key.name m.ns m.name) = none ∧ last.get? (Key.descriptor m.ref) = none ∧
      TagSets last m.ns fun t s => (∃ members, ks.set? (Key.tag m.ns t) = .ok members ∧
        s ∈ members) ∧ ¬ (t ∈ m.tags ∧ s = toString m.id) := by
  let keys := [Key.name m.ns m.name, Key.descriptor m.ref]
  let mid := keys.foldl Table.erase ks
  have apart : ∀ key ∈ keys, ∀ t, key ≠ Key.tag m.ns t := by
    intro key named t
    rcases List.mem_cons.mp named with rfl | last
    · exact @KeyName.text_ne (.name m.ns m.name) (.tag m.ns t) (by simp)
    · obtain rfl := List.mem_singleton.mp last
      exact @KeyName.text_ne (.descriptor m.ref) (.tag m.ns t) (by simp)
  have tags : TagSets mid m.ns fun t s =>
      ∃ members, ks.set? (Key.tag m.ns t) = .ok members ∧ s ∈ members := by
    intro t
    obtain ⟨members, found⟩ := sets t
    refine ⟨members, (set?_congr ?_).trans found, fun s => ?_⟩
    · rw [Server.get?_erase_all, if_neg fun named => apart _ named t rfl]
    · simp [found]
  obtain ⟨replies, last, runs, untagged⟩ := tags.removeMembers required m.tags (toString m.id)
  have commands : (removal m).map (·.command) =
      .delete keys :: m.tags.map fun t => .removeMember (Key.tag m.ns t) (toString m.id) := by
    simp [removal, StagedCommand.unchecked, Function.comp_def, keys]
  have erased : ∀ key ∈ keys, last.get? key = none := by
    intro key named
    rw [runs.get?_eq, Server.get?_erase_all, if_pos named]
    intro command inside changes
    obtain ⟨t, _, rfl⟩ := List.mem_map.mp inside
    exact apart key named t changes.symm
  refine ⟨.integer (keys.eraseDups.countP ks.contains) :: replies, last, ?_, ?_, ?_, untagged⟩
  · rw [commands]
    exact .step rfl runs
  · exact erased _ (by simp [keys])
  · exact erased _ (by simp [keys])

/-- The commands for one series strike it off. -/
theorem removal_strikes {m : SeriesMetadata} (sets : TagsAreSets ks m.ns) :
    ∃ replies last, Runs required ((removal m).map (·.command)) ks replies last ∧
      Strikes (fun m' => m' = m) ks last := by
  obtain ⟨replies, last, runs, unnamed, unrecorded, untagged⟩ := removal_runs required sets
  have kept : ∀ key, ¬ EnteredUnder m key → last.get? key = ks.get? key := by
    intro key other
    refine runs.get?_eq fun command inside changes => ?_
    obtain ⟨staged, staging, rfl⟩ := List.mem_map.mp inside
    exact other (enteredUnder_of_changes staging changes)
  refine ⟨_, last, runs, ?_, ?_, ?_, fun key other => kept key (other m rfl)⟩
  · rintro _ rfl
    exact unnamed
  · rintro _ rfl
    exact unrecorded
  · intro ns t members found
    by_cases same : m.ns = ns
    · subst same
      obtain ⟨members', found', left⟩ := untagged t
      refine ⟨members', found', fun s => (left s).trans ?_⟩
      simp [found]
    · refine ⟨members, (set?_congr (kept _ fun entered => ?_)).trans found, ?_⟩
      · exact same ((@enteredUnder_text m (.tag ns t)).mp entered).1
      · simp [same]

/-- **The commands for several series** all succeed, and strike off just these. -/
theorem removals_strike (metas : List SeriesMetadata) (sets : ∀ m ∈ metas, TagsAreSets ks m.ns) :
    ∃ replies last, Runs required ((metas.flatMap removal).map (·.command)) ks replies last ∧
      Strikes (fun m => m ∈ metas) ks last := by
  induction metas generalizing ks with
  | nil => exact ⟨[], ks, .done, (Strikes.none ks).congr (by simp)⟩
  | cons m rest ih =>
    obtain ⟨replies, mid, runs, first⟩ := removal_strikes required (sets m List.mem_cons_self)
    obtain ⟨replies', last, runs', others⟩ := ih fun m' inside =>
      first.tagsAreSets (sets m' (List.mem_cons_of_mem _ inside))
    refine ⟨replies ++ replies', last, ?_, (first.trans others).congr fun _ => by simp⟩
    rw [List.flatMap_cons, List.map_append]
    exact runs.append runs'

/-! ## Nothing else -/

/-- Series are struck off, and other series stay with their names, as do counters and points. -/
structure StrikesOnly (gone : SeriesMetadata → Prop) (ks ks' : Keyspace) : Prop
    extends Strikes gone ks ks' where
  otherSeries : ∀ ref m, HoldsRecord ks ref m → ¬ gone m → HoldsRecord ks' ref m ∧
    ks'.get? (Key.name m.ns m.name) = ks.get? (Key.name m.ns m.name)
  counters : ∀ ns, ks'.get? (Key.counter ns) = ks.get? (Key.counter ns)
  points : ∀ ref bucket, ks'.get? (Key.data ref bucket) = ks.get? (Key.data ref bucket)

theorem Coherent.tagsAreSets {ns : Namespace} (h : Coherent ks ns) : TagsAreSets ks ns := by
  intro t
  obtain ⟨members, found, _⟩ := h.tags t
  exact ⟨members, found⟩

/-- Two series of one name are the same. -/
theorem Coherent.eq_of_name {m m' : SeriesMetadata} (h : Coherent ks m.ns)
    (record : HoldsRecord ks m.ref m) (record' : HoldsRecord ks m'.ref m') (ns : m'.ns = m.ns)
    (name : m'.name = m.name) : m' = m := by
  have record'' : HoldsRecord ks ⟨m.ns, m'.id⟩ m' := ns ▸ record'
  have named := (h.names m.name _).mpr ⟨m.id, m, rfl, record, rfl⟩
  have named' := (h.names m.name _).mpr ⟨m'.id, m', rfl, record'', name⟩
  have text := Option.some.inj (Except.ok.inj (named.symm.trans named'))
  have id := toString_id_inj.mp text
  rw [← id] at record''
  exact record''.unique record

/-- **Where keys agree,** to strike off series that are there touches no other series. -/
theorem Strikes.only {gone : SeriesMetadata → Prop} {ks' : Keyspace} (h : Strikes gone ks ks')
    (coherent : ∀ ns, Coherent ks ns) (there : ∀ m, gone m → HoldsRecord ks m.ref m) :
    StrikesOnly gone ks ks' where
  toStrikes := h
  otherSeries := by
    intro ref m record kept
    obtain rfl : m.ref = ref := record.choose_spec.2.2
    constructor
    · refine record.congr (h.otherKeys _ fun m' struck entered => kept ?_)
      have same : m'.ref = m.ref := (@enteredUnder_text m' (.descriptor m.ref)).mp entered
      have record' := there m' struck
      rw [same] at record'
      rwa [record.unique record']
    · refine h.otherKeys _ fun m' struck entered => kept ?_
      obtain ⟨ns, name⟩ := (@enteredUnder_text m' (.name m.ns m.name)).mp entered
      rwa [← (coherent m.ns).eq_of_name record (there m' struck) ns name]
  counters := fun ns => h.otherKeys _ fun _ _ entered =>
    (@enteredUnder_text _ (.counter ns)).mp entered
  points := fun ref bucket => h.otherKeys _ fun _ _ entered =>
    (@enteredUnder_text _ (.data ref bucket)).mp entered

end Remote

end SeriesStorage
