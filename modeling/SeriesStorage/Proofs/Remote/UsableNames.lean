import SeriesStorage.Proofs.Remote.CachedRecords

/-!
# Names that can be used

A name can be used if the id that it holds has a record of that name.  Finding or creating a series
leaves all names usable, whatever is refused, unless it sets the name of a series and not its record
(`CreateTried.usable_or_halved`).

* `Usable`: what must hold of keys so that series can be found or created.
* `Completed`: texts that were set, in which no name is without its record.
-/

namespace SeriesStorage

namespace Remote

open Server (Keyspace Stage)

/-! ## Usable keys -/

/-- A name is held with the id of a record of that name. -/
def NamesRefer (ks : Keyspace) (ns : Namespace) : Prop :=
  ∀ n e, ks.get? (Key.name ns n) = some e → ∃ id m,
    some e = textEntry (some (toString id)) ∧ HoldsRecord ks ⟨ns, id⟩ m ∧ m.name = n

/-- Names refer to records, records were counted, and tags hold sets. -/
structure Usable (ks : Keyspace) : Prop where
  names : ∀ ns, NamesRefer ks ns
  filed : ∀ ns, ∃ given, Filed ks ns given
  tags : ∀ ns, TagsHoldSets ks ns

/-- Keys that hold a catalogue of every namespace are usable. -/
theorem usable_of_holds {ks : Keyspace}
    (h : ∀ ns, ∃ cat : Catalogue, cat.WellFormed ns ∧ Holds ks ns cat) : Usable ks where
  names := by
    intro ns n e found
    obtain ⟨cat, wf, holds⟩ := h ns
    rw [holds.names] at found
    cases named : cat.names n with
    | none =>
      rw [named] at found
      cases found
    | some id =>
      obtain ⟨m, record, name⟩ := wf.named n id named
      refine ⟨id, m, ?_, (holds.holdsRecord_iff wf id m).mpr record, name⟩
      rw [← found, named]
      rfl
  filed := by
    intro ns
    obtain ⟨cat, wf, holds⟩ := h ns
    refine ⟨cat.lastId, holds.counter, wf.bounded, fun id e found => ?_⟩
    rw [holds.records] at found
    cases record : cat.records id with
    | none =>
      rw [record] at found
      cases found
    | some m =>
      obtain ⟨hid, hns, _⟩ := wf.described id m record
      refine ⟨m, ?_, by rw [SeriesMetadata.ref, hid, hns], wf.counted id m record⟩
      rw [← found, record]
      rfl
  tags := by
    intro ns t
    obtain ⟨cat, _, holds⟩ := h ns
    obtain ⟨members, found, _⟩ := holds.tags t
    exact ⟨members, found⟩

variable {ks ks' : Keyspace} {ns : Namespace}

/-- What a name that refers to a record holds. -/
theorem NamesRefer.get? (h : NamesRefer ks ns) (n : String) : ∃ id : Option SeriesId,
    ks.get? (Key.name ns n) = textEntry (id.map toString) ∧
      ∀ i, id = some i → ∃ m, HoldsRecord ks ⟨ns, i⟩ m ∧ m.name = n := by
  cases found : ks.get? (Key.name ns n) with
  | none => exact ⟨none, rfl, fun i none => by cases none⟩
  | some e =>
    obtain ⟨id, m, text, record⟩ := h n e found
    refine ⟨some id, text, fun i same => ?_⟩
    obtain rfl := Option.some.inj same
    exact ⟨m, record⟩

/-- A name that is held with the text of an id is that of its record. -/
theorem NamesRefer.named (h : NamesRefer ks ns) {n text : String} {id : SeriesId}
    (there : ks.string? (Key.name ns n) = .ok (some text)) (word : word? text = some id.number) :
    ks.get? (Key.name ns n) = textEntry (some (toString id)) ∧
      ∃ m, HoldsRecord ks ⟨ns, id⟩ m ∧ m.name = n := by
  obtain ⟨held, entry, record⟩ := h.get? n
  rw [string?_eq entry] at there
  cases held with
  | none => cases there
  | some id' =>
    obtain rfl : toString id' = text := Option.some.inj (Except.ok.inj there)
    have same : id' = id := congrArg SeriesId.mk
      (Option.some.inj ((word?_toString id'.number).symm.trans word))
    subst same
    exact ⟨entry, record id' rfl⟩

/-- A name that is found is that of the id. -/
theorem NamesRefer.lookedUp (h : NamesRefer ks ns) {n : String} {id : SeriesId}
    (looked : LookedUp ks (Key.name ns n) (.ok (some id))) :
    ks.get? (Key.name ns n) = textEntry (some (toString id)) := by
  cases looked with
  | found there word => exact (h.named there word).1

/-- Names are as they were, and records stay. -/
theorem NamesRefer.congr (h : NamesRefer ks ns)
    (names : ∀ n, ks'.get? (Key.name ns n) = ks.get? (Key.name ns n))
    (records : ∀ id e, ks.get? (Key.descriptor ⟨ns, id⟩) = some e →
      ks'.get? (Key.descriptor ⟨ns, id⟩) = some e) : NamesRefer ks' ns := by
  intro n e found
  rw [names] at found
  obtain ⟨id, m, text, record, name⟩ := h n e found
  obtain ⟨e', there⟩ := record.get?
  exact ⟨id, m, text, record.congr ((records _ e' there).trans there.symm), name⟩

/-- Names and tags are as they were, and records stay. -/
theorem Usable.congr (h : Usable ks) (names : ∀ ns n,
      ks'.get? (Key.name ns n) = ks.get? (Key.name ns n))
    (filed : ∀ ns, ∃ given, Filed ks' ns given)
    (tags : ∀ ns t, ks'.get? (Key.tag ns t) = ks.get? (Key.tag ns t))
    (records : ∀ ref e, ks.get? (Key.descriptor ref) = some e →
      ks'.get? (Key.descriptor ref) = some e) : Usable ks' where
  names := fun ns => (h.names ns).congr (names ns) fun id => records ⟨ns, id⟩
  filed := filed
  tags := fun ns t => by
    obtain ⟨members, found⟩ := h.tags ns t
    exact ⟨members, (set?_congr (tags ns t)).trans found⟩

/-- Keys may differ in creation locks. -/
def ApartFromLocks (ks ks' : Keyspace) : Prop :=
  ∀ k : KeyName, (∀ ns n, k ≠ .lock ns n) → ks'.get? k.text = ks.get? k.text

/-- What becomes of creation locks does not matter. -/
theorem Usable.apartFromLocks (h : Usable ks) (same : ApartFromLocks ks ks') : Usable ks' := by
  have descriptors : ∀ ref, ks'.get? (Key.descriptor ref) = ks.get? (Key.descriptor ref) :=
    fun ref => same (.descriptor ref) (by simp)
  refine h.congr (fun ns n => same (.name ns n) (by simp)) (fun ns => ?_)
    (fun ns t => same (.tag ns t) (by simp)) fun ref e found => (descriptors ref).trans found
  obtain ⟨given, filed⟩ := h.filed ns
  exact ⟨given, filed.congr (same (.counter ns) (by simp)) fun id => descriptors ⟨ns, id⟩⟩

theorem Usable.aside (h : Usable ks) {n : String} (aside : Aside ns n ks ks') : Usable ks' :=
  h.apartFromLocks fun k hk => aside k (hk ns n)

/-- More ids may be given. -/
theorem Usable.besideCounter (h : Usable ks) {n : String} (beside : BesideCounter ns n ks ks')
    {given : Nat} (filed : Filed ks' ns given) : Usable ks' := by
  have descriptors : ∀ ref, ks'.get? (Key.descriptor ref) = ks.get? (Key.descriptor ref) :=
    fun ref => beside (.descriptor ref) (by simp) (by simp)
  refine h.congr (fun ns n => beside (.name ns n) (by simp) (by simp)) (fun ns' => ?_)
    (fun ns t => beside (.tag ns t) (by simp) (by simp)) fun ref e found =>
      (descriptors ref).trans found
  by_cases same : ns' = ns
  · subst same
    exact ⟨given, filed⟩
  · obtain ⟨given', there⟩ := h.filed ns'
    exact ⟨given', there.besideCounter beside same⟩

/-- Names still refer to records after a name and its record were entered, or no name was. -/
theorem Entered.namesRefer {m : SeriesMetadata} {named described : Bool}
    {set : List (String × String)} (h : Entered m ks named described ks' set)
    (refer : NamesRefer ks ns) (absent : ks.get? (Key.name m.ns m.name) = none)
    (unrecorded : ks.get? (Key.descriptor m.ref) = none)
    (full : named = true → described = true) : NamesRefer ks' ns := by
  intro n e found
  by_cases same : KeyName.name ns n = .name m.ns m.name
  · obtain ⟨rfl, rfl⟩ := KeyName.name.inj same
    rw [h.name] at found
    split at found
    · next isNamed =>
      have record := h.descriptor
      rw [if_pos (full isNamed)] at record
      exact ⟨m.id, m, found.symm, ⟨m.encode, string?_eq record, m.decode_encode, rfl⟩, rfl⟩
    · rw [absent] at found
      cases found
  · have before := h.others (.name ns n) same (by simp) (by simp)
    obtain ⟨id, m', text, record, name⟩ := refer n e (before.symm.trans found)
    obtain ⟨e', there⟩ := record.get?
    have apart : (⟨ns, id⟩ : SeriesRef) ≠ m.ref := by
      intro here
      rw [here, unrecorded] at there
      cases there
    exact ⟨id, m', text, record.congr (h.others (.descriptor ⟨ns, id⟩) (by simp)
      (by simpa using apart) (by simp)), name⟩

/-- A name and its record are entered, or no name. -/
theorem Entered.usable {m : SeriesMetadata} {named described : Bool} {set : List (String × String)}
    (h : Entered m ks named described ks' set) (usable : Usable ks)
    (absent : ks.get? (Key.name m.ns m.name) = none)
    (unrecorded : ks.get? (Key.descriptor m.ref) = none)
    (full : named = true → described = true) (filed : ∀ ns, ∃ given, Filed ks' ns given) :
    Usable ks' where
  names := fun ns => h.namesRefer (usable.names ns) absent unrecorded full
  filed := filed
  tags := by
    intro ns
    by_cases same : ns = m.ns
    · subst same
      exact h.tags (usable.tags m.ns)
    · intro t
      obtain ⟨members, found⟩ := usable.tags ns t
      exact ⟨members, (set?_congr (h.others (.tag ns t) (by simp) (by simp)
        fun t' here => same (KeyName.tag.inj here).1)).trans found⟩

/-! ## Names without records -/

/-- Of every name that was set the record was set as well. -/
def Completed (set : List (Nat × String × String)) : Prop :=
  ∀ server ns n (id : SeriesId), (server, Key.name ns n, toString id) ∈ set →
    ∃ text, (server, Key.descriptor ⟨ns, id⟩, text) ∈ set

theorem completed_nil : Completed [] := fun _ _ _ _ inside => by cases inside

theorem Completed.append {set more : List (Nat × String × String)} (h : Completed set)
    (h' : Completed more) : Completed (set ++ more) := by
  intro server ns n id inside
  rcases List.mem_append.mp inside with old | new
  · obtain ⟨text, there⟩ := h server ns n id old
    exact ⟨text, List.mem_append_left _ there⟩
  · obtain ⟨text, there⟩ := h' server ns n id new
    exact ⟨text, List.mem_append_right _ there⟩

theorem name_ne_descriptor (n : String) (ref : SeriesRef) : Key.name ns n ≠ Key.descriptor ref :=
  @KeyName.text_ne (.name ns n) (.descriptor ref) (by simp)

/-- What was set of a registration is complete, unless it is the name only. -/
theorem Entered.completed {m : SeriesMetadata} {named described : Bool} {last : Keyspace}
    {set : List (String × String)} (h : Entered m ks named described last set)
    (full : named = true → described = true) (server : Nat) :
    Completed (set.map (server, ·)) := by
  intro server' ns n id inside
  obtain ⟨⟨key, text⟩, inside, same⟩ := List.mem_map.mp inside
  obtain ⟨rfl, rfl, rfl⟩ : server = server' ∧ key = Key.name ns n ∧ text = toString id := by
    simpa using same
  rw [h.set] at inside ⊢
  rcases List.mem_append.mp inside with name | descriptor
  · split at name
    · next isNamed =>
      simp only [List.mem_singleton, Prod.mk.injEq] at name
      obtain ⟨sameNs, sameName⟩ := KeyName.name.inj <|
        (@KeyName.text_inj (.name ns n) (.name m.ns m.name)).mp name.1
      obtain rfl := toString_id_inj.mp name.2
      refine ⟨m.encode, List.mem_map_of_mem (List.mem_append_right _ ?_)⟩
      rw [if_pos (full isNamed), sameNs]
      exact List.mem_singleton.mpr rfl
    · cases name
  · split at descriptor
    · simp only [List.mem_singleton, Prod.mk.injEq] at descriptor
      exact absurd descriptor.1 (name_ne_descriptor n m.ref)
    · cases descriptor

/-! ## Finding or creating a series -/

section Creating

variable {now : UInt64} {input : SeriesInput} {given : Nat} {client : Client}
  {answer : Except Error (SeriesId × Bool)} {client' : Client} {set : List (String × String)}

/-- A name was set for a new id, and no record. -/
structure Halved (input : SeriesInput) (given : Nat) (ks ks' : Keyspace)
    (set : List (String × String)) : Prop where
  set : set = [(Key.name input.ns input.name, toString (nextId given))]
  unrecorded : ks.get? (Key.descriptor ⟨input.ns, nextId given⟩) = none
  dangling : ¬ NamesRefer ks' input.ns

/-- Keys stay usable, unless the call fails with a name that was set and its record that was not. -/
theorem CreateTried.usable_or_halved
    (h : CreateTried now input given client ks answer client' ks' set)
    (filed : Filed ks input.ns given) (usable : Usable ks) (server : Nat) :
    (Usable ks' ∧ Completed (set.map (server, ·))) ∨
      (answer.isOk = false ∧ Halved input given ks ks' set) := by
  cases h with
  | found _ _ aside => exact Or.inl ⟨usable.aside aside, completed_nil⟩
  | failed _ filed' beside => exact Or.inl ⟨usable.besideCounter beside filed', completed_nil⟩
  | @entered _ _ named described counted after _ _ absent room filed' beside entered aside ended =>
    have absent' : counted.get? (Key.name input.ns input.name) = none :=
      (beside (.name input.ns input.name) (by simp) (by simp)).trans absent
    have unrecorded : counted.get? (Key.descriptor ⟨input.ns, nextId given⟩) = none :=
      (beside (.descriptor ⟨input.ns, nextId given⟩) (by simp) (by simp)).trans
        (filed.unrecorded room)
    by_cases full : named = true → described = true
    · have before := usable.besideCounter beside filed'
      have still : ∀ ns, ∃ given, Filed after ns given := fun ns => by
        by_cases same : ns = input.ns
        · subst same
          exact ⟨given + 1, entered.filed filed' fun _ => nextId_counted room⟩
        · obtain ⟨given', there⟩ := before.filed ns
          exact ⟨given', entered.filed there fun here => absurd here.symm same⟩
      exact Or.inl ⟨(entered.usable before absent' unrecorded full still).aside aside,
        entered.completed full server⟩
    · obtain ⟨rfl, rfl⟩ : named = true ∧ described = false := by simpa using full
      obtain ⟨_, _, isDescribed, _⟩ | ⟨⟨e, rfl⟩, _⟩ := ended
      · cases isDescribed
      · refine Or.inr ⟨rfl, entered.set, filed.unrecorded room, fun refer => ?_⟩
        -- the name holds an id that no record has
        have name := (aside (.name input.ns input.name) (by simp)).trans entered.name
        obtain ⟨id, m', text, record, _⟩ := refer input.name _ name
        have same : nextId given = id := toString_id_inj.mp (textEntry_inj.mp text)
        obtain ⟨e', there⟩ := record.get?
        have missing := (aside (.descriptor ⟨input.ns, nextId given⟩) (by simp)).trans
          (entered.descriptor.trans unrecorded)
        rw [same] at missing
        cases missing.symm.trans there

end Creating

end Remote

end SeriesStorage
