import SeriesStorage.Proofs.Remote.KeyLayout
import SeriesStorage.Proofs.Series.RecordText
import SeriesStorage.Proofs.Server.Commands
import SeriesStorage.Remote.Calls

/-!
# The catalogue of a namespace

What the keys of a namespace say about its series: a catalogue with the ids by name, the descriptors
by id, and the last id given (`Holds`).  In a well-formed catalogue names and descriptors describe
each other, and every id was counted.

* `Holds.registration`: the commands of a creation enter a descriptor.
* `Holds.removals`: the commands of a deletion take descriptors out.
* `Holds.congr`: nothing else matters than the keys of the namespace.
-/

namespace SeriesStorage

/-! ## Catalogues -/

/-- The series of a namespace: ids by name, descriptors by id, and the last id given. -/
@[ext]
structure Catalogue where
  names : String → Option SeriesId
  records : SeriesId → Option SeriesMetadata
  lastId : Nat

namespace Catalogue

def empty : Catalogue := ⟨fun _ => none, fun _ => none, 0⟩

/-- Names and descriptors describe each other, and every id was counted. -/
structure WellFormed (cat : Catalogue) (ns : Namespace) : Prop where
  described : ∀ id m, cat.records id = some m →
    m.id = id ∧ m.ns = ns ∧ cat.names m.name = some id
  named : ∀ n id, cat.names n = some id → ∃ m, cat.records id = some m ∧ m.name = n
  counted : ∀ id m, cat.records id = some m →
    1 ≤ id.number.toNat ∧ id.number.toNat ≤ cat.lastId
  bounded : cat.lastId ≤ maxInt64

/-- A member of the set of a tag: the text of an id whose descriptor lists the tag. -/
def Tagged (cat : Catalogue) (tag member : String) : Prop :=
  ∃ id m, cat.records id = some m ∧ tag ∈ m.tags ∧ member = toString id

/-- The id that the next series gets. -/
def nextId (cat : Catalogue) : SeriesId := ⟨UInt64.ofNat (cat.lastId + 1)⟩

/-- Gives one more id. -/
def count (cat : Catalogue) : Catalogue := { cat with lastId := cat.lastId + 1 }

/-- Enters a descriptor. -/
def add (cat : Catalogue) (m : SeriesMetadata) : Catalogue where
  names := fun n => if n = m.name then some m.id else cat.names n
  records := fun id => if id = m.id then some m else cat.records id
  lastId := cat.lastId

/-- Takes a descriptor out. -/
def remove (cat : Catalogue) (m : SeriesMetadata) : Catalogue where
  names := fun n => if n = m.name then none else cat.names n
  records := fun id => if id = m.id then none else cat.records id
  lastId := cat.lastId

/-- Takes descriptors out. -/
def removeAll (cat : Catalogue) (metas : List SeriesMetadata) : Catalogue := metas.foldl remove cat

theorem wellFormed_empty (ns : Namespace) : empty.WellFormed ns where
  described := by intro id m h; cases h
  named := by intro n id h; cases h
  counted := by intro id m h; cases h
  bounded := Nat.zero_le _

variable {cat : Catalogue} {ns : Namespace}

theorem WellFormed.count (h : cat.WellFormed ns) (room : cat.lastId < maxInt64) :
    cat.count.WellFormed ns where
  described := h.described
  named := h.named
  counted := fun id m hm => ⟨(h.counted id m hm).1, Nat.le_succ_of_le (h.counted id m hm).2⟩
  bounded := room

theorem nextId_toNat (room : cat.lastId < maxInt64) :
    cat.nextId.number.toNat = cat.lastId + 1 := by
  have : maxInt64 = 0x7fffffffffffffff := rfl
  exact UInt64.toNat_ofNat_of_lt' (by rw [UInt64.size]; omega)

/-- The next id is that of no series. -/
theorem WellFormed.records_nextId (h : cat.WellFormed ns) (room : cat.lastId < maxInt64) :
    cat.records cat.nextId = none := by
  cases found : cat.records cat.nextId with
  | none => rfl
  | some m =>
    have := (h.counted _ m found).2
    rw [nextId_toNat room] at this
    omega

/-- A descriptor is entered under a new name, with the last id given. -/
theorem WellFormed.add (h : cat.WellFormed ns) {m : SeriesMetadata} (hns : m.ns = ns)
    (newName : cat.names m.name = none) (newId : cat.records m.id = none)
    (given : 1 ≤ m.id.number.toNat ∧ m.id.number.toNat ≤ cat.lastId) :
    (cat.add m).WellFormed ns where
  described := by
    intro id m' hm
    simp only [Catalogue.add] at hm ⊢
    split at hm
    · next heq =>
      obtain rfl := Option.some.inj hm
      exact ⟨heq.symm, hns, by rw [if_pos rfl, heq]⟩
    · obtain ⟨hid, hns', hname⟩ := h.described id m' hm
      refine ⟨hid, hns', ?_⟩
      rw [if_neg]
      · exact hname
      · intro heq
        rw [heq, newName] at hname
        cases hname
  named := by
    intro n id hn
    simp only [Catalogue.add] at hn ⊢
    split at hn
    · next heq =>
      obtain rfl := Option.some.inj hn
      exact ⟨m, if_pos rfl, heq.symm⟩
    · obtain ⟨m', hm', hname⟩ := h.named n id hn
      refine ⟨m', ?_, hname⟩
      rw [if_neg]
      · exact hm'
      · rintro rfl
        rw [newId] at hm'
        cases hm'
  counted := by
    intro id m' hm
    simp only [Catalogue.add] at hm ⊢
    split at hm
    · next heq =>
      rw [heq]
      exact given
    · exact h.counted id m' hm
  bounded := h.bounded

/-- Whatever shares the id or the name of a descriptor is the descriptor itself. -/
def Admits (cat : Catalogue) (m : SeriesMetadata) : Prop :=
  ∀ id m', cat.records id = some m' → (id = m.id ∨ m'.name = m.name) → m' = m

theorem WellFormed.admits (h : cat.WellFormed ns) {m : SeriesMetadata}
    (hm : cat.records m.id = some m) : cat.Admits m := by
  rintro id m' hm' (rfl | hname)
  · exact Option.some.inj (hm'.symm.trans hm)
  · have first := (h.described _ m hm).2.2
    have second := (h.described id m' hm').2.2
    rw [hname, first] at second
    obtain rfl := Option.some.inj second
    exact Option.some.inj (hm'.symm.trans hm)

theorem Admits.fewer {cat' : Catalogue} {m : SeriesMetadata} (h : cat.Admits m)
    (fewer : ∀ id m', cat'.records id = some m' → cat.records id = some m') : cat'.Admits m :=
  fun id m' record => h id m' (fewer id m' record)

theorem Admits.remove {m other : SeriesMetadata} (h : cat.Admits m) :
    (cat.remove other).Admits m := by
  refine h.fewer fun id m' record => ?_
  simp only [Catalogue.remove] at record
  split at record
  · cases record
  · exact record

theorem WellFormed.remove (h : cat.WellFormed ns) {m : SeriesMetadata} (admitted : cat.Admits m) :
    (cat.remove m).WellFormed ns where
  described := by
    intro id m' hm
    simp only [Catalogue.remove] at hm ⊢
    split at hm
    · cases hm
    · next other =>
      obtain ⟨hid, hns, hname⟩ := h.described id m' hm
      refine ⟨hid, hns, ?_⟩
      rw [if_neg]
      · exact hname
      · intro same
        obtain rfl := admitted id m' hm (Or.inr same)
        exact other hid.symm
  named := by
    intro n id hn
    simp only [Catalogue.remove] at hn ⊢
    split at hn
    · cases hn
    · next other =>
      obtain ⟨m', hm', hname⟩ := h.named n id hn
      refine ⟨m', ?_, hname⟩
      rw [if_neg]
      · exact hm'
      · rintro rfl
        obtain rfl := admitted _ m' hm' (Or.inl rfl)
        exact other hname.symm
  counted := by
    intro id m' hm
    simp only [Catalogue.remove] at hm ⊢
    split at hm
    · cases hm
    · exact h.counted id m' hm
  bounded := h.bounded

theorem WellFormed.removeAll (h : cat.WellFormed ns) {metas : List SeriesMetadata}
    (admitted : ∀ m ∈ metas, cat.Admits m) : (cat.removeAll metas).WellFormed ns := by
  induction metas generalizing cat with
  | nil => exact h
  | cons m rest ih =>
    exact ih (h.remove (admitted m List.mem_cons_self)) fun m' hm' =>
      (admitted m' (List.mem_cons_of_mem _ hm')).remove

theorem records_removeAll (cat : Catalogue) (metas : List SeriesMetadata) (id : SeriesId) :
    (cat.removeAll metas).records id = if ∃ m ∈ metas, m.id = id then none else cat.records id := by
  induction metas generalizing cat with
  | nil => simp [removeAll]
  | cons m rest ih =>
    show ((cat.remove m).removeAll rest).records id = _
    rw [ih]
    by_cases hrest : ∃ m' ∈ rest, m'.id = id <;> by_cases hfirst : m.id = id <;>
      simp_all [remove, eq_comm]

theorem lastId_removeAll (cat : Catalogue) (metas : List SeriesMetadata) :
    (cat.removeAll metas).lastId = cat.lastId := by
  induction metas generalizing cat with
  | nil => rfl
  | cons m rest ih => exact ih (cat.remove m)

theorem names_removeAll (cat : Catalogue) (metas : List SeriesMetadata) (n : String) :
    (cat.removeAll metas).names n = if ∃ m ∈ metas, m.name = n then none else cat.names n := by
  induction metas generalizing cat with
  | nil => simp [removeAll]
  | cons m rest ih =>
    show ((cat.remove m).removeAll rest).names n = _
    rw [ih]
    by_cases hrest : ∃ m' ∈ rest, m'.name = n <;> by_cases hfirst : m.name = n <;>
      simp_all [remove, eq_comm]

end Catalogue

/-! ## The keys of a namespace -/

/-- Whether a key says something about the series of a namespace. -/
def KeyName.Describes (ns : Namespace) : KeyName → Prop
  | .name ns' _ => ns' = ns
  | .counter ns' => ns' = ns
  | .descriptor ref => ref.ns = ns
  | .tag ns' _ => ns' = ns
  | .data _ _ => False
  | .lock _ _ => False

theorem KeyName.Describes.unique {k : KeyName} {ns ns' : Namespace} (h : k.Describes ns)
    (h' : k.Describes ns') : ns = ns' := by
  cases k with
  | data _ _ => exact h.elim
  | lock _ _ => exact h.elim
  | _ => exact h.symm.trans h'

namespace Remote

open Server (Command Entry Keyspace Reply Runs Value)

/-- A key that holds a text, if there is one. -/
def textEntry (text : Option String) : Option Entry := text.map fun s => { value := .string s }

theorem textEntry_inj {s t : String} : textEntry (some s) = textEntry (some t) ↔ s = t := by
  simp [textEntry]

/-- What the counter of a namespace holds when so many ids were given. -/
def counterEntry (last : Nat) : Option Entry :=
  textEntry (if last = 0 then none else some (toString (last : Int)))

/-- The sets of the tags of a namespace have these members. -/
def TagSets (ks : Keyspace) (ns : Namespace) (tagged : String → String → Prop) : Prop :=
  ∀ t, ∃ members, ks.set? (Key.tag ns t) = .ok members ∧ ∀ s, s ∈ members ↔ tagged t s

/-- The keys of a namespace hold a catalogue. -/
structure Holds (ks : Keyspace) (ns : Namespace) (cat : Catalogue) : Prop where
  names : ∀ n, ks.get? (Key.name ns n) = textEntry ((cat.names n).map toString)
  records : ∀ id, ks.get? (Key.descriptor ⟨ns, id⟩) = textEntry ((cat.records id).map (·.encode))
  tags : TagSets ks ns cat.Tagged
  counter : ks.get? (Key.counter ns) =
    textEntry (if cat.lastId = 0 then none else some (toString (cat.lastId : Int)))

/-- No creation lock of a namespace is held. -/
def Unlocked (ks : Keyspace) (ns : Namespace) : Prop :=
  ∀ n, ks.get? (Key.lock (Key.name ns n)) = none

theorem holds_empty (ns : Namespace) : Holds .empty ns .empty where
  names := fun _ => rfl
  records := fun _ => rfl
  tags := fun _ => ⟨[], rfl, fun s => by simp [Catalogue.Tagged, Catalogue.empty]⟩
  counter := rfl

theorem set?_congr {ks ks' : Keyspace} {key : String} (h : ks'.get? key = ks.get? key) :
    ks'.set? key = ks.set? key := by
  unfold Keyspace.set?
  rw [h]

variable {ks ks' : Keyspace} {ns : Namespace} {cat : Catalogue}

/-- Only the keys of the namespace matter. -/
theorem Holds.congr (h : Holds ks ns cat)
    (same : ∀ k : KeyName, k.Describes ns → ks'.get? k.text = ks.get? k.text) :
    Holds ks' ns cat where
  names := fun n => (same (.name ns n) rfl).trans (h.names n)
  records := fun id => (same (.descriptor ⟨ns, id⟩) rfl).trans (h.records id)
  tags := fun t => by
    obtain ⟨members, hset, hmem⟩ := h.tags t
    exact ⟨members, (set?_congr (same (.tag ns t) rfl)).trans hset, hmem⟩
  counter := (same (.counter ns) rfl).trans h.counter

/-! ## Looking up -/

section LookingUp

variable {required : String}

theorem string?_eq {key : String} {text : Option String} (h : ks.get? key = textEntry text) :
    ks.string? key = .ok text := by
  unfold Keyspace.string?
  rw [h]
  cases text <;> rfl

theorem exec_get {key : String} {text : Option String} (h : ks.get? key = textEntry text) :
    Server.exec required (.get key) ks = (.ok (text.elim .nothing .text), ks) := by
  simp only [Server.exec, string?_eq h]
  cases text <;> rfl

/-- An id is read back. -/
theorem exec_get_id {key : String} {id : Option SeriesId}
    (h : ks.get? key = textEntry (id.map toString)) :
    ∃ reply, Server.exec required (.get key) ks = (.ok reply, ks) ∧
      wordOrNothing reply = .ok (id.map (·.number)) := by
  refine ⟨_, exec_get h, ?_⟩
  cases id with
  | none => rfl
  | some id =>
    have read : word? (toString id) = some id.number := word?_toString id.number
    simp only [Option.map_some, Option.elim_some, wordOrNothing, read]

theorem Holds.get_descriptor (h : Holds ks ns cat) (id : SeriesId) :
    ∃ reply, Server.exec required (.get (Key.descriptor ⟨ns, id⟩)) ks = (.ok reply, ks) ∧
      textOrNothing reply = .ok ((cat.records id).map (·.encode)) := by
  refine ⟨_, exec_get (h.records id), ?_⟩
  cases cat.records id <;> rfl

end LookingUp

/-! ## Commands of a namespace -/

section Commands

variable (required : String)

/-- One more id is given, if one is left. -/
theorem exec_increment {last : Nat} (h : ks.get? (Key.counter ns) = counterEntry last)
    (bounded : last ≤ maxInt64) :
    Server.exec required (.increment (Key.counter ns)) ks =
      if last < maxInt64 then (.ok (.integer (last + 1)),
        ks.setValue (Key.counter ns) (.string (toString ((last : Int) + 1))))
      else (.error "ERR increment or decrement would overflow", ks) := by
  have number : integer? 10 maxInt64
      ((if last = 0 then none else some (toString (last : Int))).getD "0").toList =
        some (last : Int) := by
    by_cases first : last = 0
    · simp only [first, if_true]
      rfl
    · rw [if_neg first]
      exact integer?_toString (by omega) (by omega)
  simp only [Server.exec, string?_eq h, number, Int.ofNat_lt]

/-- What the counter holds after one more id was given. -/
theorem get?_incremented {last : Nat} (h : ks.get? (Key.counter ns) = counterEntry last) :
    (ks.setValue (Key.counter ns) (.string (toString ((last : Int) + 1)))).get? (Key.counter ns) =
      counterEntry (last + 1) := by
  rw [Keyspace.get?_setValue, if_pos rfl, h, counterEntry]
  split <;> simp [textEntry, counterEntry]

theorem get?_incremented_ne (ks : Keyspace) (value : Value) {k : KeyName} (hk : k ≠ .counter ns) :
    (ks.setValue (Key.counter ns) value).get? k.text = ks.get? k.text := by
  have apart : Key.counter ns ≠ k.text := KeyName.text_ne (k := .counter ns) hk.symm
  rw [Keyspace.get?_setValue, if_neg apart]

/-- One more id is given. -/
theorem Holds.increment (h : Holds ks ns cat) (room : cat.lastId < maxInt64) :
    ∃ ks', Server.exec required (.increment (Key.counter ns)) ks =
        (.ok (.integer (cat.lastId + 1)), ks') ∧ Holds ks' ns cat.count ∧
      ∀ k : KeyName, k ≠ .counter ns → ks'.get? k.text = ks.get? k.text := by
  have run := exec_increment required h.counter (Nat.le_of_lt room)
  rw [if_pos room] at run
  have others : ∀ k : KeyName, k ≠ .counter ns →
      (ks.setValue (Key.counter ns) (.string (toString ((cat.lastId : Int) + 1)))).get? k.text =
        ks.get? k.text := fun k hk => get?_incremented_ne ks _ hk
  refine ⟨_, run, ⟨fun n => ?_, fun id => ?_, fun t => ?_, get?_incremented h.counter⟩, others⟩
  · exact (others (.name ns n) (by simp)).trans (h.names n)
  · exact (others (.descriptor ⟨ns, id⟩) (by simp)).trans (h.records id)
  · obtain ⟨members, hset, hmem⟩ := h.tags t
    exact ⟨members, (set?_congr (others (.tag ns t) (by simp))).trans hset, hmem⟩

/-- When no id is left none is given. -/
theorem Holds.increment_refused (h : Holds ks ns cat) (full : cat.lastId = maxInt64) :
    ∃ text, Server.exec required (.increment (Key.counter ns)) ks = (.error text, ks) := by
  have run := exec_increment required h.counter (Nat.le_of_eq full)
  rw [if_neg (by omega)] at run
  exact ⟨_, run⟩

theorem tag_ne {t t' : String} (h : t ≠ t') : Key.tag ns t ≠ Key.tag ns t' :=
  @KeyName.text_ne (.tag ns t) (.tag ns t') (by simpa using h)

theorem set?_setValue (ks : Keyspace) (key : String) (members : List String) :
    (ks.setValue key (.set members)).set? key = .ok members := by
  unfold Keyspace.set?
  rw [Keyspace.get?_setValue, if_pos rfl]

/-- A member enters the set of a tag. -/
theorem TagSets.addMember {tagged : String → String → Prop} (h : TagSets ks ns tagged)
    (tag member : String) :
    ∃ reply ks', Server.exec required (.addMember (Key.tag ns tag) member) ks = (.ok reply, ks') ∧
      TagSets ks' ns fun t s => tagged t s ∨ (t = tag ∧ s = member) := by
  obtain ⟨members, hset, hmem⟩ := h tag
  by_cases there : member ∈ members
  · refine ⟨.integer 0, ks, by simp [Server.exec, hset, there], fun t => ?_⟩
    obtain ⟨others, hset', hmem'⟩ := h t
    refine ⟨others, hset', fun s => ?_⟩
    rw [hmem']
    refine ⟨Or.inl, ?_⟩
    rintro (old | ⟨rfl, rfl⟩)
    · exact old
    · exact (hmem _).mp there
  · refine ⟨.integer 1, ks.setValue (Key.tag ns tag) (.set (members ++ [member])),
      by simp [Server.exec, hset, there], fun t => ?_⟩
    by_cases same : t = tag
    · subst same
      refine ⟨members ++ [member], set?_setValue _ _ _, fun s => ?_⟩
      simp [hmem]
    · obtain ⟨others, hset', hmem'⟩ := h t
      refine ⟨others, ?_, fun s => by simp [hmem', same]⟩
      rw [← hset']
      apply set?_congr
      rw [Keyspace.get?_setValue, if_neg]
      exact tag_ne (Ne.symm same)

/-- A member leaves the set of a tag. -/
theorem TagSets.removeMember {tagged : String → String → Prop} (h : TagSets ks ns tagged)
    (tag member : String) :
    ∃ reply ks', Server.exec required (.removeMember (Key.tag ns tag) member) ks =
        (.ok reply, ks') ∧
      TagSets ks' ns fun t s => tagged t s ∧ ¬ (t = tag ∧ s = member) := by
  obtain ⟨members, hset, hmem⟩ := h tag
  by_cases there : member ∈ members
  · let left := members.filter (· ≠ member)
    refine ⟨.integer 1, if left.isEmpty then ks.erase (Key.tag ns tag)
      else ks.setValue (Key.tag ns tag) (.set left), by simp [Server.exec, hset, there, left],
      fun t => ?_⟩
    by_cases same : t = tag
    · subst same
      refine ⟨left, ?_, fun s => by simp [left, hmem]⟩
      split
      · next empty =>
        rw [List.isEmpty_iff.mp empty]
        simp [Keyspace.set?]
      · exact set?_setValue _ _ _
    · obtain ⟨others, hset', hmem'⟩ := h t
      refine ⟨others, ?_, fun s => by simp [hmem', same]⟩
      have apart : Key.tag ns tag ≠ Key.tag ns t :=
        tag_ne (Ne.symm same)
      rw [← hset']
      apply set?_congr
      split <;> simp [apart]
  · refine ⟨.integer 0, ks, by simp [Server.exec, hset, there], fun t => ?_⟩
    obtain ⟨others, hset', hmem'⟩ := h t
    refine ⟨others, hset', fun s => ?_⟩
    rw [hmem']
    refine ⟨fun old => ⟨old, ?_⟩, And.left⟩
    rintro ⟨rfl, rfl⟩
    exact there ((hmem _).mpr old)

theorem TagSets.addMembers {tagged : String → String → Prop} (h : TagSets ks ns tagged)
    (tags : List String) (member : String) :
    ∃ replies last, Runs required (tags.map fun t => .addMember (Key.tag ns t) member) ks
        replies last ∧
      TagSets last ns fun t s => tagged t s ∨ (t ∈ tags ∧ s = member) := by
  induction tags generalizing ks tagged with
  | nil => exact ⟨[], ks, .done, by simpa using h⟩
  | cons tag rest ih =>
    obtain ⟨reply, mid, run, hmid⟩ := h.addMember required tag member
    obtain ⟨replies, last, runs, hlast⟩ := ih hmid
    refine ⟨reply :: replies, last, .step run runs, ?_⟩
    simpa [or_assoc, or_and_right] using hlast

theorem TagSets.removeMembers {tagged : String → String → Prop} (h : TagSets ks ns tagged)
    (tags : List String) (member : String) :
    ∃ replies last, Runs required (tags.map fun t => .removeMember (Key.tag ns t) member) ks
        replies last ∧
      TagSets last ns fun t s => tagged t s ∧ ¬ (t ∈ tags ∧ s = member) := by
  induction tags generalizing ks tagged with
  | nil => exact ⟨[], ks, .done, by simpa using h⟩
  | cons tag rest ih =>
    obtain ⟨reply, mid, run, hmid⟩ := h.removeMember required tag member
    obtain ⟨replies, last, runs, hlast⟩ := ih hmid
    refine ⟨reply :: replies, last, .step run runs, ?_⟩
    simpa [and_assoc, or_and_right, not_or] using hlast

/-! ## Entering and removing descriptors -/

/-- Only keys that describe a namespace may differ. -/
def Confined (ns : Namespace) (ks ks' : Keyspace) : Prop :=
  ∀ k : KeyName, ¬ k.Describes ns → ks'.get? k.text = ks.get? k.text

theorem Confined.trans {last : Keyspace} (h : Confined ns ks ks') (h' : Confined ns ks' last) :
    Confined ns ks last :=
  fun k hk => (h' k hk).trans (h k hk)

/-- Other namespaces keep their catalogues. -/
theorem Holds.confined {ns' : Namespace} (h : Holds ks ns' cat) (confined : Confined ns ks ks')
    (apart : ns' ≠ ns) : Holds ks' ns' cat :=
  h.congr fun k hk => confined k fun hk' => apart (hk.unique hk')

theorem confined_of_others {m : SeriesMetadata}
    (h : ∀ k : KeyName, (∀ t, k ≠ .tag m.ns t) → k ≠ .name m.ns m.name → k ≠ .descriptor m.ref →
      ks'.get? k.text = ks.get? k.text) : Confined m.ns ks ks' := by
  intro k hk
  refine h k ?_ ?_ ?_
  · rintro t rfl
    exact hk rfl
  · rintro rfl
    exact hk rfl
  · rintro rfl
    exact hk rfl

theorem tagged_add {m : SeriesMetadata} (newId : cat.records m.id = none) (t s : String) :
    (cat.add m).Tagged t s ↔ cat.Tagged t s ∨ (t ∈ m.tags ∧ s = toString m.id) := by
  constructor
  · rintro ⟨id, m', hm', htag, rfl⟩
    simp only [Catalogue.add] at hm'
    split at hm'
    · next heq =>
      obtain rfl := Option.some.inj hm'
      exact Or.inr ⟨htag, by rw [heq]⟩
    · exact Or.inl ⟨id, m', hm', htag, rfl⟩
  · rintro (⟨id, m', hm', htag, rfl⟩ | ⟨htag, rfl⟩)
    · refine ⟨id, m', ?_, htag, rfl⟩
      simp only [Catalogue.add]
      rw [if_neg]
      · exact hm'
      · rintro rfl
        rw [newId] at hm'
        cases hm'
    · exact ⟨m.id, m, if_pos rfl, htag, rfl⟩

theorem tagged_remove {m : SeriesMetadata} (admitted : cat.Admits m) (t s : String) :
    (cat.remove m).Tagged t s ↔ cat.Tagged t s ∧ ¬ (t ∈ m.tags ∧ s = toString m.id) := by
  constructor
  · rintro ⟨id, m', hm', htag, rfl⟩
    simp only [Catalogue.remove] at hm'
    split at hm'
    · cases hm'
    · next other =>
      exact ⟨⟨id, m', hm', htag, rfl⟩, fun shared => other (toString_id_inj.mp shared.2)⟩
  · rintro ⟨⟨id, m', hm', htag, rfl⟩, apart⟩
    refine ⟨id, m', ?_, htag, rfl⟩
    simp only [Catalogue.remove]
    rw [if_neg]
    · exact hm'
    · rintro rfl
      obtain rfl := admitted m.id m' hm' (Or.inl rfl)
      exact apart ⟨htag, rfl⟩

/-- The commands of a creation enter a descriptor. -/
theorem Holds.registration (h : Holds ks ns cat) {m : SeriesMetadata} (hns : m.ns = ns)
    (newId : cat.records m.id = none) :
    ∃ replies last, Runs required ((registration m).map (·.command)) ks replies last ∧
      Holds last ns (cat.add m) ∧ Confined ns ks last := by
  subst hns
  let named := ks.insert (Key.name m.ns m.name) { value := .string (toString m.id) }
  let described := named.insert (Key.descriptor m.ref) { value := .string m.encode }
  have before : ∀ k : KeyName, k ≠ .name m.ns m.name → k ≠ .descriptor m.ref →
      described.get? k.text = ks.get? k.text := by
    intro k hn hd
    have apart : Key.name m.ns m.name ≠ k.text := KeyName.text_ne (k := .name _ _) hn.symm
    have apart' : Key.descriptor m.ref ≠ k.text := KeyName.text_ne (k := .descriptor _) hd.symm
    simp only [described, named, Table.get?_insert, apart, apart', if_false]
  have tags : TagSets described m.ns cat.Tagged := fun t => by
    obtain ⟨members, hset, hmem⟩ := h.tags t
    exact ⟨members, (set?_congr (before (.tag m.ns t) (by simp) (by simp))).trans hset, hmem⟩
  obtain ⟨replies, last, runs, htags⟩ := tags.addMembers required m.tags (toString m.id)
  have after :
      ∀ k : KeyName, (∀ t, k ≠ .tag m.ns t) → last.get? k.text = described.get? k.text := by
    intro k hk
    refine runs.get?_eq fun command hc => ?_
    obtain ⟨t, _, rfl⟩ := List.mem_map.mp hc
    exact KeyName.text_ne (k := .tag m.ns t) (hk t).symm
  have others : ∀ k : KeyName, (∀ t, k ≠ .tag m.ns t) → k ≠ .name m.ns m.name →
      k ≠ .descriptor m.ref → last.get? k.text = ks.get? k.text :=
    fun k ht hn hd => (after k ht).trans (before k hn hd)
  refine ⟨.ok :: .ok :: replies, last, ?_, ⟨fun n => ?_, fun id => ?_, fun t => ?_, ?_⟩, ?_⟩
  · have commands : (Remote.registration m).map (·.command) =
        .set (Key.name m.ns m.name) (toString m.id) :: .set (Key.descriptor m.ref) m.encode ::
          m.tags.map fun t => .addMember (Key.tag m.ns t) (toString m.id) := by
      simp [Remote.registration, StagedCommand.unchecked, Function.comp_def]
    rw [commands]
    exact .step rfl (.step rfl runs)
  · by_cases same : n = m.name
    · subst same
      have apart : Key.descriptor m.ref ≠ Key.name m.ns m.name :=
        @KeyName.text_ne (.descriptor m.ref) (.name m.ns m.name) (by simp)
      refine (after (.name m.ns m.name) (by simp)).trans ?_
      simp only [KeyName.text, described, named, Table.get?_insert, apart, if_false, if_true,
        Catalogue.add]
      rfl
    · refine (others (.name m.ns n) (by simp) (by simpa using same) (by simp)).trans ?_
      simp only [KeyName.text, h.names, Catalogue.add, same, if_false]
  · by_cases same : id = m.id
    · subst same
      refine (after (.descriptor m.ref) (by simp)).trans ?_
      simp only [KeyName.text, described, Table.get?_insert, if_true, Catalogue.add]
      rfl
    · have apart : (⟨m.ns, id⟩ : SeriesRef) ≠ m.ref := fun heq => same (congrArg SeriesRef.id heq)
      refine (others (.descriptor ⟨m.ns, id⟩) (by simp) (by simp) (by simpa using apart)).trans ?_
      simp only [KeyName.text, h.records, Catalogue.add, same, if_false]
  · obtain ⟨members, hset, hmem⟩ := htags t
    exact ⟨members, hset, fun s => by rw [hmem, tagged_add newId]⟩
  · exact (others (.counter m.ns) (by simp) (by simp) (by simp)).trans h.counter
  · exact confined_of_others others

/-- The commands of a deletion take a descriptor out. -/
theorem Holds.removal (h : Holds ks ns cat) {m : SeriesMetadata} (hns : m.ns = ns)
    (admitted : cat.Admits m) :
    ∃ replies last, Runs required ((removal m).map (·.command)) ks replies last ∧
      Holds last ns (cat.remove m) ∧ Confined ns ks last := by
  subst hns
  let keys := [Key.name m.ns m.name, Key.descriptor m.ref]
  let gone := keys.foldl Table.erase ks
  have before : ∀ k : KeyName, k ≠ .name m.ns m.name → k ≠ .descriptor m.ref →
      gone.get? k.text = ks.get? k.text := by
    intro k hn hd
    have apart : k.text ≠ Key.name m.ns m.name := @KeyName.text_ne k (.name _ _) hn
    have apart' : k.text ≠ Key.descriptor m.ref := @KeyName.text_ne k (.descriptor _) hd
    rw [Server.get?_erase_all, if_neg (by simp [keys, apart, apart'])]
  have tags : TagSets gone m.ns cat.Tagged := fun t => by
    obtain ⟨members, hset, hmem⟩ := h.tags t
    exact ⟨members, (set?_congr (before (.tag m.ns t) (by simp) (by simp))).trans hset, hmem⟩
  obtain ⟨replies, last, runs, htags⟩ :=
    tags.removeMembers required m.tags (toString m.id)
  have after : ∀ k : KeyName, (∀ t, k ≠ .tag m.ns t) → last.get? k.text = gone.get? k.text := by
    intro k hk
    refine runs.get?_eq fun command hc => ?_
    obtain ⟨t, _, rfl⟩ := List.mem_map.mp hc
    exact KeyName.text_ne (k := .tag m.ns t) (hk t).symm
  have others : ∀ k : KeyName, (∀ t, k ≠ .tag m.ns t) → k ≠ .name m.ns m.name →
      k ≠ .descriptor m.ref → last.get? k.text = ks.get? k.text :=
    fun k ht hn hd => (after k ht).trans (before k hn hd)
  refine ⟨.integer (keys.eraseDups.countP ks.contains) :: replies, last, ?_,
    ⟨fun n => ?_, fun id => ?_, fun t => ?_, ?_⟩, ?_⟩
  · have commands : (Remote.removal m).map (·.command) =
        .delete keys :: m.tags.map fun t => .removeMember (Key.tag m.ns t) (toString m.id) := by
      simp [Remote.removal, StagedCommand.unchecked, Function.comp_def, keys]
    rw [commands]
    exact .step rfl runs
  · by_cases same : n = m.name
    · subst same
      refine (after (.name m.ns m.name) (by simp)).trans ?_
      rw [Server.get?_erase_all, if_pos (by simp [KeyName.text, keys])]
      simp [Catalogue.remove, textEntry]
    · refine (others (.name m.ns n) (by simp) (by simpa using same) (by simp)).trans ?_
      simp only [KeyName.text, h.names, Catalogue.remove, same, if_false]
  · by_cases same : id = m.id
    · subst same
      refine (after (.descriptor m.ref) (by simp)).trans ?_
      rw [Server.get?_erase_all, if_pos (by simp [KeyName.text, keys])]
      simp [Catalogue.remove, textEntry]
    · have apart : (⟨m.ns, id⟩ : SeriesRef) ≠ m.ref := fun heq => same (congrArg SeriesRef.id heq)
      refine (others (.descriptor ⟨m.ns, id⟩) (by simp) (by simp) (by simpa using apart)).trans ?_
      simp only [KeyName.text, h.records, Catalogue.remove, same, if_false]
  · obtain ⟨members, hset, hmem⟩ := htags t
    exact ⟨members, hset, fun s => by rw [hmem, tagged_remove admitted]⟩
  · exact (others (.counter m.ns) (by simp) (by simp) (by simp)).trans h.counter
  · exact confined_of_others others

theorem Holds.removals (h : Holds ks ns cat) {metas : List SeriesMetadata}
    (hns : ∀ m ∈ metas, m.ns = ns) (admitted : ∀ m ∈ metas, cat.Admits m) :
    ∃ replies last, Runs required ((metas.flatMap Remote.removal).map (·.command)) ks replies last ∧
      Holds last ns (cat.removeAll metas) ∧ Confined ns ks last := by
  induction metas generalizing ks cat with
  | nil => exact ⟨[], ks, .done, h, fun _ _ => rfl⟩
  | cons m rest ih =>
    obtain ⟨replies, mid, runs, hmid, confined⟩ :=
      h.removal required (hns m List.mem_cons_self) (admitted m List.mem_cons_self)
    obtain ⟨replies', last, runs', hlast, confined'⟩ := ih hmid
      (fun m' hm' => hns m' (List.mem_cons_of_mem _ hm'))
      (fun m' hm' => (admitted m' (List.mem_cons_of_mem _ hm')).remove)
    refine ⟨replies ++ replies', last, ?_, hlast, confined.trans confined'⟩
    rw [List.flatMap_cons, List.map_append]
    exact runs.append runs'

end Commands

end Remote

end SeriesStorage
