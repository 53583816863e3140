import SeriesStorage.Proofs.Number.Digits
import SeriesStorage.Remote.Keys

/-!
# The layout of keys is unambiguous

A key says what it is the key of: keys of different kinds begin with different letters, a namespace
ends at the first underscore behind it, and the numbers in the key of a bucket are told apart from
the end on (`KeyName.text_inj`).  So a command on one key touches no other, whatever the names and
tags in them look like.

`keys_collision_free` says the same of the keys themselves, family by family: a key gives back all
that it is made of, and it belongs to one family only (`KeyFamily.Has`).
-/

namespace SeriesStorage

/-- What a key is the key of. -/
inductive KeyName
  | data (ref : SeriesRef) (bucket : UInt64)
  | name (ns : Namespace) (name : String)
  | lock (ns : Namespace) (name : String)
  | counter (ns : Namespace)
  | descriptor (ref : SeriesRef)
  | tag (ns : Namespace) (tag : String)
deriving DecidableEq

/-- The key. -/
def KeyName.text : KeyName → String
  | .data ref bucket => Key.data ref bucket
  | .name ns n => Key.name ns n
  | .lock ns n => Key.lock (Key.name ns n)
  | .counter ns => Key.counter ns
  | .descriptor ref => Key.descriptor ref
  | .tag ns t => Key.tag ns t

/-! ## Texts between separators -/

theorem append_cons_inj {c : Char} {a a' b b' : List Char} (ha : c ∉ a) (ha' : c ∉ a')
    (h : a ++ c :: b = a' ++ c :: b') : a = a' ∧ b = b' := by
  induction a generalizing a' with
  | nil =>
    cases a' with
    | nil => exact ⟨rfl, (List.cons.inj h).2⟩
    | cons d a' => exact absurd (by simp [(List.cons.inj h).1]) ha'
  | cons d a ih =>
    cases a' with
    | nil => exact absurd (by simp [(List.cons.inj h).1]) ha
    | cons d' a' =>
      obtain ⟨rfl, hrest⟩ := List.cons.inj h
      obtain ⟨rfl, rfl⟩ := ih (fun m => ha (List.mem_cons_of_mem _ m))
        (fun m => ha' (List.mem_cons_of_mem _ m)) hrest
      exact ⟨rfl, rfl⟩

theorem not_mem_toDigits {c : Char} (h : c.isDigit = false) (n : Nat) : c ∉ Nat.toDigits 10 n := by
  intro m
  rw [isDigit_of_mem m] at h
  cases h

theorem underscore_not_mem_ns (ns : Namespace) : '_' ∉ (toString ns).toList := by
  show '_' ∉ (toString ns.number.toInt).toList
  rw [toList_intText]
  split
  · exact not_mem_toDigits (by decide) _
  · simp

theorem toString_ns_inj {ns ns' : Namespace} : (toString ns).toList = (toString ns').toList ↔
    ns = ns' := by
  constructor
  · intro h
    have := intText_inj.mp (String.toList_inj.mp h)
    cases ns; cases ns'
    exact congrArg Namespace.mk (Int32.toInt_inj.mp this)
  · rintro rfl
    rfl

theorem toList_id (id : SeriesId) : (toString id).toList = Nat.toDigits 10 id.number.toNat :=
  toList_natText _

theorem toString_id_inj {id id' : SeriesId} : toString id = toString id' ↔ id = id' := by
  constructor
  · intro h
    have := natText_inj.mp h
    cases id; cases id'
    exact congrArg SeriesId.mk (UInt64.toNat_inj.mp this)
  · rintro rfl
    rfl

/-! ## Keys -/

theorem toList_data (ref : SeriesRef) (bucket : UInt64) :
    (Key.data ref bucket).toList = "data_".toList ++ ((toString ref.ns).toList ++ '-' ::
      ((toString ref.id).toList ++ '-' :: (toString bucket.toNat).toList)) := by
  simp [Key.data]

theorem toList_name (ns : Namespace) (name : String) :
    (Key.name ns name).toList =
      "series_".toList ++ ((toString ns).toList ++ '_' :: name.toList) := by
  simp [Key.name]

theorem toList_lock (ns : Namespace) (name : String) :
    (Key.lock (Key.name ns name)).toList =
      "lock_series_".toList ++ ((toString ns).toList ++ '_' :: name.toList) := by
  simp [Key.name, Key.lock]

theorem toList_counter (ns : Namespace) :
    (Key.counter ns).toList = "id_".toList ++ (toString ns).toList := by
  simp [Key.counter]

theorem toList_descriptor (ref : SeriesRef) :
    (Key.descriptor ref).toList =
      "meta_".toList ++ ((toString ref.ns).toList ++ '_' :: (toString ref.id).toList) := by
  simp [Key.descriptor]

theorem toList_tag (ns : Namespace) (tag : String) :
    (Key.tag ns tag).toList = "tag_".toList ++ ((toString ns).toList ++ '_' :: tag.toList) := by
  simp [Key.tag]

namespace KeyName

/-- The letter with which keys of a kind begin. -/
def letter : KeyName → Char
  | .data _ _ => 'd'
  | .name _ _ => 's'
  | .lock _ _ => 'l'
  | .counter _ => 'i'
  | .descriptor _ => 'm'
  | .tag _ _ => 't'

theorem head?_text (k : KeyName) : k.text.toList.head? = some k.letter := by
  cases k <;> simp [text, letter, toList_data, toList_name, toList_lock, toList_counter,
    toList_descriptor, toList_tag]

theorem data_inj {ref ref' : SeriesRef} {bucket bucket' : UInt64}
    (h : Key.data ref bucket = Key.data ref' bucket') : ref = ref' ∧ bucket = bucket' := by
  have hl := congrArg (List.reverse ∘ String.toList) h
  simp only [Function.comp, toList_data, toList_natText, List.reverse_append, List.reverse_cons,
    List.append_assoc, List.singleton_append] at hl
  obtain ⟨hbucket, hl⟩ := append_cons_inj
    (by simpa using not_mem_toDigits (by decide) bucket.toNat)
    (by simpa using not_mem_toDigits (by decide) bucket'.toNat) hl
  rw [toList_id, toList_id] at hl
  obtain ⟨hid, hns⟩ := append_cons_inj
    (by simpa using not_mem_toDigits (by decide) ref.id.number.toNat)
    (by simpa using not_mem_toDigits (by decide) ref'.id.number.toNat) hl
  have idEq : ref.id = ref'.id := by
    rw [← toString_id_inj, ← String.toList_inj, toList_id, toList_id, ← List.reverse_inj]
    exact hid
  have nsEq : ref.ns = ref'.ns := by
    rw [← toString_ns_inj, ← List.reverse_inj]
    exact List.append_cancel_right hns
  refine ⟨by cases ref; cases ref'; simp_all, ?_⟩
  rw [← UInt64.toNat_inj, ← natText_inj, ← String.toList_inj, toList_natText, toList_natText,
    ← List.reverse_inj]
  exact hbucket

/-- Behind a prefix, a namespace, and an underscore any text is told apart. -/
theorem behind_ns_inj {start : List Char} {ns ns' : Namespace} {rest rest' : List Char}
    (h : start ++ ((toString ns).toList ++ '_' :: rest) =
      start ++ ((toString ns').toList ++ '_' :: rest')) : ns = ns' ∧ rest = rest' := by
  obtain ⟨hns, hrest⟩ := append_cons_inj (underscore_not_mem_ns ns) (underscore_not_mem_ns ns')
    (List.append_cancel_left h)
  exact ⟨toString_ns_inj.mp hns, hrest⟩

/-- **Different things have different keys.** -/
theorem text_inj {k k' : KeyName} : k.text = k'.text ↔ k = k' := by
  refine ⟨fun h => ?_, fun h => by rw [h]⟩
  have chars := congrArg String.toList h
  have letters : k.letter = k'.letter := by
    have := congrArg List.head? chars
    rw [head?_text, head?_text] at this
    exact Option.some.inj this
  cases k <;> cases k' <;> simp only [letter, Char.reduceEq] at letters
  case data.data ref bucket ref' bucket' =>
    obtain ⟨rfl, rfl⟩ := data_inj h
    rfl
  case name.name ns n ns' n' =>
    simp only [text, toList_name] at chars
    obtain ⟨rfl, hn⟩ := behind_ns_inj chars
    rw [String.toList_inj.mp hn]
  case lock.lock ns n ns' n' =>
    simp only [text, toList_lock] at chars
    obtain ⟨rfl, hn⟩ := behind_ns_inj chars
    rw [String.toList_inj.mp hn]
  case counter.counter ns ns' =>
    simp only [text, toList_counter] at chars
    rw [toString_ns_inj.mp (List.append_cancel_left chars)]
  case descriptor.descriptor ref ref' =>
    simp only [text, toList_descriptor] at chars
    obtain ⟨hns, hid⟩ := behind_ns_inj chars
    have := toString_id_inj.mp (String.toList_inj.mp hid)
    cases ref; cases ref'
    simp_all
  case tag.tag ns t ns' t' =>
    simp only [text, toList_tag] at chars
    obtain ⟨rfl, ht⟩ := behind_ns_inj chars
    rw [String.toList_inj.mp ht]

theorem text_ne {k k' : KeyName} (h : k ≠ k') : k.text ≠ k'.text :=
  fun same => h (text_inj.mp same)

end KeyName

/-! ## Families -/

/-- The families of keys. -/
inductive KeyFamily
  | data
  | name
  | lock
  | counter
  | descriptor
  | tag
deriving DecidableEq, Repr

namespace KeyFamily

/-- Whether a text is a key of the family. -/
def Has : KeyFamily → String → Prop
  | .data, key => ∃ ref bucket, Key.data ref bucket = key
  | .name, key => ∃ ns name, Key.name ns name = key
  | .lock, key => ∃ ns name, Key.lock (Key.name ns name) = key
  | .counter, key => ∃ ns, Key.counter ns = key
  | .descriptor, key => ∃ ref, Key.descriptor ref = key
  | .tag, key => ∃ ns tag, Key.tag ns tag = key

/-- The family of what a key is the key of. -/
def ofName : KeyName → KeyFamily
  | .data _ _ => data
  | .name _ _ => name
  | .lock _ _ => lock
  | .counter _ => counter
  | .descriptor _ => descriptor
  | .tag _ _ => tag

theorem has_iff {family : KeyFamily} {key : String} :
    family.Has key ↔ ∃ k : KeyName, ofName k = family ∧ k.text = key := by
  constructor
  · intro member
    cases family with
    | data =>
      obtain ⟨ref, bucket, same⟩ := member
      exact ⟨.data ref bucket, rfl, same⟩
    | name =>
      obtain ⟨ns, name, same⟩ := member
      exact ⟨.name ns name, rfl, same⟩
    | lock =>
      obtain ⟨ns, name, same⟩ := member
      exact ⟨.lock ns name, rfl, same⟩
    | counter =>
      obtain ⟨ns, same⟩ := member
      exact ⟨.counter ns, rfl, same⟩
    | descriptor =>
      obtain ⟨ref, same⟩ := member
      exact ⟨.descriptor ref, rfl, same⟩
    | tag =>
      obtain ⟨ns, tag, same⟩ := member
      exact ⟨.tag ns tag, rfl, same⟩
  · rintro ⟨k, rfl, rfl⟩
    cases k with
    | data ref bucket => exact ⟨ref, bucket, rfl⟩
    | name ns name => exact ⟨ns, name, rfl⟩
    | lock ns name => exact ⟨ns, name, rfl⟩
    | counter ns => exact ⟨ns, rfl⟩
    | descriptor ref => exact ⟨ref, rfl⟩
    | tag ns tag => exact ⟨ns, tag, rfl⟩

/-- A key belongs to one family. -/
theorem Has.unique {family other : KeyFamily} {key : String} (member : family.Has key)
    (also : other.Has key) : family = other := by
  obtain ⟨k, rfl, rfl⟩ := has_iff.mp member
  obtain ⟨k', rfl, same⟩ := has_iff.mp also
  rw [KeyName.text_inj.mp same]

end KeyFamily

/-- **Keys never collide.**  A key gives back all arguments that it was made of, whatever numbers,
names and tags they are: negative namespaces, and texts with separators, signs or digits in them.
And no text is a key of two families. -/
theorem keys_collision_free :
    (∀ ns ns' id id' bucket bucket', Key.data ⟨ns, id⟩ bucket = Key.data ⟨ns', id'⟩ bucket' ↔
      ns = ns' ∧ id = id' ∧ bucket = bucket') ∧
    (∀ ns ns' name name', Key.name ns name = Key.name ns' name' ↔ ns = ns' ∧ name = name') ∧
    (∀ ns ns' name name', Key.lock (Key.name ns name) = Key.lock (Key.name ns' name') ↔
      ns = ns' ∧ name = name') ∧
    (∀ ns ns', Key.counter ns = Key.counter ns' ↔ ns = ns') ∧
    (∀ ns ns' id id', Key.descriptor ⟨ns, id⟩ = Key.descriptor ⟨ns', id'⟩ ↔ ns = ns' ∧ id = id') ∧
    (∀ ns ns' tag tag', Key.tag ns tag = Key.tag ns' tag' ↔ ns = ns' ∧ tag = tag') ∧
    ∀ (family other : KeyFamily) (key : String), family.Has key → other.Has key →
      family = other := by
  refine ⟨fun ns ns' id id' bucket bucket' => ?_, fun ns ns' name name' => ?_,
    fun ns ns' name name' => ?_, fun ns ns' => ?_, fun ns ns' id id' => ?_,
    fun ns ns' tag tag' => ?_, fun family other key => KeyFamily.Has.unique⟩
  · exact (@KeyName.text_inj (.data ⟨ns, id⟩ bucket) (.data ⟨ns', id'⟩ bucket')).trans
      (by simp [and_assoc])
  · exact (@KeyName.text_inj (.name ns name) (.name ns' name')).trans (by simp)
  · exact (@KeyName.text_inj (.lock ns name) (.lock ns' name')).trans (by simp)
  · exact (@KeyName.text_inj (.counter ns) (.counter ns')).trans (by simp)
  · exact (@KeyName.text_inj (.descriptor ⟨ns, id⟩) (.descriptor ⟨ns', id'⟩)).trans (by simp)
  · exact (@KeyName.text_inj (.tag ns tag) (.tag ns' tag')).trans (by simp)

/-- Keys that differ in where their separators and signs stand. -/
theorem keys_collision_free_separators :
    Key.name ⟨1⟩ "1_1" ≠ Key.name ⟨11⟩ "_1" ∧
      Key.data ⟨⟨-1⟩, ⟨11⟩⟩ 0 ≠ Key.data ⟨⟨-11⟩, ⟨1⟩⟩ 0 ∧
      KeyFamily.lock.Has "lock_series_1_1_1" ∧ ¬ KeyFamily.name.Has "lock_series_1_1_1" := by
  obtain ⟨data, name, -, -, -, -, unique⟩ := keys_collision_free
  have member : KeyFamily.lock.Has "lock_series_1_1_1" := ⟨⟨1⟩, "1_1", by decide⟩
  refine ⟨fun same => ?_, fun same => ?_, member, fun also => ?_⟩
  · exact absurd ((name _ _ _ _).mp same).2 (by decide)
  · exact absurd ((data _ _ _ _ _ _).mp same).1 (by decide)
  · exact absurd (unique _ _ _ member also) (by decide)

end SeriesStorage
