import SeriesStorage.Proofs.Remote.Catalogue
import SeriesStorage.Proofs.Server.Attempts

/-!
# What survives refused commands

When commands may be refused the keys of a namespace need not hold a catalogue.  Still a descriptor
is the record of its own series, and its id was counted (`Filed`), whatever is refused.

* `Filed.increment`: what an attempt at the counter can do.
* `entered`: what attempts at the commands of a registration can do: they set the name, the
  descriptor, both or neither (`Entered`).
-/

namespace SeriesStorage

namespace Remote

open Server (Attempt Attempts Command Entry Keyspace LogEntry Reply textsOf)

/-- Every descriptor of a namespace is the record of its series, and `last` ids were given. -/
structure Filed (ks : Keyspace) (ns : Namespace) (last : Nat) : Prop where
  counter : ks.get? (Key.counter ns) = counterEntry last
  bounded : last ≤ maxInt64
  records : ∀ id e, ks.get? (Key.descriptor ⟨ns, id⟩) = some e →
    ∃ m : SeriesMetadata, some e = textEntry (some m.encode) ∧ m.ref = ⟨ns, id⟩ ∧
      1 ≤ id.number.toNat ∧ id.number.toNat ≤ last

/-- The tags of a namespace hold sets. -/
def TagsHoldSets (ks : Keyspace) (ns : Namespace) : Prop :=
  ∀ t, ∃ members, ks.set? (Key.tag ns t) = .ok members

variable {ks ks' last : Keyspace} {ns : Namespace} {required : String} {given : Nat}

theorem filed_empty (ns : Namespace) : Filed .empty ns 0 where
  counter := rfl
  bounded := Nat.zero_le _
  records := fun id e h => by cases h

/-- The number of ids that were given is what the counter says. -/
theorem given_eq {given' : Nat} (same : counterEntry given = counterEntry given') :
    given = given' := by
  unfold counterEntry at same
  have digits : ∀ n n' : Nat, toString (n : Int) = toString (n' : Int) → n = n' := by
    intro n n' same
    have read := @integer?_toString (n : Int) (n + n') (by omega) (by omega)
    rw [same, integer?_toString (by omega) (by omega)] at read
    exact (Int.ofNat.inj (Option.some.inj read)).symm
  by_cases zero : given = 0 <;> by_cases zero' : given' = 0
  · rw [zero, zero']
  · rw [if_pos zero, if_neg zero'] at same
    cases same
  · rw [if_neg zero, if_pos zero'] at same
    cases same
  · rw [if_neg zero, if_neg zero'] at same
    exact digits given given' (textEntry_inj.mp same)

/-- Only the counter and the descriptors matter. -/
theorem Filed.congr (h : Filed ks ns given)
    (counter : ks'.get? (Key.counter ns) = ks.get? (Key.counter ns))
    (records : ∀ id, ks'.get? (Key.descriptor ⟨ns, id⟩) = ks.get? (Key.descriptor ⟨ns, id⟩)) :
    Filed ks' ns given where
  counter := counter.trans h.counter
  bounded := h.bounded
  records := fun id e found => h.records id e ((records id).symm.trans found)

/-- The id that the counter gives next. -/
def nextId (given : Nat) : SeriesId := ⟨UInt64.ofInt ((given : Int) + 1)⟩

theorem nextId_toNat (room : given < maxInt64) : (nextId given).number.toNat = given + 1 := by
  have small : (((given : Int) + 1) % 0x10000000000000000).toNat = given + 1 := by
    have : maxInt64 = 0x7fffffffffffffff := rfl
    omega
  have word : UInt64.ofInt ((given : Int) + 1) = UInt64.ofNat (given + 1) :=
    congrArg UInt64.ofNat small
  have : maxInt64 = 0x7fffffffffffffff := rfl
  show (UInt64.ofInt ((given : Int) + 1)).toNat = given + 1
  rw [word]
  exact UInt64.toNat_ofNat_of_lt' (by rw [UInt64.size]; omega)

/-- The next id is among those that were given then. -/
theorem nextId_counted (room : given < maxInt64) :
    1 ≤ (nextId given).number.toNat ∧ (nextId given).number.toNat ≤ given + 1 := by
  rw [nextId_toNat room]
  omega

/-- The next id has no record yet. -/
theorem Filed.unrecorded (h : Filed ks ns given) (room : given < maxInt64) :
    ks.get? (Key.descriptor ⟨ns, nextId given⟩) = none := by
  cases found : ks.get? (Key.descriptor ⟨ns, nextId given⟩) with
  | none => rfl
  | some e =>
    obtain ⟨_, _, _, _, counted⟩ := h.records _ e found
    rw [nextId_toNat room] at counted
    omega

/-- An attempt at the counter: it is refused, or one more id is given. -/
theorem Filed.increment (h : Filed ks ns given) {reply : Except String Reply}
    (attempt : Attempt required (.increment (Key.counter ns)) ks reply ks') :
    (∃ text, reply = .error text ∧ ks' = ks) ∨
      (reply = .ok (.integer (given + 1)) ∧ given < maxInt64 ∧ Filed ks' ns (given + 1) ∧
        ∀ k : KeyName, k ≠ .counter ns → ks'.get? k.text = ks.get? k.text) := by
  cases attempt with
  | refused text => exact Or.inl ⟨text, rfl, rfl⟩
  | executed run =>
    rw [exec_increment required h.counter h.bounded] at run
    split at run
    · next room =>
      obtain ⟨answer, rfl⟩ := Prod.mk.inj run
      refine Or.inr ⟨answer.symm, room, ⟨get?_incremented h.counter, room, fun id e found => ?_⟩,
        fun k hk => get?_incremented_ne ks _ hk⟩
      have before := @get?_incremented_ne ns ks (.string (toString ((given : Int) + 1)))
        (.descriptor ⟨ns, id⟩) (by simp)
      obtain ⟨m, text, ref, first, counted⟩ := h.records id e (before.symm.trans found)
      exact ⟨m, text, ref, first, Nat.le_succ_of_le counted⟩
    · cases run

/-! ## Registrations -/

/-- An attempt to add a member leaves sets where sets were. -/
theorem set?_addMember {key member key' : String} {reply : Except String Reply}
    (attempt : Attempt required (.addMember key member) ks reply ks')
    (h : ∃ members, ks.set? key' = .ok members) : ∃ members, ks'.set? key' = .ok members := by
  cases attempt with
  | refused text => exact h
  | executed run =>
    simp only [Server.exec] at run
    split at run
    · cases run
    · next members found =>
      split at run
      · obtain ⟨_, rfl⟩ := Prod.mk.inj run
        exact h
      · obtain ⟨_, rfl⟩ := Prod.mk.inj run
        by_cases same : key = key'
        · subst same
          exact ⟨_, set?_setValue _ _ _⟩
        · obtain ⟨others, hothers⟩ := h
          refine ⟨others, (set?_congr ?_).trans hothers⟩
          rw [Server.Keyspace.get?_setValue, if_neg same]

/-- What commands of a registration have done: whether the name and the descriptor were set, and which
texts were. -/
structure Entered (m : SeriesMetadata) (ks : Keyspace) (named described : Bool) (last : Keyspace)
    (set : List (String × String)) : Prop where
  name : last.get? (Key.name m.ns m.name) =
    if named then textEntry (some (toString m.id)) else ks.get? (Key.name m.ns m.name)
  descriptor : last.get? (Key.descriptor m.ref) =
    if described then textEntry (some m.encode) else ks.get? (Key.descriptor m.ref)
  tags : TagsHoldSets ks m.ns → TagsHoldSets last m.ns
  others : ∀ k : KeyName, k ≠ .name m.ns m.name → k ≠ .descriptor m.ref →
    (∀ t, k ≠ .tag m.ns t) → last.get? k.text = ks.get? k.text
  set : set = (if named then [(Key.name m.ns m.name, toString m.id)] else []) ++
    if described then [(Key.descriptor m.ref, m.encode)] else []

namespace Entered

variable {m : SeriesMetadata} {named described : Bool} {set : List (String × String)}
  {reply : Except String Reply}

theorem start (m : SeriesMetadata) (ks : Keyspace) : Entered m ks false false ks [] where
  name := rfl
  descriptor := rfl
  tags := id
  others := fun _ _ _ _ => rfl
  set := rfl

theorem setName (h : Entered m ks false false ks' set)
    (attempt : Attempt required (.set (Key.name m.ns m.name) (toString m.id)) ks' reply last) :
    Entered m ks reply.isOk false last
      (set ++ (LogEntry.command (.set (Key.name m.ns m.name) (toString m.id)) reply).text?.toList) := by
  cases attempt with
  | refused text => exact ⟨h.name, h.descriptor, h.tags, h.others, by rw [h.set]; rfl⟩
  | executed run =>
    obtain ⟨_, rfl⟩ := Prod.mk.inj run
    have apart : ∀ k : KeyName, k ≠ .name m.ns m.name →
        (ks'.insert (Key.name m.ns m.name) { value := .string (toString m.id) }).get? k.text =
          ks'.get? k.text := fun k hk => by
      have other : Key.name m.ns m.name ≠ k.text := KeyName.text_ne (k := .name _ _) hk.symm
      rw [Table.get?_insert, if_neg other]
    refine ⟨?_, (apart (.descriptor m.ref) (by simp)).trans h.descriptor, fun sets t => ?_,
      fun k hn hd ht => (apart k hn).trans (h.others k hn hd ht), by rw [h.set]; rfl⟩
    · rw [Table.get?_insert, if_pos rfl]
      rfl
    · obtain ⟨members, found⟩ := h.tags sets t
      exact ⟨members, (set?_congr (apart (.tag m.ns t) (by simp))).trans found⟩

theorem setDescriptor (h : Entered m ks named false ks' set)
    (attempt : Attempt required (.set (Key.descriptor m.ref) m.encode) ks' reply last) :
    Entered m ks named reply.isOk last
      (set ++ (LogEntry.command (.set (Key.descriptor m.ref) m.encode) reply).text?.toList) := by
  cases attempt with
  | refused text =>
    exact ⟨h.name, h.descriptor, h.tags, h.others, by rw [h.set, List.append_assoc]; rfl⟩
  | executed run =>
    obtain ⟨_, rfl⟩ := Prod.mk.inj run
    have apart : ∀ k : KeyName, k ≠ .descriptor m.ref →
        (ks'.insert (Key.descriptor m.ref) { value := .string m.encode }).get? k.text =
          ks'.get? k.text := fun k hk => by
      have other : Key.descriptor m.ref ≠ k.text := KeyName.text_ne (k := .descriptor _) hk.symm
      rw [Table.get?_insert, if_neg other]
    refine ⟨(apart (.name m.ns m.name) (by simp)).trans h.name, ?_, fun sets t => ?_,
      fun k hn hd ht => (apart k hd).trans (h.others k hn hd ht), by
        rw [h.set, List.append_assoc]; rfl⟩
    · rw [Table.get?_insert, if_pos rfl]
      rfl
    · obtain ⟨members, found⟩ := h.tags sets t
      exact ⟨members, (set?_congr (apart (.tag m.ns t) (by simp))).trans found⟩

theorem addTags (h : Entered m ks named described ks' set) {tags : List String} {n : Nat}
    {replies : List (Except String Reply)}
    (attempts : Attempts required
      ((tags.map fun t => Command.addMember (Key.tag m.ns t) (toString m.id)).take n) ks' replies
      last) : Entered m ks named described last set := by
  have apart : ∀ k : KeyName, (∀ t, k ≠ .tag m.ns t) → last.get? k.text = ks'.get? k.text := by
    intro k hk
    refine attempts.get?_eq fun command inside => ?_
    obtain ⟨t, _, rfl⟩ := List.mem_map.mp (List.mem_of_mem_take inside)
    exact KeyName.text_ne (k := .tag m.ns t) (hk t).symm
  refine ⟨(apart (.name m.ns m.name) (by simp)).trans h.name,
    (apart (.descriptor m.ref) (by simp)).trans h.descriptor, fun sets => ?_,
    fun k hn hd ht => (apart k ht).trans (h.others k hn hd ht), h.set⟩
  refine attempts.preserves (P := fun ks => TagsHoldSets ks m.ns) ?_ (h.tags sets)
  intro command inside ks₁ reply ks₂ attempt kept t
  obtain ⟨t', _, rfl⟩ := List.mem_map.mp (List.mem_of_mem_take inside)
  exact set?_addMember attempt (kept t)

end Entered

/-- Adding members sets no text. -/
theorem textsOf_addMembers (keys : List String) (member : String) (n : Nat)
    (replies : List (Except String Reply)) :
    textsOf ((keys.map fun key => Command.addMember key member).take n) replies = [] := by
  unfold textsOf
  rw [List.filterMap_eq_nil_iff]
  rintro ⟨command, reply⟩ inside
  obtain ⟨key, _, rfl⟩ := List.mem_map.mp (List.mem_of_mem_take (List.of_mem_zip inside).1)
  rfl

theorem commands_registration (m : SeriesMetadata) :
    (registration m).map (·.command) =
      .set (Key.name m.ns m.name) (toString m.id) :: .set (Key.descriptor m.ref) m.encode ::
        m.tags.map fun t => .addMember (Key.tag m.ns t) (toString m.id) := by
  simp [registration, StagedCommand.unchecked, Function.comp_def]

/-- **Attempts at a registration** set the name or not, and the descriptor or not; both are set if all
commands are executed. -/
theorem entered {m : SeriesMetadata} {n : Nat} {replies : List (Except String Reply)}
    (attempts : Attempts required (((registration m).map (·.command)).take n) ks replies last) :
    ∃ named described, Entered m ks named described last
        (textsOf (((registration m).map (·.command)).take n) replies) ∧
      (((registration m).map (·.command)).length ≤ n → (∀ reply ∈ replies, ∃ a, reply = .ok a) →
        named = true ∧ described = true) := by
  rw [commands_registration] at attempts ⊢
  match n with
  | 0 =>
    cases attempts
    exact ⟨false, false, .start m _, fun full => by cases full⟩
  | 1 =>
    cases attempts with
    | @step _ _ _ _ _ reply _ first none =>
      cases none
      have named := (Entered.start m ks).setName first
      rw [List.nil_append, ← Server.textsOf_one] at named
      exact ⟨reply.isOk, false, named, fun full => by simp at full⟩
  | n + 2 =>
    cases attempts with
    | @step _ _ _ _ _ reply _ first rest =>
      cases rest with
      | @step _ _ _ _ _ reply' replies second others =>
        have silent := textsOf_addMembers (m.tags.map (Key.tag m.ns)) (toString m.id) n replies
        rw [List.map_map] at silent
        have entered := (((Entered.start m ks).setName first).setDescriptor second).addTags others
        refine ⟨reply.isOk, reply'.isOk, ?_, fun _ all => ⟨?_, ?_⟩⟩
        · rw [List.take_succ_cons, List.take_succ_cons, Server.textsOf_cons, Server.textsOf_cons,
            show (fun t => Command.addMember (Key.tag m.ns t) (toString m.id)) =
              (fun key => Command.addMember key (toString m.id)) ∘ Key.tag m.ns from rfl, silent,
            List.append_nil]
          exact entered
        · obtain ⟨a, rfl⟩ := all _ List.mem_cons_self
          rfl
        · obtain ⟨a, rfl⟩ := all _ (List.mem_cons_of_mem _ List.mem_cons_self)
          rfl

/-- Where nothing is refused the commands of a registration set the name and the descriptor, whatever
becomes of its tags. -/
theorem entered_execAll (required : String) (m : SeriesMetadata) (ks : Keyspace) :
    ∃ set, Entered m ks true true
      (Server.execAll (Server.exec required) ((registration m).map (·.command)) ks).2 set := by
  rw [commands_registration]
  have named := (Entered.start m ks).setName
    (Server.attempt_exec required (.set (Key.name m.ns m.name) (toString m.id)) ks)
  have described := named.setDescriptor
    (Server.attempt_exec required (.set (Key.descriptor m.ref) m.encode) _)
  obtain ⟨replies, attempts⟩ : ∃ replies, Attempts required
      ((m.tags.map fun t => Command.addMember (Key.tag m.ns t) (toString m.id)).take m.tags.length)
      ((ks.insert (Key.name m.ns m.name) { value := .string (toString m.id) }).insert
        (Key.descriptor m.ref) { value := .string m.encode }) replies
      (Server.execAll (Server.exec required)
        (m.tags.map fun t => .addMember (Key.tag m.ns t) (toString m.id)) _).2 := by
    rw [List.take_of_length_le (by simp)]
    exact ⟨_, Server.attempts_execAll _ _ _⟩
  exact ⟨_, described.addTags attempts⟩

/-- A registration files the descriptor under an id that was given. -/
theorem Entered.filed {m : SeriesMetadata} {named described : Bool} {set : List (String × String)}
    (h : Entered m ks named described last set) (filed : Filed ks ns given)
    (counted : m.ns = ns → 1 ≤ m.id.number.toNat ∧ m.id.number.toNat ≤ given) :
    Filed last ns given where
  counter := (h.others (.counter ns) (by simp) (by simp) (by simp)).trans filed.counter
  bounded := filed.bounded
  records := by
    intro id e found
    by_cases same : (⟨ns, id⟩ : SeriesRef) = m.ref
    · rw [same, h.descriptor] at found
      split at found
      · obtain ⟨rfl, rfl⟩ := SeriesRef.mk.inj same
        exact ⟨m, found.symm, rfl, counted rfl⟩
      · rw [← same] at found
        exact filed.records id e found
    · have kept := h.others (.descriptor ⟨ns, id⟩) (by simp) (by simpa using same) (by simp)
      exact filed.records id e (kept.symm.trans found)

end Remote

end SeriesStorage
