import SeriesStorage.Proofs.Remote.Sent
import SeriesStorage.Proofs.Remote.UsableNames

/-!
# What a creation batch enters

Commands of a creation batch may be refused.  Then the batch fails, but for the series that it was
about to create it has entered all series before it completely (`EnteredFully`), and of that one
nothing, or the record without the name, or the name without the record (`EnteredHalf`).

* `leads_createFrom`: one of the two is the case after a batch.
-/

namespace SeriesStorage

namespace Remote

open Server (Keyspace Rehearsal Stage texts)

/-! ## What a batch has done so far -/

/-- Since a site series were entered completely, or not at all. -/
structure EnteredFully (start site : Site Stage) : Prop where
  undisturbed : site.world.Undisturbed
  usable : ∀ r ∈ site.world.servers, Usable r.keyspace
  connections : site.client.connections = start.client.connections
  cache : ∀ ref m, site.client.cache.get? ref = some m → start.client.cache.get? ref = some m
  kept : ∀ ref m, Matched start ref m → Matched site ref m
  set : ∃ set, texts site.world.log = texts start.world.log ++ set ∧ Completed set ∧
    ∀ server ref text, (server, Key.descriptor ref, text) ∈ set → ∃ r e,
      site.world.servers[server]? = some r ∧ r.keyspace.get? (Key.descriptor ref) = some e

/-- Since a site a name was set and its record was not. -/
structure EnteredHalf (start site : Site Stage) : Prop where
  set : ∃ set, texts site.world.log = texts start.world.log ++ set ∧ ¬ Completed set
  dangling : ∃ r ∈ site.world.servers, ∃ ns, ¬ NamesRefer r.keyspace ns

theorem EnteredFully.refl {site : Site Stage} (undisturbed : site.world.Undisturbed)
    (usable : ∀ r ∈ site.world.servers, Usable r.keyspace) : EnteredFully site site where
  undisturbed := undisturbed
  usable := usable
  connections := rfl
  cache := fun _ _ found => found
  kept := fun _ _ matched => matched
  set := ⟨[], (List.append_nil _).symm, completed_nil, fun _ _ _ inside => by cases inside⟩

section CreateTried

variable {now : UInt64} {input : SeriesInput} {given : Nat} {client : Client} {ks : Keyspace}
  {answer : Except Error (SeriesId × Bool)} {client' : Client} {ks' : Keyspace}
  {set : List (String × String)}

/-- A record that was set is there. -/
theorem CreateTried.recorded (h : CreateTried now input given client ks answer client' ks' set)
    {ref : SeriesRef} {text : String} (inside : (Key.descriptor ref, text) ∈ set) :
    ∃ e, ks'.get? (Key.descriptor ref) = some e := by
  cases h with
  | found _ _ _ => cases inside
  | failed _ _ _ => cases inside
  | entered _ _ _ _ entered aside _ =>
    rw [entered.set] at inside
    rcases List.mem_append.mp inside with name | descriptor
    · split at name
      · simp only [List.mem_singleton, Prod.mk.injEq] at name
        exact absurd name.1.symm (name_ne_descriptor _ ref)
      · cases name
    · split at descriptor
      · next described =>
        simp only [List.mem_singleton, Prod.mk.injEq] at descriptor
        obtain rfl := KeyName.descriptor.inj <|
          (@KeyName.text_inj (.descriptor ref) (.descriptor _)).mp descriptor.1
        have there := entered.descriptor
        rw [if_pos described] at there
        exact ⟨_, (aside (.descriptor _) (by simp)).trans there⟩
      · cases descriptor

/-- The id that is answered has a record. -/
theorem CreateTried.answered (h : CreateTried now input given client ks answer client' ks' set)
    (filed : Filed ks input.ns given) (refer : NamesRefer ks input.ns) {id : SeriesId}
    {isNew : Bool} (ok : answer = .ok (id, isNew)) : ∃ m, HoldsRecord ks' ⟨input.ns, id⟩ m := by
  have kept : ∀ ref e, ks.get? (Key.descriptor ref) = some e →
      ks'.get? (Key.descriptor ref) = some e := fun ref e found => h.records filed found
  cases h with
  | @found text id' _ name word aside =>
    obtain ⟨rfl, rfl⟩ := Prod.mk.inj (Except.ok.inj ok)
    obtain ⟨_, m, record, _⟩ := refer.named name word
    obtain ⟨e, found⟩ := record.get?
    exact ⟨m, record.congr ((kept _ e found).trans found.symm)⟩
  | failed _ _ _ => cases ok
  | @entered _ _ named described counted after _ _ _ _ _ _ entered aside ended =>
    obtain ⟨answered, _, rfl, _⟩ | ⟨⟨e, failed⟩, _⟩ := ended
    · obtain ⟨rfl, rfl⟩ := Prod.mk.inj (Except.ok.inj (answered.symm.trans ok))
      let m := input.describe (nextId given) now
      have there : ks'.get? (Key.descriptor m.ref) = textEntry (some m.encode) :=
        (aside (.descriptor m.ref) (by simp)).trans entered.descriptor
      exact ⟨m, m.encode, string?_eq there, m.decode_encode, rfl⟩
    · rw [failed] at ok
      cases ok

end CreateTried

/-! ## One series -/

/-- At a server a series was entered completely, or not at all. -/
structure Entire (server : Nat) (before : Client) (ks : Keyspace) (client : Client) (ks' : Keyspace)
    (set : List (String × String)) : Prop where
  forgets : Forgets before client
  leaves : Leaves Nobody ks ks'
  usable : Usable ks'
  completed : Completed (set.map (server, ·))
  recorded : ∀ ref text, (Key.descriptor ref, text) ∈ set →
    ∃ e, ks'.get? (Key.descriptor ref) = some e

/-- A series is entered completely, or not at all, or the call fails with half of it. -/
theorem CreateTried.entire_or_halved {now : UInt64} {input : SeriesInput} {given : Nat}
    {client client' : Client} {ks ks' : Keyspace} {answer : Except Error (SeriesId × Bool)}
    {set : List (String × String)}
    (h : CreateTried now input given client ks answer client' ks' set)
    (filed : Filed ks input.ns given) (usable : Usable ks) (server : Nat) :
    (Entire server client ks client' ks' set ∧
        ∀ id isNew, answer = .ok (id, isNew) → ∃ m, HoldsRecord ks' ⟨input.ns, id⟩ m) ∨
      (answer.isOk = false ∧ Halved input given ks ks' set) := by
  refine (h.usable_or_halved filed usable server).imp_left fun ⟨usable', completed⟩ => ?_
  exact ⟨⟨h.forgets, h.leaves filed, usable', completed, fun _ _ => h.recorded⟩,
    fun _ _ => h.answered filed (usable.names input.ns)⟩

section One

variable {start site site' : Site Stage} {connections : Connections} {server : Nat}
  {password : String} {r : Rehearsal} {input : SeriesInput} {given : Nat}

/-- One more series is entered completely, or not at all. -/
theorem EnteredFully.entire (h : EnteredFully start site)
    (found : site.world.servers[server]? = some r)
    (entire : OnServer site server password (Entire server site.client r.keyspace) site') :
    EnteredFully start site' := by
  have moved : Moved Nobody site.world site'.world := entire.moved found fun _ _ _ h => h.leaves
  obtain ⟨r', more, found', _, log, here⟩ := entire.here
  obtain ⟨set, log', completed, recorded⟩ := h.set
  rw [log', List.append_assoc] at log
  refine ⟨entire.undisturbed, fun r'' inside => ?_, here.forgets.connections.trans h.connections,
    fun ref m cached => h.cache ref m (here.forgets.cache ref m cached), fun ref m matched => ?_,
    set ++ more.map _, log, completed.append here.completed, fun server' ref text inside => ?_⟩
  · obtain ⟨i, hi⟩ := List.mem_iff_getElem?.mp inside
    by_cases here' : i = server
    · subst here'
      obtain rfl := Option.some.inj (found'.symm.trans hi)
      exact here.usable
    · exact h.usable r'' (List.mem_of_getElem? ((entire.others i here').symm.trans hi))
  · exact ((h.kept ref m matched).moved moved here.forgets.connections).resolve_right
      fun gone => gone.1
  · rcases List.mem_append.mp inside with old | new
    · obtain ⟨r₁, e, there, record⟩ := recorded server' ref text old
      obtain same | ⟨r₂, r₃, hr₂, hr₃, leaves⟩ := moved server'
      · exact ⟨r₁, e, same.trans there, record⟩
      · obtain rfl := Option.some.inj (there.symm.trans hr₂)
        exact ⟨r₃, e, hr₃, (leaves.records ref e record).resolve_right fun gone => gone.1⟩
    · obtain ⟨⟨key, text'⟩, member, same⟩ := List.mem_map.mp new
      obtain ⟨rfl, rfl, rfl⟩ : server = server' ∧ key = Key.descriptor ref ∧ text' = text := by
        simpa using same
      obtain ⟨e, record⟩ := here.recorded ref _ member
      exact ⟨r', e, found', record⟩

/-- One more series has its name and not its record. -/
theorem EnteredFully.half (h : EnteredFully start site)
    (found : site.world.servers[server]? = some r)
    (half : OnServer site server password (fun _ ks' set => Halved input given r.keyspace ks' set)
      site') : EnteredHalf start site' := by
  obtain ⟨r', more, found', _, log, here⟩ := half.here
  obtain ⟨set, log', _, recorded⟩ := h.set
  rw [log', List.append_assoc] at log
  refine ⟨⟨_, log, fun complete => ?_⟩, r', List.mem_of_getElem? found', input.ns, here.dangling⟩
  rw [here.set] at complete
  obtain ⟨text, inside⟩ := complete server input.ns input.name (nextId given)
    (List.mem_append_right _ (List.mem_singleton.mpr rfl))
  rcases List.mem_append.mp inside with old | new
  · -- the id is new, so its record was not set before
    obtain ⟨r₁, e, there, record⟩ := recorded _ _ _ old
    obtain rfl := Option.some.inj (found.symm.trans there)
    rw [here.unrecorded] at record
    cases record
  · have same := List.mem_singleton.mp new
    simp only [Prod.mk.injEq] at same
    exact name_ne_descriptor _ _ same.2.1.symm

/-- Finding or creating one series enters it completely, or not at all, or fails with half of it. -/
theorem EnteredFully.createOne (h : EnteredFully start site)
    (own : site.client.connections = some connections) (now : UInt64) (chance : LockChance)
    (input : SeriesInput) :
    let outcome := site.outcome (createOne connections now chance input)
    (EnteredFully start outcome.state ∧
        ∀ id isNew, outcome.answer = .ok (id, isNew) →
          ∃ m, Matched outcome.state ⟨input.ns, id⟩ m) ∨
      (outcome.answer.isOk = false ∧ EnteredHalf start outcome.state) := by
  obtain ⟨c, r, route, found⟩ | unserved := served_or_unserved site.world connections input.ns
  · have usable := h.usable r (List.mem_of_getElem? found)
    obtain ⟨given, filed⟩ := usable.filed input.ns
    have tried := OnServer.createOne now site.client route filed chance site
      (.start_self h.undisturbed found ⟨rfl, rfl, rfl⟩)
    obtain entered | half := OnServer.of_or <| tried.imp fun _ _ _ created =>
      created.entire_or_halved filed usable c.server
    · refine Or.inl ⟨h.entire found (entered.imp fun _ _ _ h => h.1), fun id isNew ok => ?_⟩
      obtain ⟨r', _, found', _, _, entire, answered⟩ := entered.here
      obtain ⟨m, record⟩ := answered id isNew ok
      exact ⟨m, r'.keyspace,
        ⟨connections, c, r', entire.forgets.connections.trans own, route, found', rfl⟩, record⟩
    · obtain ⟨_, _, _, _, _, failed, _⟩ := half.here
      exact Or.inr ⟨failed, h.half found (half.imp fun _ _ _ h => h.2)⟩
  · obtain ⟨e, failed⟩ := unserved.createOne now chance
    dsimp only
    rw [failed]
    exact Or.inl ⟨h, fun id isNew ok => by cases ok⟩

end One

/-! ## A batch -/

section Batch

variable {start site : Site Stage} {connections : Connections}

/-- What a task that creates series may leave. -/
def EnteredOrHalf {α : Type} (start : Site Stage) (answer : Except Error α) (site : Site Stage) :
    Prop :=
  EnteredFully start site ∨ (answer.isOk = false ∧ EnteredHalf start site)

/-- **A batch** enters its series completely, or not at all, or fails with half of one. -/
theorem leads_createFrom (own : start.client.connections = some connections) (now : UInt64)
    (chances : LockChances) (i : Nat) (batch : CreateBatch) :
    Leads (EnteredFully start) (createFrom connections now chances i batch)
      (EnteredOrHalf start) := by
  induction batch generalizing i with
  | nil => exact Leads.pure fun site h => Or.inl h
  | cons entry rest ih =>
    have first : Leads (EnteredFully start) (createOne connections now (chances i) entry.2)
        (EnteredOrHalf start) := fun site h =>
      (h.createOne (h.connections.trans own) now (chances i) entry.2).imp_left And.left
    have failed : ∀ {α β : Type} (e : Error) (site : Site Stage),
        EnteredOrHalf start (.error e : Except Error α) site →
        EnteredOrHalf start (.error e : Except Error β) site := fun _ _ h => h
    have entered : ∀ {α : Type} (a : α) (site : Site Stage),
        EnteredOrHalf start (.ok a : Except Error α) site → EnteredFully start site :=
      fun a site h => h.resolve_right fun half => by cases half.1
    refine first.bind failed fun created => ?_
    exact Leads.bind ((ih (i + 1)).weaken (entered created)) failed fun rows =>
      Leads.pure fun site h => Or.inl (entered rows site h)

end Batch

end Remote

end SeriesStorage
