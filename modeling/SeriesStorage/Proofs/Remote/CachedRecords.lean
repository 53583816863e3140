import SeriesStorage.Proofs.Deployment.Visits
import SeriesStorage.Proofs.Remote.CoherentKeys
import SeriesStorage.Proofs.Remote.TriedCreation

/-!
# Cached descriptors and their records

A cached descriptor is matched if the server of its namespace holds the record of its series.  While
a call goes on, commands may be refused, and a record may have gone before the cache forgets it.

* `Leaves`: what a command leaves of records; only removals and flushes lose some.
* `Intact`: what holds between the commands of one call; it is kept by whatever moves keys and lets
  the cache forget descriptors.
-/

namespace SeriesStorage

namespace Remote

open Server (Attempt Command Keyspace Rehearsal Reply Request Stage)

/-! ## Records on servers -/

/-- The keys of the server of a namespace. -/
def Serves (site : Site Stage) (ns : Namespace) (ks : Keyspace) : Prop :=
  ∃ connections c r, site.client.connections = some connections ∧ connections.route ns = .ok c ∧
    site.world.servers[c.server]? = some r ∧ r.keyspace = ks

/-- The server of its namespace holds this record of a series. -/
def Matched (site : Site Stage) (ref : SeriesRef) (m : SeriesMetadata) : Prop :=
  ∃ ks, Serves site ref.ns ks ∧ HoldsRecord ks ref m

/-- The server of its namespace holds no record of a series. -/
def Lost (site : Site Stage) (ref : SeriesRef) : Prop :=
  ∀ ks, Serves site ref.ns ks → ks.get? (Key.descriptor ref) = none

theorem Serves.unique {site : Site Stage} {ns : Namespace} {ks ks' : Keyspace}
    (h : Serves site ns ks) (h' : Serves site ns ks') : ks = ks' := by
  obtain ⟨connections, c, r, own, route, found, rfl⟩ := h
  obtain ⟨connections', c', r', own', route', found', rfl⟩ := h'
  obtain rfl := Option.some.inj (own.symm.trans own')
  obtain rfl := Except.ok.inj (route.symm.trans route')
  rw [Option.some.inj (found.symm.trans found')]

theorem HoldsRecord.get? {ks : Keyspace} {ref : SeriesRef} {m : SeriesMetadata}
    (h : HoldsRecord ks ref m) : ∃ e, ks.get? (Key.descriptor ref) = some e := by
  obtain ⟨text, found, _⟩ := h
  unfold Keyspace.string? at found
  split at found
  · cases found
  · exact ⟨_, by assumption⟩
  · cases found

theorem HoldsRecord.unique {ks : Keyspace} {ref : SeriesRef} {m m' : SeriesMetadata}
    (h : HoldsRecord ks ref m) (h' : HoldsRecord ks ref m') : m = m' := by
  obtain ⟨text, found, decoded, _⟩ := h
  obtain ⟨text', found', decoded', _⟩ := h'
  obtain rfl := Option.some.inj (Except.ok.inj (found.symm.trans found'))
  exact Except.ok.inj (decoded.symm.trans decoded')

theorem HoldsRecord.congr {ks ks' : Keyspace} {ref : SeriesRef} {m : SeriesMetadata}
    (h : HoldsRecord ks ref m)
    (same : ks'.get? (Key.descriptor ref) = ks.get? (Key.descriptor ref)) :
    HoldsRecord ks' ref m := by
  obtain ⟨text, found, rest⟩ := h
  exact ⟨text, (string?_congr same).trans found, rest⟩

theorem Lost.not_matched {site : Site Stage} {ref : SeriesRef} (h : Lost site ref)
    (m : SeriesMetadata) : ¬ Matched site ref m := by
  rintro ⟨ks, serves, record⟩
  obtain ⟨e, found⟩ := record.get?
  rw [h ks serves] at found
  cases found

/-- A descriptor that is there is the record of its series. -/
theorem Filed.holdsRecord {ks : Keyspace} {ref : SeriesRef} {given : Nat}
    (h : Filed ks ref.ns given) {text : String}
    (found : ks.string? (Key.descriptor ref) = .ok (some text)) {m : SeriesMetadata}
    (decoded : SeriesMetadata.decode text = .ok m) : HoldsRecord ks ref m := by
  refine ⟨text, found, decoded, ?_⟩
  unfold Keyspace.string? at found
  split at found
  · cases found
  · next there =>
    obtain rfl := Option.some.inj (Except.ok.inj found)
    obtain ⟨m', entry, same, _⟩ := h.records ref.id _ there
    have text := congrArg (Option.map Server.Entry.value) entry
    simp only [textEntry, Option.map_some, Option.some.injEq, Server.Value.string.injEq] at text
    rw [text, m'.decode_encode] at decoded
    rw [← Except.ok.inj decoded]
    exact same
  · cases found

/-! ## What commands leave of records -/

/-- Keys stay filed, and of the records only those of some series go. -/
structure Leaves (gone : SeriesRef → Prop) (ks ks' : Keyspace) : Prop where
  filed : ∀ ns given, Filed ks ns given → ∃ given', Filed ks' ns given'
  records : ∀ ref e, ks.get? (Key.descriptor ref) = some e →
    ks'.get? (Key.descriptor ref) = some e ∨ (gone ref ∧ ks'.get? (Key.descriptor ref) = none)
  lost : ∀ ref, gone ref → ks.get? (Key.descriptor ref) = none →
    ks'.get? (Key.descriptor ref) = none

namespace Leaves

variable {gone : SeriesRef → Prop} {ks ks' last : Keyspace}

theorem refl (gone : SeriesRef → Prop) (ks : Keyspace) : Leaves gone ks ks :=
  ⟨fun _ given h => ⟨given, h⟩, fun _ _ found => Or.inl found, fun _ _ missing => missing⟩

theorem trans (h : Leaves gone ks ks') (h' : Leaves gone ks' last) : Leaves gone ks last where
  filed := fun ns given filed => by
    obtain ⟨given', filed'⟩ := h.filed ns given filed
    exact h'.filed ns given' filed'
  records := by
    intro ref e found
    rcases h.records ref e found with kept | ⟨removed, missing⟩
    · exact h'.records ref e kept
    · exact Or.inr ⟨removed, h'.lost ref removed missing⟩
  lost := fun ref removed missing => h'.lost ref removed (h.lost ref removed missing)

/-- Descriptors and counters are as they were. -/
theorem of_same (counters : ∀ ns, ks'.get? (Key.counter ns) = ks.get? (Key.counter ns))
    (descriptors : ∀ ref, ks'.get? (Key.descriptor ref) = ks.get? (Key.descriptor ref)) :
    Leaves gone ks ks' where
  filed := fun ns given filed =>
    ⟨given, filed.congr (counters ns) fun id => descriptors ⟨ns, id⟩⟩
  records := fun ref _ found => Or.inl ((descriptors ref).trans found)
  lost := fun ref _ missing => (descriptors ref).trans missing

end Leaves

/-- A command that changes no descriptor and no counter. -/
structure Quiet (command : Command) : Prop where
  counters : ∀ ns, ¬ command.Changes (Key.counter ns)
  descriptors : ∀ ref, ¬ command.Changes (Key.descriptor ref)

theorem OnPoints.quiet {command : Command} (h : OnPoints command) : Quiet command :=
  ⟨fun ns => h (.counter ns) (by simp), fun ref => h (.descriptor ref) (by simp)⟩

theorem quiet_of_keyless {command : Command} (h : ∀ key, ¬ command.Changes key) : Quiet command :=
  ⟨fun _ => h _, fun _ => h _⟩

section Attempts

variable {gone : SeriesRef → Prop} {required : String} {ks ks' : Keyspace}
  {reply : Except String Reply}

theorem Quiet.leaves {command : Command} (h : Quiet command)
    (attempt : Attempt required command ks reply ks') : Leaves gone ks ks' :=
  .of_same (fun ns => attempt.get?_eq (h.counters ns)) fun ref =>
    attempt.get?_eq (h.descriptors ref)

/-- An attempt to remove a series. -/
theorem leaves_removal {m : SeriesMetadata} {staged : StagedCommand} (inside : staged ∈ removal m)
    (removed : gone m.ref) (attempt : Attempt required staged.command ks reply ks') :
    Leaves gone ks ks' := by
  rcases List.mem_cons.mp inside with rfl | inside
  · cases attempt with
    | refused text => exact .refl _ _
    | executed run =>
      obtain ⟨_, rfl⟩ := Prod.mk.inj run
      have kept : ∀ k : KeyName, k ≠ .name m.ns m.name → k ≠ .descriptor m.ref →
          ([Key.name m.ns m.name, Key.descriptor m.ref].foldl Table.erase ks).get? k.text =
            ks.get? k.text := by
        intro k hn hd
        have apart : k.text ≠ Key.name m.ns m.name := @KeyName.text_ne k (.name _ _) hn
        have apart' : k.text ≠ Key.descriptor m.ref := @KeyName.text_ne k (.descriptor _) hd
        rw [Server.get?_erase_all, if_neg (by simp [apart, apart'])]
      have erased : ([Key.name m.ns m.name, Key.descriptor m.ref].foldl Table.erase ks).get?
          (Key.descriptor m.ref) = none := by
        rw [Server.get?_erase_all, if_pos (by simp)]
      refine ⟨fun ns given filed => ⟨given, ?_, filed.bounded, fun id e found => ?_⟩,
        fun ref e found => ?_, fun ref _ missing => ?_⟩
      · exact (kept (.counter ns) (by simp) (by simp)).trans filed.counter
      · by_cases same : (⟨ns, id⟩ : SeriesRef) = m.ref
        · rw [same, erased] at found
          cases found
        · exact filed.records id e
            ((kept (.descriptor ⟨ns, id⟩) (by simp) (by simpa using same)).symm.trans found)
      · by_cases same : ref = m.ref
        · subst same
          exact Or.inr ⟨removed, erased⟩
        · exact Or.inl ((kept (.descriptor ref) (by simp) (by simpa using same)).trans found)
      · by_cases same : ref = m.ref
        · subst same
          exact erased
        · exact (kept (.descriptor ref) (by simp) (by simpa using same)).trans missing
  · obtain ⟨t, _, rfl⟩ := List.mem_map.mp inside
    have quiet : Quiet (.removeMember (Key.tag m.ns t) (toString m.id)) :=
      ⟨fun ns => @KeyName.text_ne (.tag m.ns t) (.counter ns) (by simp),
        fun ref => @KeyName.text_ne (.tag m.ns t) (.descriptor ref) (by simp)⟩
    exact quiet.leaves attempt

/-- An attempt to clear a server. -/
theorem leaves_flush (attempt : Attempt required .flush ks reply ks') :
    Leaves (fun _ => True) ks ks' := by
  cases attempt with
  | refused text => exact .refl _ _
  | executed run =>
    obtain ⟨_, rfl⟩ := Prod.mk.inj run
    exact ⟨fun ns _ _ => ⟨0, filed_empty ns⟩, fun ref e _ => Or.inr ⟨trivial, rfl⟩,
      fun _ _ _ => rfl⟩

end Attempts

theorem CreateTried.leaves {now : UInt64} {input : SeriesInput} {given : Nat} {client : Client}
    {ks : Keyspace} {answer : Except Error (SeriesId × Bool)} {client' : Client} {ks' : Keyspace}
    {set : List (String × String)}
    (h : CreateTried now input given client ks answer client' ks' set)
    (filed : Filed ks input.ns given) : Leaves (fun _ => False) ks ks' :=
  ⟨fun _ _ there => h.filed there, fun _ _ found => Or.inl (h.records filed found),
    fun _ none _ => none.elim⟩

/-! ## Between the commands of a call -/

/-- No series is affected. -/
abbrev Nobody : SeriesRef → Prop := fun _ => False

/-- Every cached descriptor is matched by its record, but for those that are stale, and for those
whose record has just gone. -/
structure Intact (stale gone : SeriesRef → Prop) (site : Site Stage) : Prop where
  undisturbed : site.world.Undisturbed
  filed : ∀ r ∈ site.world.servers, ∀ ns, ∃ given, Filed r.keyspace ns given
  staged : PointsOnly site.client.pending
  cached : ∀ ref m, site.client.cache.get? ref = some m →
    stale ref ∨ Matched site ref m ∨ (gone ref ∧ Lost site ref)

/-- Keys of servers are left as they were, but for records of some series. -/
def Moved (gone : SeriesRef → Prop) (stage stage' : Stage) : Prop :=
  ∀ i : Nat, stage'.servers[i]? = stage.servers[i]? ∨ ∃ r r' : Rehearsal,
    stage.servers[i]? = some r ∧ stage'.servers[i]? = some r' ∧ Leaves gone r.keyspace r'.keyspace

variable {gone : SeriesRef → Prop} {site site' : Site Stage} {ns : Namespace} {ks ks' : Keyspace}

/-- The server that serves a namespace still does. -/
theorem Serves.moved (h : Serves site ns ks) (moved : Moved gone site.world site'.world)
    (connections : site'.client.connections = site.client.connections) :
    ∃ ks', Serves site' ns ks' ∧ Leaves gone ks ks' := by
  obtain ⟨others, c, r, own, route, found, rfl⟩ := h
  rw [← connections] at own
  obtain same | ⟨r'', r', hr, hr', leaves⟩ := moved c.server
  · exact ⟨_, ⟨others, c, r, own, route, same.trans found, rfl⟩, .refl _ _⟩
  · obtain rfl := Option.some.inj (hr.symm.trans found)
    exact ⟨_, ⟨others, c, r', own, route, hr', rfl⟩, leaves⟩

/-- The server that serves a namespace already did. -/
theorem Serves.before (h : Serves site' ns ks') (moved : Moved gone site.world site'.world)
    (connections : site'.client.connections = site.client.connections) :
    ∃ ks, Serves site ns ks ∧ Leaves gone ks ks' := by
  obtain ⟨others, c, r', own, route, found, rfl⟩ := h
  rw [connections] at own
  obtain same | ⟨r, r'', hr, hr'', leaves⟩ := moved c.server
  · exact ⟨_, ⟨others, c, r', own, route, same.symm.trans found, rfl⟩, .refl _ _⟩
  · obtain rfl := Option.some.inj (hr''.symm.trans found)
    exact ⟨_, ⟨others, c, r, own, route, hr, rfl⟩, leaves⟩

/-- A record stays, or it is one of those that go. -/
theorem Matched.moved {ref : SeriesRef} {m : SeriesMetadata} (h : Matched site ref m)
    (moved : Moved gone site.world site'.world)
    (connections : site'.client.connections = site.client.connections) :
    Matched site' ref m ∨ (gone ref ∧ Lost site' ref) := by
  obtain ⟨ks, serves, record⟩ := h
  obtain ⟨ks', serves', leaves⟩ := serves.moved moved connections
  obtain ⟨e, there⟩ := record.get?
  rcases leaves.records ref e there with kept | ⟨removed, none⟩
  · exact Or.inl ⟨ks', serves', record.congr (kept.trans there.symm)⟩
  · refine Or.inr ⟨removed, fun ks'' serves'' => ?_⟩
    rw [serves''.unique serves', none]

theorem OnServer.moved {site site' : Site Stage} {server : Nat} {r : Rehearsal} {password : String}
    {P : Client → Keyspace → List (String × String) → Prop}
    (h : OnServer site server password P site') (found : site.world.servers[server]? = some r)
    (leaves : ∀ client ks set, P client ks set → Leaves gone r.keyspace ks) :
    Moved gone site.world site'.world := by
  intro i
  by_cases here : i = server
  · subst here
    obtain ⟨r', set, found', _, _, hP⟩ := h.here
    exact Or.inr ⟨r, r', found, found', leaves _ _ _ hP⟩
  · exact Or.inl (h.others i here)

namespace Intact

variable {stale : SeriesRef → Prop}

theorem mono {stale' gone' : SeriesRef → Prop} (h : Intact stale gone site)
    (more : ∀ ref, stale ref → stale' ref) (more' : ∀ ref, gone ref → gone' ref) :
    Intact stale' gone' site where
  undisturbed := h.undisturbed
  filed := h.filed
  staged := h.staged
  cached := fun ref m found =>
    (h.cached ref m found).imp (more ref) (Or.imp_right (And.imp_left (more' ref)))

/-- Servers change keys, and the client forgets some descriptors. -/
theorem moved (h : Intact stale gone site) (undisturbed : site'.world.Undisturbed)
    (moved : Moved gone site.world site'.world)
    (pending : site'.client.pending = site.client.pending)
    (connections : site'.client.connections = site.client.connections)
    (cache : ∀ ref m, site'.client.cache.get? ref = some m →
      site.client.cache.get? ref = some m) : Intact stale gone site' where
  undisturbed := undisturbed
  filed := by
    intro r' inside ns
    obtain ⟨i, found⟩ := List.mem_iff_getElem?.mp inside
    obtain same | ⟨r, r'', hr, hr'', leaves⟩ := moved i
    · exact h.filed r' (List.mem_of_getElem? (same.symm.trans found)) ns
    · obtain rfl := Option.some.inj (hr''.symm.trans found)
      obtain ⟨given, filed⟩ := h.filed r (List.mem_of_getElem? hr) ns
      exact leaves.filed ns given filed
  staged := pending ▸ h.staged
  cached := by
    intro ref m found
    rcases h.cached ref m (cache ref m found) with old | matched | ⟨removed, missing⟩
    · exact Or.inl old
    · exact Or.inr (matched.moved moved connections)
    · refine Or.inr (Or.inr ⟨removed, fun ks' serves' => ?_⟩)
      obtain ⟨ks, serves, leaves⟩ := serves'.before moved connections
      exact leaves.lost ref removed (missing ks serves)

/-- Only the client changes, and it forgets some descriptors. -/
theorem forget (h : Intact stale gone site) {client : Client}
    (pending : PointsOnly client.pending)
    (connections : client.connections = site.client.connections)
    (cache : ∀ ref m, client.cache.get? ref = some m → site.client.cache.get? ref = some m) :
    Intact stale gone { site with client } where
  undisturbed := h.undisturbed
  filed := h.filed
  staged := pending
  cached := by
    have serves : ∀ ns ks, Serves { site with client } ns ks ↔ Serves site ns ks := by
      intro ns ks
      unfold Serves
      rw [← connections]
    intro ref m found
    refine (h.cached ref m (cache ref m found)).imp_right (Or.imp ?_ (And.imp_right ?_))
    · exact fun ⟨ks, served, record⟩ => ⟨ks, (serves _ _).mpr served, record⟩
    · exact fun missing ks served => missing ks ((serves _ _).mp served)

end Intact

end Remote

end SeriesStorage
