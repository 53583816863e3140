import SeriesStorage.Proofs.Server.Commands
import SeriesStorage.Proofs.Server.Network

/-!
# Keys that commands name

What a command answers and does depends on the keys that it names only.  So on two servers, or
networks, that agree on some keys, commands that name none but these answer the same, and the keys
agree again (`exec_agree`, `Request.exec_agree`, `Network.serve_agree`).
-/

namespace SeriesStorage

namespace Server

/-- The keys that a command names, to read or to change them. -/
def Command.keys : Command → List String
  | .ping | .auth _ | .select _ | .flush => []
  | .get key | .set key _ | .setNew key _ _ | .increment key | .addMember key _
  | .removeMember key _ | .addPoints key _ | .pointsBetween key _ _ | .expireAt key _
  | .release key _ => [key]
  | .delete keys => keys

/-- What a command may change it names, unless it flushes everything. -/
theorem Command.Changes.mem_keys {command : Command} {key : String} (h : command.Changes key)
    (kept : command ≠ .flush) : key ∈ command.keys := by
  cases command with
  | flush => exact absurd rfl kept
  | delete keys => exact h
  | ping | auth _ | select _ | get _ | pointsBetween _ _ _ => exact h.elim
  | set k _ | setNew k _ _ | increment k | addMember k _ | removeMember k _ | addPoints k _
  | expireAt k _ | release k _ => exact List.mem_singleton.mpr (Eq.symm h)

/-! ## One server -/

variable {P : String → Prop} {ks ks' : Keyspace}

/-- Two servers hold the same at some keys. -/
def AgreeOn (P : String → Prop) (ks ks' : Keyspace) : Prop :=
  ∀ key, P key → ks.get? key = ks'.get? key

namespace AgreeOn

theorem refl (P : String → Prop) (ks : Keyspace) : AgreeOn P ks ks := fun _ _ => rfl

theorem trans {last : Keyspace} (h : AgreeOn P ks ks') (h' : AgreeOn P ks' last) :
    AgreeOn P ks last := fun key hkey => (h key hkey).trans (h' key hkey)

theorem symm (h : AgreeOn P ks ks') : AgreeOn P ks' ks := fun key hkey => (h key hkey).symm

theorem insert (h : AgreeOn P ks ks') (key : String) (e : Entry) :
    AgreeOn P (ks.insert key e) (ks'.insert key e) := by
  intro k hk
  rw [Table.get?_insert, Table.get?_insert, h k hk]

theorem erase (h : AgreeOn P ks ks') (key : String) : AgreeOn P (ks.erase key) (ks'.erase key) := by
  intro k hk
  rw [Table.get?_erase, Table.get?_erase, h k hk]

theorem setValue (h : AgreeOn P ks ks') {key : String} (named : P key) (value : Value) :
    AgreeOn P (ks.setValue key value) (ks'.setValue key value) := by
  intro k hk
  rw [Keyspace.get?_setValue, Keyspace.get?_setValue, h key named, h k hk]

theorem string? (h : AgreeOn P ks ks') {key : String} (named : P key) :
    ks.string? key = ks'.string? key := by
  unfold Keyspace.string?
  rw [h key named]

theorem set? (h : AgreeOn P ks ks') {key : String} (named : P key) :
    ks.set? key = ks'.set? key := by
  unfold Keyspace.set?
  rw [h key named]

theorem sortedSet? (h : AgreeOn P ks ks') {key : String} (named : P key) :
    ks.sortedSet? key = ks'.sortedSet? key := by
  unfold Keyspace.sortedSet?
  rw [h key named]

theorem contains (h : AgreeOn P ks ks') {key : String} (named : P key) :
    ks.contains key = ks'.contains key := by
  unfold Table.contains
  rw [h key named]

end AgreeOn

/-- **One command.**  It answers the same where the keys that it names hold the same, and leaves the
same at them. -/
theorem exec_agree (required : String) {command : Command} (h : AgreeOn P ks ks')
    (named : ∀ key ∈ command.keys, P key) :
    (exec required command ks).1 = (exec required command ks').1 ∧
      AgreeOn P (exec required command ks).2 (exec required command ks').2 := by
  cases command with
  | ping => exact ⟨rfl, h⟩
  | auth password => simp only [exec]; split <;> exact ⟨rfl, h⟩
  | select database => simp only [exec]; split <;> exact ⟨rfl, h⟩
  | flush => exact ⟨rfl, .refl _ _⟩
  | set key text => exact ⟨rfl, h.insert _ _⟩
  | delete keys =>
    constructor
    · have same : keys.eraseDups.countP ks.contains = keys.eraseDups.countP ks'.contains :=
        List.countP_congr fun key inside => by
          rw [h.contains (named key (List.mem_eraseDups.mp inside))]
      simp only [exec, same]
    · intro key hkey
      simp only [exec, get?_erase_all, h key hkey]
  | get key =>
    simp only [exec, h.string? (named key List.mem_cons_self)]
    split <;> exact ⟨rfl, h⟩
  | setNew key token leaseMs =>
    simp only [exec, h.contains (named key List.mem_cons_self)]
    split
    · exact ⟨rfl, h⟩
    · exact ⟨rfl, h.insert _ _⟩
  | increment key =>
    have named := named key List.mem_cons_self
    simp only [exec, h.string? named]
    split
    · exact ⟨rfl, h⟩
    · split
      · exact ⟨rfl, h⟩
      · split
        · exact ⟨rfl, h.setValue named _⟩
        · exact ⟨rfl, h⟩
  | addMember key member =>
    have named := named key List.mem_cons_self
    simp only [exec, h.set? named]
    split
    · exact ⟨rfl, h⟩
    · split
      · exact ⟨rfl, h⟩
      · exact ⟨rfl, h.setValue named _⟩
  | removeMember key member =>
    have named := named key List.mem_cons_self
    simp only [exec, h.set? named]
    split
    · exact ⟨rfl, h⟩
    · split
      · dsimp only
        split
        · exact ⟨rfl, h.erase _⟩
        · exact ⟨rfl, h.setValue named _⟩
      · exact ⟨rfl, h⟩
  | addPoints key points =>
    have named := named key List.mem_cons_self
    simp only [exec, h.sortedSet? named]
    split
    · exact ⟨rfl, h⟩
    · exact ⟨rfl, h.setValue named _⟩
  | pointsBetween key first last =>
    simp only [exec, h.sortedSet? (named key List.mem_cons_self)]
    split <;> exact ⟨rfl, h⟩
  | expireAt key second =>
    simp only [exec, h key (named key List.mem_cons_self)]
    split
    · exact ⟨rfl, h⟩
    · exact ⟨rfl, h.insert _ _⟩
  | release key token =>
    simp only [exec, h.string? (named key List.mem_cons_self)]
    split
    · exact ⟨rfl, h⟩
    · split
      · exact ⟨rfl, h.erase _⟩
      · exact ⟨rfl, h⟩

theorem execAll_agree (required : String) {commands : List Command} (h : AgreeOn P ks ks')
    (named : ∀ command ∈ commands, ∀ key ∈ command.keys, P key) :
    (execAll (exec required) commands ks).1 = (execAll (exec required) commands ks').1 ∧
      AgreeOn P (execAll (exec required) commands ks).2
        (execAll (exec required) commands ks').2 := by
  induction commands generalizing ks ks' with
  | nil => exact ⟨rfl, h⟩
  | cons command rest ih =>
    obtain ⟨reply, after⟩ := exec_agree required h (named command List.mem_cons_self)
    obtain ⟨replies, last⟩ := ih after fun c inside => named c (List.mem_cons_of_mem _ inside)
    exact ⟨List.cons_eq_cons.mpr ⟨reply, replies⟩, last⟩

/-- A whole request. -/
theorem Request.exec_agree (required : String) {request : Request} (h : AgreeOn P ks ks')
    (named : ∀ command ∈ request.commands, ∀ key ∈ command.keys, P key) :
    (request.exec required ks).1 = (request.exec required ks').1 ∧
      AgreeOn P (request.exec required ks).2 (request.exec required ks').2 := by
  obtain ⟨replies, after⟩ := execAll_agree required h named
  exact ⟨congrArg gather replies, after⟩

/-! ## Networks -/

/-- Two servers have one password and hold the same at some keys. -/
structure Node.AgreesOn (P : String → Prop) (node node' : Node) : Prop where
  password : node.password = node'.password
  keys : AgreeOn P node.keyspace node'.keyspace

/-- Two networks can be reached at the same places, and their servers hold the same at some keys. -/
structure Network.AgreesOn (P : String → Prop) (net net' : Network) : Prop where
  listeners : net.listeners = net'.listeners
  nodes : ∀ i : Nat, Option.Rel (Node.AgreesOn P) net.nodes[i]? net'.nodes[i]?

namespace Network.AgreesOn

variable {net net' last : Network}

theorem refl (P : String → Prop) (net : Network) : net.AgreesOn P net where
  listeners := rfl
  nodes := fun i => by
    cases net.nodes[i]? with
    | none => exact .none
    | some node => exact .some ⟨rfl, .refl _ _⟩

theorem trans (h : net.AgreesOn P net') (h' : net'.AgreesOn P last) : net.AgreesOn P last where
  listeners := h.listeners.trans h'.listeners
  nodes := fun i => by
    have first := h.nodes i
    have second := h'.nodes i
    revert first second
    generalize net.nodes[i]? = a, net'.nodes[i]? = b, last.nodes[i]? = c
    rintro (⟨one⟩ | _) (⟨two⟩ | _)
    · exact .some ⟨one.password.trans two.password, one.keys.trans two.keys⟩
    · exact .none

theorem symm (h : net.AgreesOn P net') : net'.AgreesOn P net where
  listeners := h.listeners.symm
  nodes := fun i => by
    have first := h.nodes i
    revert first
    generalize net.nodes[i]? = a, net'.nodes[i]? = b
    rintro (⟨one⟩ | _)
    · exact .some ⟨one.password.symm, one.keys.symm⟩
    · exact .none

/-- The keys of a server that is there on both sides. -/
theorem get (h : net.AgreesOn P net') {i : Nat} {node : Node} (found : net.nodes[i]? = some node) :
    ∃ node', net'.nodes[i]? = some node' ∧ node.AgreesOn P node' := by
  have both := h.nodes i
  rw [found] at both
  generalize net'.nodes[i]? = other at both
  cases both with
  | some agrees => exact ⟨_, rfl, agrees⟩

theorem setKeys (h : net.AgreesOn P net') (server : Nat) {ks ks' : Keyspace}
    (keys : AgreeOn P ks ks') : (net.setKeys server ks).AgreesOn P (net'.setKeys server ks') where
  listeners := h.listeners
  nodes := fun i => by
    rw [getElem?_setKeys, getElem?_setKeys]
    have both := h.nodes i
    split
    · revert both
      generalize net.nodes[i]? = a, net'.nodes[i]? = b
      rintro (⟨one⟩ | _)
      · exact .some ⟨one.password, keys⟩
      · exact .none
    · exact both

end Network.AgreesOn

/-- **One request.**  It is answered the same on networks that agree on the keys that it names, and
they agree on them afterwards. -/
theorem Network.serve_agree {net net' : Network} (h : net.AgreesOn P net') (server : Nat)
    (request : Request) (named : ∀ command ∈ request.commands, ∀ key ∈ command.keys, P key) :
    (net.serve server request).1 = (net'.serve server request).1 ∧
      (net.serve server request).2.AgreesOn P (net'.serve server request).2 := by
  unfold Network.serve
  cases found : net.nodes[server]? with
  | none =>
    have both := h.nodes server
    rw [found] at both
    cases found' : net'.nodes[server]? with
    | none => exact ⟨rfl, h⟩
    | some node' =>
      rw [found'] at both
      cases both
  | some node =>
    obtain ⟨node', found', agrees⟩ := h.get found
    obtain ⟨answer, keys⟩ := Request.exec_agree node.password agrees.keys named
    rw [found']
    dsimp only
    rw [← agrees.password]
    exact ⟨answer, h.setKeys server keys⟩

/-- A request that may change none of some keys leaves them as they are. -/
theorem Network.serve_leaves (net : Network) (server : Nat) (request : Request)
    (leaves : ∀ command ∈ request.commands, ∀ key, P key → ¬ command.Changes key) :
    net.AgreesOn P (net.serve server request).2 := by
  unfold Network.serve
  cases found : net.nodes[server]? with
  | none => exact .refl P net
  | some node =>
    refine ⟨rfl, fun i => ?_⟩
    dsimp only
    rw [getElem?_setKeys]
    split
    · next here =>
      subst here
      rw [found]
      refine .some ⟨rfl, fun key hkey => Eq.symm ?_⟩
      exact get?_execAll _ _ _ key fun command inside => leaves command inside key hkey
    · exact (Network.AgreesOn.refl P net).nodes i

end Server

end SeriesStorage
