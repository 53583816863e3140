import SeriesStorage.Server.Request

/-!
# What commands do to keys

A command changes at most the keys that it names (`get?_exec`), so commands in a row change at most
the keys that one of them names (`get?_execAll`).  `Runs` says that commands in a row all succeed,
with what replies, and what they leave.
-/

namespace SeriesStorage

namespace Server

/-! ## Keys that a command names -/

/-- Whether a command may change a key. -/
def Command.Changes (key : String) : Command → Prop
  | .set k _ => k = key
  | .setNew k _ _ => k = key
  | .increment k => k = key
  | .delete keys => key ∈ keys
  | .addMember k _ => k = key
  | .removeMember k _ => k = key
  | .addPoints k _ => k = key
  | .expireAt k _ => k = key
  | .release k _ => k = key
  | .flush => True
  | _ => False

@[simp] theorem Keyspace.get?_setValue (ks : Keyspace) (k key : String) (value : Value) :
    (ks.setValue k value).get? key =
      if k = key then some { (ks.get? k).getD { value } with value } else ks.get? key := by
  unfold Keyspace.setValue
  cases found : ks.get? k with
  | none => simp
  | some entry => simp

theorem get?_erase_all (ks : Keyspace) (keys : List String) (key : String) :
    (keys.foldl Table.erase ks).get? key = if key ∈ keys then none else ks.get? key := by
  induction keys generalizing ks with
  | nil => simp
  | cons k rest ih =>
    rw [List.foldl_cons, ih, Table.get?_erase]
    by_cases hk : k = key
    · subst hk
      simp
    · simp [hk, Ne.symm hk]

/-- **Commands leave other keys alone.** -/
theorem get?_exec (required : String) (command : Command) (ks : Keyspace) (key : String)
    (h : ¬ command.Changes key) : (exec required command ks).2.get? key = ks.get? key := by
  cases command with
  | set k text =>
    have : k ≠ key := h
    simp [exec, this]
  | setNew k token leaseMs =>
    have : k ≠ key := h
    simp only [exec]
    split <;> simp [this]
  | increment k =>
    have : k ≠ key := h
    simp only [exec]
    split
    · rfl
    · split
      · rfl
      · split <;> simp [this]
  | delete keys =>
    have : key ∉ keys := h
    simp [exec, get?_erase_all, this]
  | addMember k member =>
    have : k ≠ key := h
    simp only [exec]
    split
    · rfl
    · split <;> simp [this]
  | removeMember k member =>
    have : k ≠ key := h
    simp only [exec]
    split
    · rfl
    · split
      · dsimp only
        split <;> simp [this]
      · rfl
  | addPoints k points =>
    have : k ≠ key := h
    simp only [exec]
    split
    · rfl
    · simp [this]
  | expireAt k second =>
    have : k ≠ key := h
    simp only [exec]
    split
    · rfl
    · simp [this]
  | release k token =>
    have : k ≠ key := h
    simp only [exec]
    split
    · rfl
    · split <;> simp [this]
  | flush => exact absurd trivial h
  | ping => rfl
  | auth password => simp only [exec]; split <;> rfl
  | select database => simp only [exec]; split <;> rfl
  | get k => simp only [exec]; split <;> rfl
  | pointsBetween k first last => simp only [exec]; split <;> rfl

/-- A command that may change no key leaves everything as it is. -/
theorem exec_unchanged (required : String) {command : Command} (ks : Keyspace)
    (h : ∀ key, ¬ command.Changes key) : (exec required command ks).2 = ks := by
  cases command with
  | set k text => exact absurd rfl (h k)
  | setNew k token leaseMs => exact absurd rfl (h k)
  | increment k => exact absurd rfl (h k)
  | delete keys =>
    cases keys with
    | nil => rfl
    | cons k rest => exact absurd List.mem_cons_self (h k)
  | addMember k member => exact absurd rfl (h k)
  | removeMember k member => exact absurd rfl (h k)
  | addPoints k points => exact absurd rfl (h k)
  | expireAt k second => exact absurd rfl (h k)
  | release k token => exact absurd rfl (h k)
  | flush => exact absurd trivial (h "")
  | ping => rfl
  | auth password => simp only [exec]; split <;> rfl
  | select database => simp only [exec]; split <;> rfl
  | get k => simp only [exec]; split <;> rfl
  | pointsBetween k first last => simp only [exec]; split <;> rfl

/-! ## Commands in a row -/

theorem get?_execAll (required : String) (commands : List Command) (ks : Keyspace) (key : String)
    (h : ∀ command ∈ commands, ¬ command.Changes key) :
    (execAll (exec required) commands ks).2.get? key = ks.get? key := by
  induction commands generalizing ks with
  | nil => rfl
  | cons command rest ih =>
    show (execAll (exec required) rest (exec required command ks).2).2.get? key = _
    rw [ih _ fun c hc => h c (List.mem_cons_of_mem _ hc),
      get?_exec required command ks key (h command List.mem_cons_self)]

theorem execAll_unchanged (required : String) (ks : Keyspace) {commands : List Command}
    (h : ∀ command ∈ commands, ∀ key, ¬ command.Changes key) :
    (execAll (exec required) commands ks).2 = ks := by
  induction commands with
  | nil => rfl
  | cons command rest ih =>
    obtain ⟨first, others⟩ := List.forall_mem_cons.mp h
    show (execAll (exec required) rest (exec required command ks).2).2 = ks
    rw [exec_unchanged required ks first, ih others]

/-- Commands in a row that all succeed, with their replies and the keys that they leave. -/
inductive Runs (required : String) : List Command → Keyspace → List Reply → Keyspace → Prop
  | done {ks : Keyspace} : Runs required [] ks [] ks
  | step {command : Command} {rest : List Command} {ks ks' last : Keyspace} {reply : Reply}
      {replies : List Reply} :
      exec required command ks = (.ok reply, ks') → Runs required rest ks' replies last →
      Runs required (command :: rest) ks (reply :: replies) last

namespace Runs

variable {required : String} {commands more : List Command} {ks mid last : Keyspace}
  {replies others : List Reply}

theorem execAll (h : Runs required commands ks replies last) :
    execAll (exec required) commands ks = (replies.map .ok, last) := by
  induction h with
  | done => rfl
  | step first _ ih => simp only [Server.execAll, first, ih, List.map_cons]

theorem exec_request (h : Runs required commands ks replies last) {request : Request}
    (same : request.commands = commands) : request.exec required ks = (.ok replies, last) := by
  unfold Request.exec
  rw [same, h.execAll]
  dsimp only
  congr 1
  clear h
  induction replies with
  | nil => rfl
  | cons reply rest ih => simp only [List.map_cons, gather, ih, Except.map]

theorem append (h : Runs required commands ks replies mid)
    (hmore : Runs required more mid others last) :
    Runs required (commands ++ more) ks (replies ++ others) last := by
  induction h with
  | done => exact hmore
  | step first _ ih => exact .step first (ih hmore)

theorem length_replies (h : Runs required commands ks replies last) :
    replies.length = commands.length := by
  induction h with
  | done => rfl
  | step _ _ ih => simp [ih]

theorem get?_eq (h : Runs required commands ks replies last) {key : String}
    (leave : ∀ command ∈ commands, ¬ command.Changes key) : last.get? key = ks.get? key := by
  have := get?_execAll required commands ks key leave
  rwa [h.execAll] at this

end Runs

end Server

end SeriesStorage
