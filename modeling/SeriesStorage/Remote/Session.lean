import SeriesStorage.Server.Request

/-!
# Sessions with servers

A `Session` is what a client does until it has a result: it dials servers and sends requests, and
goes on as they answer.  Nothing in it says how the servers answer; a `Host` does, and `Session.run`
plays a session against one.  Other readings of a session are possible, such as one request at a
time among those of other clients (`Session.step`).

`run_bind` says that a session which goes on with another is played by playing one after the other.
-/

namespace SeriesStorage

namespace Remote

open Server (Reply Request)

/-! ## Sessions -/

/-- What a client does until it has a result. -/
inductive Session (α : Type) where
  | done (a : α)
  /-- Connects to an address and goes on with the server reached there. -/
  | dial (address : String) (port : UInt16) (next : Except Fault Nat → Session α)
  /-- Sends a request to a server and goes on with the answer. -/
  | send (server : Nat) (request : Request) (next : Except Fault (List Reply) → Session α)

namespace Session

variable {α β : Type}

/-- Goes on with another session. -/
def bind : Session α → (α → Session β) → Session β
  | done a, f => f a
  | dial address port next, f => dial address port fun answer => (next answer).bind f
  | send server request next, f => send server request fun answer => (next answer).bind f

instance : Monad Session where
  pure := done
  bind := bind

end Session

/-! ## Hosts -/

/-- How a world of servers answers, and how it changes. -/
structure Host (σ : Type) where
  dial : String → UInt16 → σ → Except Fault Nat × σ
  serve : Nat → Request → σ → Except Fault (List Reply) × σ

namespace Session

variable {α β σ : Type}

/-- Plays a session against a host. -/
def run (host : Host σ) : Session α → σ → α × σ
  | done a, s => (a, s)
  | dial address port next, s =>
    let (answer, s) := host.dial address port s
    (next answer).run host s
  | send server request next, s =>
    let (answer, s) := host.serve server request s
    (next answer).run host s

/-- Plays the next action of a session; a session that is done stays as it is. -/
def step (host : Host σ) : Session α → σ → Session α × σ
  | done a, s => (done a, s)
  | dial address port next, s =>
    let (answer, s) := host.dial address port s
    (next answer, s)
  | send server request next, s =>
    let (answer, s) := host.serve server request s
    (next answer, s)

/-! ## Lemmas -/

@[simp] theorem pure_eq_done (a : α) : (pure a : Session α) = done a := rfl

@[simp] theorem bind_eq (t : Session α) (f : α → Session β) : t >>= f = t.bind f := rfl

@[simp] theorem done_bind (a : α) (f : α → Session β) : (done a).bind f = f a := rfl

theorem bind_done (t : Session α) : t.bind done = t := by
  induction t with
  | done a => rfl
  | dial address port next ih => simp [bind, ih]
  | send server request next ih => simp [bind, ih]

theorem bind_bind {γ : Type} (t : Session α) (f : α → Session β) (g : β → Session γ) :
    (t.bind f).bind g = t.bind fun a => (f a).bind g := by
  induction t with
  | done a => rfl
  | dial address port next ih => simp [bind, ih]
  | send server request next ih => simp [bind, ih]

instance : LawfulMonad Session :=
  LawfulMonad.mk' Session (fun t => bind_done t) (fun _ _ => rfl) (fun t f g => bind_bind t f g)

@[simp] theorem run_done (host : Host σ) (a : α) (s : σ) : (done a).run host s = (a, s) := rfl

@[simp] theorem run_bind (host : Host σ) (t : Session α) (f : α → Session β) (s : σ) :
    (t.bind f).run host s = (f (t.run host s).1).run host (t.run host s).2 := by
  induction t generalizing s with
  | done a => rfl
  | dial address port next ih => simp [bind, run, ih]
  | send server request next ih => simp [bind, run, ih]

end Session

end Remote

end SeriesStorage
