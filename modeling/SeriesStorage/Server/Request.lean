import SeriesStorage.Error
import SeriesStorage.Server.Keyspace

/-!
# Requests

What is sent to a server in one piece: a command, a pipeline of commands, or a transaction.  A
transaction does not roll back: a command that fails makes its answer a fault, but the others take
effect.
-/

namespace SeriesStorage

namespace Server

/-- What is sent to a server in one piece. -/
inductive Request
  | single (command : Command)
  | pipeline (commands : List Command)
  | transaction (commands : List Command)
deriving DecidableEq, Repr

/-- The commands of a request, in order. -/
def Request.commands : Request → List Command
  | .single command => [command]
  | .pipeline commands => commands
  | .transaction commands => commands

/-- Executes commands one after the other, each whatever became of those before it. -/
def execAll {σ : Type} (exec : Command → σ → Except String Reply × σ) :
    List Command → σ → List (Except String Reply) × σ
  | [], s => ([], s)
  | command :: rest, s =>
    let (reply, s) := exec command s
    let (replies, s) := execAll exec rest s
    (reply :: replies, s)

/-- The replies of a request, or the first error among them. -/
def gather : List (Except String Reply) → Except Fault (List Reply)
  | [] => .ok []
  | .error e :: _ => .error (.refused e)
  | .ok reply :: rest => (gather rest).map (reply :: ·)

/-- What a server answers to a request, and its keys afterwards. -/
def Request.exec (required : String) (request : Request) (ks : Keyspace) :
    Except Fault (List Reply) × Keyspace :=
  let (replies, ks) := execAll (Server.exec required) request.commands ks
  (gather replies, ks)

/-! ## Lemmas -/

variable {σ : Type} (exec : Command → σ → Except String Reply × σ)

@[simp] theorem length_execAll (commands : List Command) (s : σ) :
    (execAll exec commands s).1.length = commands.length := by
  induction commands generalizing s with
  | nil => rfl
  | cons command rest ih => exact congrArg (· + 1) (ih _)

/-- More commands are executed on what the others left. -/
theorem execAll_append (commands more : List Command) (s : σ) :
    execAll exec (commands ++ more) s =
      ((execAll exec commands s).1 ++ (execAll exec more (execAll exec commands s).2).1,
        (execAll exec more (execAll exec commands s).2).2) := by
  induction commands generalizing s with
  | nil => rfl
  | cons command rest ih => simp only [List.cons_append, execAll, ih]

end Server

end SeriesStorage
