import SeriesStorage.Series.Basic
import SeriesStorage.Server.Keyspace
import SeriesStorage.Table

/-!
# Writes that wait for a flush

Commands staged under a request id, by namespace, in the order of their staging.
-/

namespace SeriesStorage

namespace Remote

/-- A write command together with the number of new members that it must report, if that is
checked. -/
structure StagedCommand where
  command : Server.Command
  expected : Option Nat
deriving DecidableEq, Repr

namespace StagedCommand

def checked (command : Server.Command) (expected : Nat) : StagedCommand := ⟨command, some expected⟩

def unchecked (command : Server.Command) : StagedCommand := ⟨command, none⟩

end StagedCommand

/-- How many new members commands must report together. -/
def expectedTotal : List StagedCommand → Nat
  | [] => 0
  | staged :: rest => staged.expected.getD 0 + expectedTotal rest

/-- Staged commands by namespace. -/
abbrev StagedWrites := Table Namespace (List StagedCommand)

/-- Staged writes by request id. -/
structure Pending where
  requests : Table RequestId StagedWrites
deriving DecidableEq, Repr, Inhabited

namespace Pending

def empty : Pending := ⟨.empty⟩

/-- The commands staged under a request for a namespace. -/
def commands (p : Pending) (request : RequestId) (ns : Namespace) : List StagedCommand :=
  (((p.requests.get? request).getD .empty).get? ns).getD []

/-- Stages commands behind those staged before. -/
def stage (p : Pending) (request : RequestId) (ns : Namespace) (more : List StagedCommand) :
    Pending :=
  let writes := (p.requests.get? request).getD .empty
  ⟨p.requests.insert request (writes.insert ns (p.commands request ns ++ more))⟩

/-- What is staged under a request. -/
def writes? (p : Pending) (request : RequestId) : Option StagedWrites := p.requests.get? request

/-- Forgets a request. -/
def remove (p : Pending) (request : RequestId) : Pending := ⟨p.requests.erase request⟩

/-- How many requests have staged writes. -/
def requestCount (p : Pending) : Nat := p.requests.size

/-! ## Lemmas -/

theorem commands_stage (p : Pending) (request request' : RequestId) (ns ns' : Namespace)
    (more : List StagedCommand) :
    (p.stage request ns more).commands request' ns' =
      if request = request' ∧ ns = ns' then p.commands request ns ++ more
      else p.commands request' ns' := by
  unfold stage commands
  by_cases hr : request = request'
  · subst hr
    by_cases hn : ns = ns' <;> simp [hn]
  · simp [hr]

theorem writes?_stage (p : Pending) (request request' : RequestId) (ns : Namespace)
    (more : List StagedCommand) :
    ((p.stage request ns more).writes? request').isSome =
      (decide (request = request') || (p.writes? request').isSome) := by
  unfold stage writes?
  by_cases hr : request = request' <;> simp [hr]

/-- What holds of everything staged, and of what comes behind it, holds after staging more. -/
theorem forall_stage {E : RequestId → Namespace × List StagedCommand → Prop} {p : Pending}
    (h : ∀ request writes, p.writes? request = some writes → ∀ entry ∈ writes.entries,
      E request entry)
    {request : RequestId} {ns : Namespace} {more : List StagedCommand} (new : E request (ns, more))
    (behind : ∀ before, E request (ns, before) → E request (ns, before ++ more)) :
    ∀ request' writes, (p.stage request ns more).writes? request' = some writes →
      ∀ entry ∈ writes.entries, E request' entry := by
  intro request' writes found entry inside
  change (p.requests.insert request _).get? request' = some writes at found
  rw [Table.get?_insert] at found
  split at found
  · next same =>
    subst same
    obtain rfl := Option.some.inj found
    unfold commands at inside
    cases table : p.requests.get? request with
    | none =>
      rw [table] at inside
      obtain rfl := List.mem_singleton.mp inside
      exact new
    | some writes =>
      rw [table, Option.getD_some] at inside
      rcases Table.mem_insert inside with rfl | old
      · cases before : writes.get? ns with
        | none => exact new
        | some commands =>
          exact behind commands (h request writes table _ (Table.mem_of_get? before))
      · exact h request writes table entry old
  · exact h request' writes found entry inside

theorem writes?_remove (p : Pending) (request request' : RequestId) :
    (p.remove request).writes? request' =
      if request = request' then none else p.writes? request' := by
  simp [remove, writes?]

/-- What is left was staged before. -/
theorem writes?_of_remove {p : Pending} {request request' : RequestId} {writes : StagedWrites}
    (h : (p.remove request).writes? request' = some writes) :
    p.writes? request' = some writes := by
  rw [writes?_remove] at h
  split at h
  · cases h
  · exact h

end Pending

end Remote

end SeriesStorage
