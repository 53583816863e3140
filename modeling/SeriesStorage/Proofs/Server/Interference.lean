import SeriesStorage.Proofs.Server.Attempts

/-!
# Servers that others touch

A command on a server in rehearsal is attempted, and then others may do to keys what was prepared
(`Rehearsal.exec_interfered`).  A command that no fault was prepared for is executed.

* `interfere`: what others do, one intervention after the other.
* `Rehearsal.execRequest_keeps`: what every command keeps, a request keeps.
-/

namespace SeriesStorage

namespace Server

/-! ## Faults for other commands -/

/-- No fault is prepared for commands of some names. -/
def Spares (names : List String) (faults : List PreparedFault) : Prop :=
  ∀ fault ∈ faults, fault.command ∉ names

instance (names : List String) (faults : List PreparedFault) : Decidable (Spares names faults) :=
  inferInstanceAs (Decidable (∀ fault ∈ faults, fault.command ∉ names))

theorem Spares.fewer {names : List String} {faults : List PreparedFault}
    (h : Spares names faults) (some : List String) (fewer : ∀ name ∈ some, name ∈ names) :
    Spares some faults :=
  fun fault inside named => h fault inside (fewer _ named)

theorem takeFault_spared {name : String} {faults : List PreparedFault}
    (spared : Spares [name] faults) : Rehearsal.takeFault name faults = (none, faults) := by
  induction faults with
  | nil => rfl
  | cons fault rest ih =>
    have other : fault.command ≠ name := fun same =>
      spared fault List.mem_cons_self (List.mem_singleton.mpr same)
    rw [Rehearsal.takeFault, if_neg other,
      ih fun f inside => spared f (List.mem_cons_of_mem _ inside)]

/-- Faults that are left are for commands of the same names. -/
theorem Spares.takeFault {names : List String} {faults : List PreparedFault}
    (h : Spares names faults) (name : String) :
    Spares names (Rehearsal.takeFault name faults).2 := by
  induction faults with
  | nil => exact h
  | cons fault rest ih =>
    have first := h fault List.mem_cons_self
    have others : Spares names rest := fun f inside => h f (List.mem_cons_of_mem _ inside)
    unfold Rehearsal.takeFault
    split
    · split
      · exact others
      · exact List.forall_mem_cons.mpr ⟨first, ih others⟩
    · exact List.forall_mem_cons.mpr ⟨first, ih others⟩

/-! ## What others do -/

/-- What others do to keys, one intervention after the other. -/
def interfere (interventions : List Intervention) (ks : Keyspace) : Keyspace :=
  interventions.foldl (fun ks i => i.effects.foldl Rehearsal.Effect.apply ks) ks

theorem interfere_append (first rest : List Intervention) (ks : Keyspace) :
    interfere (first ++ rest) ks = interfere rest (interfere first ks) := List.foldl_append

/-- What each intervention keeps, all of them keep. -/
theorem interfere_keeps {P : Keyspace → Prop} {interventions : List Intervention}
    (kept : ∀ i ∈ interventions, ∀ ks, P ks → P (interfere [i] ks)) {ks : Keyspace} (h : P ks) :
    P (interfere interventions ks) := by
  induction interventions generalizing ks with
  | nil => exact h
  | cons i rest ih =>
    exact ih (fun j inside => kept j (List.mem_cons_of_mem _ inside))
      (kept i List.mem_cons_self ks h)

namespace Rehearsal

/-- Of the interventions some are taken, and the others left. -/
theorem takeIntervention_taken (command : Command) (interventions : List Intervention) :
    ∃ taken, (taken ++ (takeIntervention command interventions).2).Perm interventions ∧
      ∀ ks, (takeIntervention command interventions).1.foldl Effect.apply ks =
        interfere taken ks := by
  induction interventions with
  | nil => exact ⟨[], .nil, fun _ => rfl⟩
  | cons i rest ih =>
    unfold takeIntervention
    split
    · exact ⟨[i], .refl _, fun _ => rfl⟩
    · obtain ⟨taken, all, same⟩ := ih
      exact ⟨taken, List.perm_middle.trans (all.cons i), same⟩

/-- A command is attempted, and executed if no fault is prepared for it; then others do some of what
was prepared. -/
theorem exec_interfered (r : Rehearsal) (command : Command) :
    ∃ mid taken left, Attempt r.password command r.keyspace (r.exec command).1 mid ∧
      (Spares [command.name] r.faults →
        ((r.exec command).1, mid) = Server.exec r.password command r.keyspace) ∧
      (taken ++ left).Perm r.interventions ∧
      (r.exec command).2 = ⟨r.password, interfere taken mid,
        (takeFault command.name r.faults).2, left⟩ := by
  obtain ⟨taken, all, same⟩ := takeIntervention_taken command r.interventions
  unfold exec
  dsimp only
  cases hit : (takeFault command.name r.faults).1 with
  | some text =>
    refine ⟨r.keyspace, taken, _, .refused text, fun spared => ?_, all, ?_⟩
    · rw [takeFault_spared spared] at hit
      cases hit
    · unfold affect
      rw [same]
  | none =>
    refine ⟨_, taken, _, attempt_exec _ _ _, fun _ => rfl, all, ?_⟩
    unfold affect
    rw [same]

variable {I : Rehearsal → Prop}

theorem execAll_keeps {commands : List Command}
    (kept : ∀ command ∈ commands, ∀ r, I r → I (exec command r).2) {r : Rehearsal} (h : I r) :
    I (execAll exec commands r).2 := by
  induction commands generalizing r with
  | nil => exact h
  | cons command rest ih =>
    exact ih (fun c inside => kept c (List.mem_cons_of_mem _ inside))
      (kept command List.mem_cons_self r h)

/-- What all commands keep, and to spend a fault, a request keeps. -/
theorem execRequest_keeps {request : Request}
    (spent : ∀ r : Rehearsal, I r → I { r with faults := (takeFault "EXEC" r.faults).2 })
    (kept : ∀ command ∈ request.commands, ∀ r, I r → I (exec command r).2) {r : Rehearsal}
    (h : I r) : I (r.execRequest request).2 := by
  cases request with
  | transaction commands =>
    have begun := spent r h
    unfold execRequest
    dsimp only
    generalize takeFault "EXEC" r.faults = taken at begun
    obtain ⟨_ | text, faults⟩ := taken
    · exact execAll_keeps kept begun
    · exact begun
  | single command => exact execAll_keeps kept h
  | pipeline commands => exact execAll_keeps kept h

end Rehearsal

/-! ## Stages -/

namespace Stage

/-- A single command to a server that is there. -/
theorem serve_single {stage : Stage} {server : Nat} {r : Rehearsal}
    (found : stage.servers[server]? = some r) (command : Command) :
    stage.serve server (.single command) =
      ((r.exec command).1.mapError .refused >>= fun reply => .ok [reply],
        { stage.update server fun _ => (r.exec command).2 with
          log := stage.log ++ [(server, .command command (r.exec command).1)] }) := by
  have executed : r.execRequest (.single command) =
      (.ok [(r.exec command).1], (r.exec command).2) := rfl
  unfold serve
  rw [found]
  simp only [executed]
  generalize r.exec command = result
  obtain ⟨_ | _, _⟩ := result <;> rfl

/-- Something holds of each server. -/
def Each (I : Nat → Rehearsal → Prop) (stage : Stage) : Prop :=
  ∀ (i : Nat) (r : Rehearsal), stage.servers[i]? = some r → I i r

/-- One of the servers changes. -/
theorem Each.update {I J : Nat → Rehearsal → Prop} {stage : Stage} (h : stage.Each I)
    {server : Nat} {r' : Rehearsal} (others : ∀ i r, i ≠ server → I i r → J i r)
    (here : J server r') (log : List (Nat × LogEntry)) :
    Each J { stage.update server fun _ => r' with log } := by
  intro i r found
  change (stage.update server fun _ => r').servers[i]? = some r at found
  rw [getElem?_update] at found
  split at found
  · next same =>
    obtain ⟨_, _, rfl⟩ := Option.map_eq_some_iff.mp found
    exact same ▸ here
  · next apart => exact others i r (Ne.symm apart) (h i r found)

/-- What a request keeps of its server holds of each server after it. -/
theorem Each.serve {I : Nat → Rehearsal → Prop} {stage : Stage} (h : stage.Each I) (server : Nat)
    {request : Request} (kept : ∀ r, I server r → I server (r.execRequest request).2) :
    (stage.serve server request).2.Each I := by
  unfold Stage.serve
  cases found : stage.servers[server]? with
  | none => exact h
  | some r => exact h.update (fun _ _ _ stays => stays) (kept r (h server r found)) _

end Stage

end Server

end SeriesStorage
