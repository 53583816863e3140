import SeriesStorage.Proofs.Remote.PairedRuns
import SeriesStorage.Proofs.Server.Interference

/-!
# Faults that no command meets

A fault is prepared for the commands of one name.  A task that sends no command of that name runs as
if the fault were not there (`Relates.unarmed_request`), and on a stage without interventions it
then runs as on the network (`Site.outcome_spared`).
-/

namespace SeriesStorage

namespace Server

/-! ## Servers without their faults -/

/-- The names of the commands that a request sends; a transaction is ended by one of its own. -/
def Request.names : Request → List String
  | .transaction commands => "EXEC" :: commands.map (·.name)
  | request => request.commands.map (·.name)

namespace Rehearsal

/-- A server with other faults. -/
def arm (faults : List PreparedFault) (r : Rehearsal) : Rehearsal := { r with faults }

variable {faults : List PreparedFault}

theorem exec_arm (r : Rehearsal) {command : Command} (spared : Spares [command.name] faults) :
    (r.arm faults).exec command =
      (((r.arm []).exec command).1, ((r.arm []).exec command).2.arm faults) ∧
    ((r.arm []).exec command).2.arm [] = ((r.arm []).exec command).2 := by
  refine ⟨?_, rfl⟩
  unfold exec
  dsimp only [arm]
  rw [takeFault_spared spared]
  rfl

theorem execAll_arm (r : Rehearsal) (commands : List Command)
    (spared : Spares (commands.map (·.name)) faults) :
    execAll exec commands (r.arm faults) =
      ((execAll exec commands (r.arm [])).1, (execAll exec commands (r.arm [])).2.arm faults) ∧
    (execAll exec commands (r.arm [])).2.arm [] = (execAll exec commands (r.arm [])).2 := by
  induction commands generalizing r with
  | nil => exact ⟨rfl, rfl⟩
  | cons command rest ih =>
    obtain ⟨first, stays⟩ := r.exec_arm (spared.fewer [command.name] (by simp))
    obtain ⟨others, stay⟩ := ih ((r.arm []).exec command).2
      (spared.fewer _ fun name inside => List.mem_cons_of_mem _ inside)
    rw [stays] at others stay
    simp only [execAll, first, others]
    exact ⟨trivial, stay⟩

theorem execRequest_arm (r : Rehearsal) {request : Request}
    (spared : Spares request.names faults) :
    (r.arm faults).execRequest request =
      (((r.arm []).execRequest request).1, ((r.arm []).execRequest request).2.arm faults) ∧
    ((r.arm []).execRequest request).2.arm [] = ((r.arm []).execRequest request).2 := by
  cases request with
  | transaction commands =>
    have ending : takeFault "EXEC" faults = (none, faults) :=
      takeFault_spared (spared.fewer ["EXEC"] (by simp [Request.names]))
    obtain ⟨all, stay⟩ := r.execAll_arm commands
      (spared.fewer _ fun name inside => List.mem_cons_of_mem _ inside)
    have armed : (r.arm faults).execRequest (.transaction commands) =
        (.ok (execAll exec commands (r.arm faults)).1,
          (execAll exec commands (r.arm faults)).2) := by
      simp only [execRequest, arm, ending]
    rw [armed, all]
    exact ⟨rfl, stay⟩
  | single command =>
    obtain ⟨all, stay⟩ := r.execAll_arm [command] spared
    exact ⟨congrArg (fun run => (Except.ok run.1, run.2)) all, stay⟩
  | pipeline commands =>
    obtain ⟨all, stay⟩ := r.execAll_arm commands spared
    exact ⟨congrArg (fun run => (Except.ok run.1, run.2)) all, stay⟩

end Rehearsal

namespace Stage

/-- A stage without the faults of its servers. -/
def unarmed (stage : Stage) : Stage :=
  { stage with servers := stage.servers.map (Rehearsal.arm []) }

/-- The faults of the servers. -/
def faults (stage : Stage) : List (List PreparedFault) := stage.servers.map (·.faults)

theorem calm_unarmed {stage : Stage} (alone : ∀ r ∈ stage.servers, r.interventions = []) :
    stage.unarmed.Calm := by
  intro r inside
  obtain ⟨r', there, rfl⟩ := List.mem_map.mp inside
  exact ⟨rfl, alone r' there⟩

/-- Without interventions a server is its node, with its faults. -/
theorem getElem?_servers {stage : Stage} (alone : ∀ r ∈ stage.servers, r.interventions = [])
    (i : Nat) : stage.servers[i]? = stage.network.nodes[i]?.map fun node =>
      ⟨node.password, node.keyspace, stage.faults[i]?.getD [], []⟩ := by
  rw [getElem?_network, faults, List.getElem?_map]
  cases found : stage.servers[i]? with
  | none => rfl
  | some r =>
    obtain ⟨password, keyspace, faults, interventions⟩ := r
    obtain rfl : interventions = [] := alone _ (List.mem_of_getElem? found)
    rfl

theorem network_unarmed (stage : Stage) : stage.unarmed.network = stage.network := by
  simp only [network, unarmed, List.map_map]
  rfl

/-- A request that meets no fault is answered as if there were none. -/
theorem serve_unarmed {stage : Stage} (server : Nat) {request : Request}
    (spared : ∀ faults ∈ stage.faults, Spares request.names faults) :
    (stage.serve server request).1 = (stage.unarmed.serve server request).1 ∧
      (stage.serve server request).2.unarmed = (stage.unarmed.serve server request).2 ∧
      (stage.serve server request).2.faults = stage.faults := by
  unfold Stage.serve
  cases found : stage.servers[server]? with
  | none =>
    have missing : stage.unarmed.servers[server]? = none := by
      simp [unarmed, found]
    rw [missing]
    exact ⟨rfl, rfl, rfl⟩
  | some r =>
    have there : stage.unarmed.servers[server]? = some (r.arm []) := by
      simp [unarmed, found]
    obtain ⟨ran, stays⟩ := r.execRequest_arm
      (spared _ (List.mem_map_of_mem (List.mem_of_getElem? found)))
    change r.execRequest request = _ at ran
    rw [there]
    simp only [ran]
    refine ⟨trivial, ?_, ?_⟩
    · simp only [unarmed, update, Stage.mk.injEq, and_true]
      refine List.ext_getElem? fun i => ?_
      simp only [List.getElem?_map, List.getElem?_modify]
      split
      · cases stage.servers[i]? with
        | none => rfl
        | some _ => exact congrArg some stays
      · simp
    · refine List.ext_getElem? fun i => ?_
      simp only [faults, update, List.getElem?_map, List.getElem?_modify]
      split
      · next same =>
        subst same
        rw [found]
        rfl
      · simp

end Stage

end Server

namespace Remote

open Server (PreparedFault Request Spares Stage)

/-! ## Runs without faults -/

/-- A site with some faults, and the same site without faults. -/
def Unarmed (faults : List (List PreparedFault)) (site site' : Site Stage) : Prop :=
  site.world.faults = faults ∧ site' = ⟨site.client, site.world.unarmed⟩

namespace Relates

variable {all : List (List PreparedFault)}

theorem unarmed_request (server : Nat) {r : Request}
    (spared : ∀ faults ∈ all, Spares r.names faults) :
    Relates (Unarmed all) (Unarmed all) (request server r) := by
  rintro site _ ⟨rfl, rfl⟩
  obtain ⟨answer, after, faults⟩ := Server.Stage.serve_unarmed server spared
  refine ⟨congrArg Except.ok answer, faults, ?_⟩
  exact congrArg (Site.mk site.client) after.symm

end Relates

/-- **A task that meets no fault,** on a stage without interventions, runs as on the network, and
the faults stay. -/
theorem Site.outcome_spared {α : Type} {site : Site Stage}
    (alone : ∀ r ∈ site.world.servers, r.interventions = []) {task : Task α}
    (spared : Relates (Unarmed site.world.faults) (Unarmed site.world.faults) task) :
    (site.outcome task).mapState onNetwork = site.onNetwork.outcome task ∧
      (site.outcome task).state.world.faults = site.world.faults ∧
      ∀ r ∈ (site.outcome task).state.world.servers, r.interventions = [] := by
  let plain : Site Stage := ⟨site.client, site.world.unarmed⟩
  obtain ⟨answer, faults, left⟩ := spared site plain ⟨rfl, rfl⟩
  obtain ⟨same, calm⟩ := plain.outcome_network (Stage.calm_unarmed alone) task
  have network : plain.onNetwork = site.onNetwork :=
    congrArg (Site.mk site.client) site.world.network_unarmed
  rw [left] at calm
  refine ⟨?_, faults, fun r inside => ?_⟩
  · rw [← network, ← same, Outcome.mapState, Outcome.mapState, answer, left]
    congr 1
    exact congrArg (Site.mk _) (Stage.network_unarmed _).symm
  · exact (calm _ (List.mem_map_of_mem inside)).interventions

/-- Sites with the same network and the same faults differ in the log only. -/
theorem Site.eq_of_onNetwork {site left : Site Stage}
    (alone : ∀ r ∈ site.world.servers, r.interventions = [])
    (alone' : ∀ r ∈ left.world.servers, r.interventions = [])
    (faults : left.world.faults = site.world.faults) (same : left.onNetwork = site.onNetwork) :
    left = ⟨site.client, { site.world with log := left.world.log }⟩ := by
  have network : left.world.network = site.world.network := congrArg Site.world same
  have servers : left.world.servers = site.world.servers := List.ext_getElem? fun i => by
    rw [Stage.getElem?_servers alone', Stage.getElem?_servers alone, network, faults]
  obtain ⟨client, ⟨_, listeners, log⟩⟩ := left
  obtain rfl : client = site.client := congrArg Site.client same
  obtain rfl : listeners = site.world.listeners := congrArg Server.Network.listeners network
  exact congrArg (fun servers => (⟨site.client, ⟨servers, _, log⟩⟩ : Site Stage)) servers

end Remote

end SeriesStorage
