import SeriesStorage.Proofs.Memory.SpentIds
import SeriesStorage.Proofs.Remote.CoherentKeys
import SeriesStorage.Proofs.Remote.KeptHistory

/-!
# Ids are never reused

As long as nothing is cleared, a lone store and a lone client give every id once, whatever is
deleted, expires and is created again.  So what is written to a series or read from it belongs to
the creation that its id was issued by, and a series that was removed stays unknown.
-/

namespace SeriesStorage

open Memory.Store in
/-- **Ids are never reused.**  Take visits to a lone backend of which none clears it, to a store
whose counter does not overflow or to a client on servers that are empty at first.  No id is issued
twice, in memory not even in different namespaces.  A series is written to and read only after its
id was issued, it stays unknown after it was deleted or found expired, and what is stored for it or
read from it was handed in for it. -/
theorem visits_never_reuse (start : Instant) (vs : List Visit) (marked : ∀ v ∈ vs, v.call.Marked)
    (keeps : ∀ v ∈ vs, v.call ≠ .clear) :
    (let (trace, d) := (Deployment.ofBackends [.memory .empty] start).visits vs
     createdCount trace < 0x10000000000000000 →
      ((trace.flatMap issuedBy).map (·.id)).Nodup ∧ Lifetimes trace ∧
        ∀ s ∈ d.stores, s.Sourced fun ref p => ∃ e ∈ trace, p ∈ handedTo ref e) ∧
      ∀ (options : Remote.Options) (stage : Server.Stage), stage.Calm →
        (∀ r ∈ stage.servers, r.keyspace = .empty) →
        let (trace, d) := (Deployment.lone (.remote (.ofOptions options)) stage start).visits vs
        (trace.flatMap issuedBy).Nodup ∧ Lifetimes trace ∧
          ∀ r ∈ d.stage.servers,
            Remote.HoldsGiven (fun ref p => ∃ e ∈ trace, p ∈ handedTo ref e) r.keyspace := by
  constructor
  · obtain ⟨last, run⟩ := Deployment.visits_lone_memory .empty ⟨[], [], []⟩ start vs
    change (Deployment.ofBackends [.memory .empty] start).visits vs = _ at run
    rw [run]
    intro room
    have nothing : ∀ ref : SeriesRef, ∀ p ∈ ([] : List AcceptedPoint), False := fun _ => nofun
    obtain ⟨given, history, sourced⟩ := tracked_empty.history nothing vs marked keeps room
    refine ⟨history.nodup, history.lifetimes ?_ fun _ _ => id, fun s inside => ?_⟩
    · rintro ref ⟨m, record, _⟩
      cases record
    · obtain rfl := List.mem_singleton.mp inside
      intro ref v stored
      obtain ⟨p, handed, same⟩ := sourced ref v stored
      exact ⟨p, ((history.given_iff ref p).mp handed).resolve_left id, same⟩
  · intro options stage calm empty
    let site : Remote.Site Server.Stage := ⟨.ofOptions options, stage⟩
    obtain ⟨last, run⟩ := Deployment.visits_ofSite site start vs
    change (Deployment.lone (.remote (.ofOptions options)) stage start).visits vs = _ at run
    obtain ⟨trace, reached, _⟩ := site.visits_network calm vs
    rw [run, trace]
    obtain ⟨cats, given, history, kept⟩ := (Remote.Curated.fresh options fun i node =>
      Server.Stage.keyspace_network empty).history vs marked keeps
    refine ⟨?_, history.lifetimes ?_ fun _ _ => id, fun r inside => ?_⟩
    · rw [← List.map_id (List.flatMap _ _)]
      exact history.nodup
    · rintro ref ⟨m, record⟩
      cases record
    · obtain ⟨i, found⟩ := List.mem_iff_getElem?.mp inside
      have there : (site.onNetwork.visits vs).2.world.nodes[i]? = some r.node := by
        rw [← reached]
        exact (Server.Stage.getElem?_network _ i).trans (congrArg _ found)
      refine (kept.stored i r.node there trivial).mono fun ref p handed => ?_
      exact ((history.given_iff ref p).mp handed).resolve_left id

/-- A series is created, written to, deleted and created again, and its old id is used once more. -/
def recreation : List Visit :=
  let create : Call := .create (fun _ => ⟨"token", 0⟩) [(⟨7⟩, ⟨⟨0⟩, "load", ["a"], some 1⟩)]
  let write (id : SeriesId) : Call := .write ⟨⟨0⟩, id⟩ .empty (fun _ _ => .zero) [5] [.ofUInt64 3]
  [⟨⟨0⟩, .connect⟩, ⟨⟨0⟩, create⟩, ⟨⟨0⟩, write ⟨1⟩⟩, ⟨⟨0⟩, .delete [⟨⟨0⟩, ⟨1⟩⟩]⟩, ⟨⟨0⟩, create⟩,
    ⟨⟨0⟩, write ⟨1⟩⟩, ⟨⟨0⟩, .read ⟨⟨0⟩, ⟨2⟩⟩ ⟨0, 10⟩⟩, ⟨⟨5000⟩, write ⟨2⟩⟩, ⟨⟨0⟩, write ⟨2⟩⟩]

/-- The series gets another id.  Nothing is found under it, and once it has expired nothing is
written to it, though the clock went back. -/
theorem visits_never_reuse_recreated :
    let stored := ((Deployment.ofBackends [.memory .empty] ⟨0⟩).visits recreation).1
    let sent := ((Deployment.lone (.remote (.ofOptions Remote.sharedOptions)) Remote.sharedServer
      ⟨0⟩).visits recreation).1
    (((stored.flatMap issuedBy).map (·.id)).Nodup ∧ Lifetimes stored) ∧
      ((sent.flatMap issuedBy).Nodup ∧ Lifetimes sent) ∧ stored.map (·.2) = sent.map (·.2) ∧
      sent.map (·.2) = [.ok .done, .ok (.created [⟨⟨7⟩, ⟨1⟩, true⟩]), .ok .done, .ok .done,
        .ok (.created [⟨⟨7⟩, ⟨2⟩, true⟩]), .error .metadataNotFound, .error .noDataFound,
        .error .seriesExpired, .error .metadataNotFound] := by
  intro stored sent
  obtain ⟨memory, remote⟩ := visits_never_reuse ⟨0⟩ recreation (by simp [recreation, Call.Marked])
    (by simp [recreation])
  obtain ⟨calm, empty⟩ := Server.Stage.calm_started
    (show Remote.sharedServer.servers = [""].map .withPassword from rfl)
  obtain ⟨unique, lifetimes, _⟩ := memory (by decide +kernel)
  obtain ⟨unique', lifetimes', _⟩ := remote Remote.sharedOptions Remote.sharedServer calm empty
  exact ⟨⟨unique, lifetimes⟩, ⟨unique', lifetimes'⟩, by decide +kernel, by decide +kernel⟩

end SeriesStorage
