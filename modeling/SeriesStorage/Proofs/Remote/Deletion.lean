import Mathlib.Data.List.Forall2
import SeriesStorage.Proofs.Remote.Creation

/-!
# Deleting series

A deletion loads all descriptors before it changes anything (`loadBatch_unchanged`), and then
removes them from one namespace after the other (`executeRemovals_one`, `Reaches.executeRemoval`).
-/

namespace SeriesStorage

namespace Remote

open Server (Keyspace Network Node Reply)

/-! ## Loading -/

namespace Preserves

variable {σ : Type} [World σ] {I : Site σ → Prop}

/-- Loading a descriptor preserves what asking for it does. -/
theorem loadRecord {ref : SeriesRef}
    (asked : ∀ server, Preserves I (request server (.single (.get (Key.descriptor ref)))))
    (connections : Connections) : Preserves I (loadMetadata connections ref) := by
  refine bind (ask _ _ _ _ asked) fun text => ?_
  cases text with
  | none => exact pure _
  | some text =>
    dsimp only
    split
    · exact pure _
    · exact throw _

theorem loadRecords {refs : List SeriesRef}
    (asked : ∀ ref ∈ refs, ∀ server,
      Preserves I (request server (.single (.get (Key.descriptor ref)))))
    (connections : Connections) : Preserves I (loadBatch connections refs) := by
  induction refs with
  | nil => exact pure _
  | cons ref rest ih =>
    refine bind (loadRecord (asked ref List.mem_cons_self) connections) fun found => ?_
    cases found with
    | none => exact throw _
    | some m =>
      refine ite_bind (throw _) (fun kept _ => kept) ?_
      exact bind (ih fun r inside => asked r (List.mem_cons_of_mem _ inside)) fun _ => pure _

/-- Asking for a text changes nothing. -/
theorem ask_get {α : Type} (site : Site Network) (connections : Connections)
    (ns : Namespace) (key : String) (read : Reply → Except Fault α) :
    Preserves (fun s => s = site) (Remote.ask connections ns (.get key) read) :=
  ask _ _ _ _ fun server => unchanged_single site server fun _ => id

end Preserves

theorem loadMetadata_unchanged (site : Site Network) (connections : Connections)
    (ref : SeriesRef) : Preserves (fun s => s = site) (loadMetadata connections ref) :=
  Preserves.loadRecord (fun server => Preserves.unchanged_single site server fun _ => id)
    connections

/-- Loading changes nothing, also if it fails. -/
theorem loadBatch_unchanged (site : Site Network) (connections : Connections)
    (refs : List SeriesRef) : Preserves (fun s => s = site) (loadBatch connections refs) :=
  Preserves.loadRecords (fun _ _ server => Preserves.unchanged_single site server fun _ => id)
    connections

/-- What was loaded are the descriptors of the batch. -/
theorem loadBatch_ok {site : Site Network} {connections : Connections} {refs : List SeriesRef}
    {metas : List SeriesMetadata}
    (h : (site.outcome (loadBatch connections refs)).answer = .ok metas) :
    List.Forall₂ (fun ref m => m.ns = ref.ns ∧
      (site.outcome (loadMetadata connections ref)).answer = .ok (some m)) refs metas := by
  induction refs generalizing metas with
  | nil =>
    obtain rfl := Except.ok.inj h
    exact .nil
  | cons ref rest ih =>
    unfold loadBatch at h
    rw [Site.outcome_bind] at h
    obtain ⟨found, first, others⟩ := Outcome.answer_andThen_eq_ok_iff.mp h
    rw [loadMetadata_unchanged site connections ref site rfl] at others
    cases found with
    | none => cases others
    | some m =>
      dsimp only at others
      split at others
      · cases others
      · next same =>
        rw [Site.outcome_bind] at others
        obtain ⟨more, loaded, last⟩ := Outcome.answer_andThen_eq_ok_iff.mp others
        obtain rfl := Except.ok.inj last
        exact .cons ⟨by simpa using same, first⟩ (ih loaded)

theorem exists_left_of_forall₂ {α β : Type} {R : α → β → Prop} {as : List α} {bs : List β}
    (h : List.Forall₂ R as bs) {b : β} (hb : b ∈ bs) : ∃ a ∈ as, R a b := by
  induction h with
  | nil => cases hb
  | @cons a b' as bs first _ ih =>
    rcases List.mem_cons.mp hb with rfl | hb
    · exact ⟨a, List.mem_cons_self, first⟩
    · obtain ⟨a', ha', rest⟩ := ih hb
      exact ⟨a', List.mem_cons_of_mem _ ha', rest⟩

/-! ## Removing -/

/-- Nobody expects a count of a removal. -/
theorem removal_unchecked (m : SeriesMetadata) : ∀ staged ∈ removal m, staged.expected = none := by
  simp [removal, StagedCommand.unchecked]

/-- Descriptors of one namespace are removed together. -/
theorem executeRemovals_one (connections : Connections) {metas : List SeriesMetadata}
    {ns : Namespace} (own : ∀ m ∈ metas, m.ns = ns) :
    executeRemovals connections metas (metas.map (·.ns)).eraseDups =
      execute connections ns (metas.flatMap removal) := by
  cases metas with
  | nil => rfl
  | cons first rest =>
    have one : ((first :: rest).map (·.ns)).eraseDups = [ns] := by
      have others : (rest.map (·.ns)).filter (fun n => !n == first.ns) = [] := by
        refine List.filter_eq_nil_iff.mpr fun n hn => ?_
        obtain ⟨m, hm, rfl⟩ := List.mem_map.mp hn
        simp [own m (List.mem_cons_of_mem _ hm), own first List.mem_cons_self]
      rw [List.map_cons, List.eraseDups_cons, others, own first List.mem_cons_self]
      rfl
    have all : (first :: rest).filter (fun m => m.ns = ns) = first :: rest :=
      List.filter_eq_self.mpr fun m hm => by simpa using own m hm
    rw [one]
    unfold executeRemovals
    rw [all]
    exact bind_pure_unit

/-- Descriptors are removed from the namespace that they belong to. -/
theorem Reaches.executeRemoval {site : Site Network} {connections : Connections} {ns : Namespace}
    {c : Connection} {node : Node} {cat : Catalogue} {metas : List SeriesMetadata}
    (h : Reaches site connections ns c node) (holds : Holds node.keyspace ns cat)
    (hns : ∀ m ∈ metas, m.ns = ns) (admitted : ∀ m ∈ metas, cat.Admits m) :
    ∃ ks, Holds ks ns (cat.removeAll metas) ∧ Confined ns node.keyspace ks ∧
      site.outcome (Remote.execute connections ns (metas.flatMap removal)) =
        .succeed () (site.setKeys c.server ks) := by
  obtain ⟨replies, last, runs, hlast, confined⟩ :=
    holds.removals node.password hns admitted
  refine ⟨last, hlast, confined, h.execute_unchecked runs fun staged hs => ?_⟩
  obtain ⟨m, _, hm⟩ := List.mem_flatMap.mp hs
  exact removal_unchecked m staged hm

end Remote

end SeriesStorage
