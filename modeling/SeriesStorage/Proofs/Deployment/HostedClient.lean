import Mathlib.Logic.Relation
import SeriesStorage.Proofs.Memory.ExpiredSeries

/-!
# A client among stores

A deployment may host one client of servers, and otherwise stores in memory.  Then events give the
client turns (`Turn`): it is visited, or it is asked for a series that turns out to be expired, and
what becomes of the series is decided elsewhere.

* `hosts_run`: whatever happens to the deployment, the client has taken some turns.
* `Hosts.visitAt`: if the client has expired series deleted from itself, a call at its place is one
  of its visits, with the same answer.
-/

namespace SeriesStorage

namespace Remote

open Server (Stage)

/-- What one event does to a client and its servers. -/
inductive Turn (site : Site Stage) : Site Stage → Prop
  | idle : Turn site site
  | visited (v : Visit) : Turn site (site.visit v).state
  | accessed (now : UInt64) (ref : SeriesRef) : Turn site (site.outcome (access now ref)).state

/-- A deletion is a visit. -/
theorem Turn.deleted (site : Site Stage) (refs : List SeriesRef) :
    Turn site (site.outcome (delete refs)).state := by
  have same : site.visit ⟨⟨0⟩, .delete refs⟩ = (site.outcome (delete refs)).map fun _ => .done :=
    Site.outcome_map site (delete refs) fun _ => Answer.done
  rw [← Outcome.state_map fun _ => Answer.done, ← same]
  exact .visited _

end Remote

namespace Deployment

open Memory (Store)
open Remote (Site Turn)
open Server (Stage)

/-- The backend at a place is a client, with the servers of the deployment, and all others are
stores. -/
structure Hosts (d : Deployment) (place : Nat) (site : Site Stage) (link : Option Link) : Prop where
  here : d.participants[place]? = some ⟨.remote site.client, link⟩
  stage : d.stage = site.world
  stores : ∀ k p, k ≠ place → d.participants[k]? = some p → p.backend.kind = .memory

/-- What a deployment does is what its client does, and it answers the same. -/
structure Plays {α : Type} (place : Nat) (link : Option Link) (outcome : Outcome Deployment α)
    (own : Outcome (Site Stage) α) : Prop where
  answer : outcome.answer = own.answer
  hosts : outcome.state.Hosts place own.state link

variable {d : Deployment} {place k : Nat} {site : Site Stage} {link : Option Link} {α β : Type}

/-- What the client at a place does. -/
theorem onBackend_remote {client : Remote.Client}
    (here : d.participants[place]? = some ⟨.remote client, link⟩)
    (memory : Store → Outcome Store α) (task : Remote.Task α) :
    let outcome := (⟨client, d.stage⟩ : Site Stage).outcome task
    d.onBackend place memory task = ⟨outcome.answer,
      { d.setBackend place (.remote outcome.state.client) with stage := outcome.state.world }⟩ := by
  unfold onBackend
  rw [here]
  rfl

namespace Plays

variable {outcome : Outcome Deployment α} {own : Outcome (Site Stage) α}

theorem map (h : Plays place link outcome own) (f : α → β) :
    Plays place link (outcome.map f) (own.map f) :=
  ⟨congrArg (Except.map f) h.answer, h.hosts⟩

theorem andThen (h : Plays place link outcome own) {next : α → Deployment → Outcome Deployment β}
    {next' : α → Site Stage → Outcome (Site Stage) β}
    (after : ∀ a d site, d.Hosts place site link → Plays place link (next a d) (next' a site)) :
    Plays place link (outcome.andThen next) (own.andThen next') := by
  cases answer : own.answer with
  | error e =>
    rw [Outcome.andThen_eq_of_error (h.answer.trans answer), Outcome.andThen_eq_of_error answer]
    exact ⟨rfl, h.hosts⟩
  | ok a =>
    rw [Outcome.andThen_eq_of_ok (h.answer.trans answer), Outcome.andThen_eq_of_ok answer]
    exact after a _ _ h.hosts

end Plays

namespace Hosts

/-- The place tells the client and its link. -/
theorem unique {site' : Site Stage} {link' : Option Link} (h : d.Hosts place site link)
    (h' : d.Hosts place site' link') : site = site' ∧ link = link' := by
  obtain ⟨client, world⟩ := site
  obtain ⟨client', world'⟩ := site'
  obtain ⟨same, rfl⟩ := Participant.mk.inj (Option.some.inj (h.here.symm.trans h'.here))
  obtain rfl : client = client' := Backend.remote.inj same
  obtain rfl : world = world' := h.stage.symm.trans h'.stage
  exact ⟨rfl, rfl⟩

/-! ## Calls of one backend -/

/-- What the client does. -/
theorem onBackend (h : d.Hosts place site link) (memory : Store → Outcome Store α)
    (task : Remote.Task α) :
    Plays place link (d.onBackend place memory task) (site.outcome task) := by
  rw [onBackend_remote h.here, h.stage]
  refine ⟨rfl, ?_, rfl, fun k p elsewhere found => ?_⟩
  · show (d.setBackend place _).participants[place]? = _
    rw [get?_setBackend, h.here, Option.map_some, if_pos rfl]
  · change (d.setBackend place _).participants[k]? = some p at found
    rw [get?_setBackend] at found
    obtain ⟨p', there, rfl⟩ := Option.map_eq_some_iff.mp found
    rw [if_neg (Ne.symm elsewhere)]
    exact h.stores k p' elsewhere there

/-- What a store does is nothing to the client. -/
theorem onBackend_elsewhere (h : d.Hosts place site link) (elsewhere : k ≠ place)
    (memory : Store → Outcome Store α) (task : Remote.Task α) :
    (d.onBackend k memory task).state.Hosts place site link := by
  unfold Deployment.onBackend
  split
  · exact h
  · next store link' found =>
    refine ⟨?_, h.stage, fun i p elsewhere' found' => ?_⟩
    · rw [get?_setBackend, h.here, Option.map_some, if_neg elsewhere]
    · rw [get?_setBackend] at found'
      obtain ⟨p', there, rfl⟩ := Option.map_eq_some_iff.mp found'
      split
      · rfl
      · exact h.stores i p' elsewhere' there
  · next client link' found =>
    exact absurd (h.stores k _ elsewhere found) nofun

theorem report (h : d.Hosts place site link) (refs : List SeriesRef) :
    (d.report refs).Hosts place site link :=
  ⟨h.here, h.stage, h.stores⟩

theorem setTime (h : d.Hosts place site link) (now : Instant) :
    (d.setTime now).Hosts place site link :=
  ⟨h.here, h.stage, h.stores⟩

/-- A deletion from whatever backend is a turn of the client. -/
theorem delete (h : d.Hosts place site link) (k : Nat) (refs : List SeriesRef) :
    ∃ site', Turn site site' ∧ (d.delete k refs).state.Hosts place site' link := by
  by_cases here : k = place
  · subst here
    exact ⟨_, .deleted site refs, (h.onBackend _ _).hosts⟩
  · exact ⟨site, .idle, h.onBackend_elsewhere here _ _⟩

/-! ## Expired series -/

/-- The client deletes its expired series itself. -/
theorem expire (h : d.Hosts place site link) (deletes : DeletesAt place link) (ref : SeriesRef) :
    Plays place link (d.expire place ref) (site.outcome (Remote.delete [ref])) := by
  unfold Deployment.expire
  rw [h.here, Option.bind_some]
  split
  · next deleter linked =>
    obtain rfl : deleter = .backend place := deletes ⟨deleter, true⟩ linked rfl
    exact (h.report [ref]).onBackend _ _
  · exact h.onBackend _ _

/-- Expired series of the client are deleted elsewhere, or not at all. -/
theorem expire_elsewhere (h : d.Hosts place site link) (spares : ¬ DeletesAt place link)
    (ref : SeriesRef) : (d.expire place ref).state.Hosts place site link := by
  unfold Deployment.expire
  rw [h.here, Option.bind_some]
  split
  · next deleter linked =>
    have reported := h.report [ref]
    cases deleter with
    | failing e => exact reported
    | idle => exact reported
    | backend k =>
      refine reported.onBackend_elsewhere (fun here => spares ?_) _ _
      intro l hl _
      obtain rfl := Option.some.inj (linked.symm.trans hl)
      rw [here]
  · next unlinked =>
    refine absurd (fun l hl alive => absurd ?_ (unlinked l.deleter)) spares
    rw [show link = some l from hl, ← alive]

/-- Expired series of stores may be deleted from the client. -/
theorem expire_store (h : d.Hosts place site link) (elsewhere : k ≠ place) (ref : SeriesRef) :
    ∃ site', Turn site site' ∧ (d.expire k ref).state.Hosts place site' link := by
  unfold Deployment.expire
  split
  · next deleter _ =>
    have reported := h.report [ref]
    cases deleter with
    | failing e => exact ⟨site, .idle, reported⟩
    | idle => exact ⟨site, .idle, reported⟩
    | backend j => exact reported.delete j [ref]
  · exact ⟨site, .idle, h.onBackend_elsewhere elsewhere _ _⟩

/-! ## Reads and writes -/

section Guarded

variable {act : SeriesMetadata → Deployment → Outcome Deployment α}
  {task : SeriesMetadata → Remote.Task α}

/-- A client that deletes its expired series goes through an access by itself. -/
theorem guarded (h : d.Hosts place site link) (deletes : DeletesAt place link)
    (acts : ∀ m d site, d.Hosts place site link →
      Plays place link (act m d) (site.outcome (task m))) (ref : SeriesRef) :
    Plays place link (d.guarded place ref act)
      (site.outcome (Remote.guarded d.now.seconds ref task)) := by
  unfold Deployment.guarded Remote.guarded
  rw [Site.outcome_bind]
  refine (h.onBackend _ _).andThen fun found d site h => ?_
  cases found with
  | live m => exact acts m d site h
  | unknown => exact ⟨rfl, h⟩
  | expired m =>
    dsimp only
    rw [Site.outcome_bind]
    exact (h.expire deletes ref).andThen fun _ d site h => ⟨rfl, h⟩

/-- Otherwise it does what it does with a live series, or nothing after the access. -/
theorem guarded_elsewhere (h : d.Hosts place site link) (spares : ¬ DeletesAt place link)
    (acts : ∀ m d site, d.Hosts place site link →
      Plays place link (act m d) (site.outcome (task m))) (ref : SeriesRef) :
    (d.guarded place ref act).state.Hosts place
        (site.outcome (Remote.guarded d.now.seconds ref task)).state link ∨
      (d.guarded place ref act).state.Hosts place
        (site.outcome (Remote.access d.now.seconds ref)).state link := by
  have accessed : Plays place link (d.access place ref)
      (site.outcome (Remote.access d.now.seconds ref)) := h.onBackend _ _
  unfold Deployment.guarded Remote.guarded
  rw [Site.outcome_bind]
  cases answer : (site.outcome (Remote.access d.now.seconds ref)).answer with
  | error e =>
    rw [Outcome.andThen_eq_of_error (accessed.answer.trans answer)]
    exact Or.inr accessed.hosts
  | ok found =>
    rw [Outcome.andThen_eq_of_ok (accessed.answer.trans answer), Outcome.andThen_eq_of_ok answer]
    cases found with
    | live m => exact Or.inl (acts m _ _ accessed.hosts).hosts
    | unknown => exact Or.inr accessed.hosts
    | expired m =>
      dsimp only
      rw [Outcome.andThen_fail_eq]
      exact Or.inr (accessed.hosts.expire_elsewhere spares ref)

/-- An access to a store. -/
theorem guarded_store (h : d.Hosts place site link) (elsewhere : k ≠ place)
    (acts : ∀ m d, d.Hosts place site link → (act m d).state.Hosts place site link)
    (ref : SeriesRef) :
    ∃ site', Turn site site' ∧ (d.guarded k ref act).state.Hosts place site' link := by
  have accessed : (d.access k ref).state.Hosts place site link :=
    h.onBackend_elsewhere elsewhere _ _
  unfold Deployment.guarded
  cases answer : (d.access k ref).answer with
  | error e =>
    rw [Outcome.andThen_eq_of_error answer]
    exact ⟨site, .idle, accessed⟩
  | ok found =>
    rw [Outcome.andThen_eq_of_ok answer]
    cases found with
    | live m => exact ⟨site, .idle, acts m _ accessed⟩
    | unknown => exact ⟨site, .idle, accessed⟩
    | expired m =>
      dsimp only
      rw [Outcome.andThen_fail_eq]
      exact accessed.expire_store elsewhere ref

end Guarded

/-! ## Visits -/

/-- A read and a write go through an access to their series, in a deployment as well as in its
client. -/
theorem exists_guarded {call : Call} {ref : SeriesRef} (accesses : call.accessed? = some ref) :
    ∃ (act : Nat → SeriesMetadata → Deployment → Outcome Deployment Answer)
        (task : SeriesMetadata → Remote.Task Answer),
      (∀ d k, Deployment.perform d k call = d.guarded k ref (act k)) ∧
      (∀ (site : Site Stage) time, site.visit ⟨time, call⟩ =
        site.outcome (Remote.guarded time.seconds ref task)) ∧
      ∀ {d place site link}, d.Hosts place site link →
        (∀ m, Plays place link (act place m d) (site.outcome (task m))) ∧
          ∀ k m, k ≠ place → (act k m d).state.Hosts place site link := by
  cases call with
  | write ref' req draws times values =>
    obtain rfl := Option.some.inj accesses
    refine ⟨_, _, fun _ _ => rfl, fun site time => Site.visit_write site time _ _ _ _ _,
      fun h => ⟨fun m => ?_, fun k m elsewhere => ?_⟩⟩
    · rw [Site.outcome_map]
      exact (h.onBackend _ _).map _
    · rw [Outcome.state_map]
      exact h.onBackend_elsewhere elsewhere _ _
  | read ref' window =>
    obtain rfl := Option.some.inj accesses
    refine ⟨_, _, fun _ _ => rfl, fun site time => Site.visit_read site time _ _,
      fun h => ⟨fun m => ?_, fun k m elsewhere => ?_⟩⟩
    · rw [Site.outcome_map]
      exact (h.onBackend _ _).map _
    · rw [Outcome.state_map]
      exact h.onBackend_elsewhere elsewhere _ _
  | _ => cases accesses

/-- A call that accesses no series is a call of one backend. -/
theorem perform_other {call : Call} (other : call.accessed? = none) (d : Deployment) (k : Nat) :
    d.perform k call = d.onBackend k (fun s => s.perform d.now.seconds call)
      (Remote.perform d.now.seconds call) := by
  cases call with
  | write ref req draws times values => cases other
  | read ref window => cases other
  | _ => rfl

/-- A call at the place of the client that accesses no series is a visit of the client. -/
theorem visitAt_other (h : d.Hosts place site link) {v : Visit} (other : v.call.accessed? = none) :
    Plays place link (d.visitAt place v) (site.visit v) := by
  unfold Deployment.visitAt
  rw [perform_other other]
  exact (h.setTime v.time).onBackend _ _

/-- **A call at the place of the client** is a visit of the client, if it has its expired series
deleted from itself. -/
theorem visitAt (h : d.Hosts place site link) (deletes : DeletesAt place link) (v : Visit) :
    Plays place link (d.visitAt place v) (site.visit v) := by
  cases accesses : v.call.accessed? with
  | none => exact h.visitAt_other accesses
  | some ref =>
    obtain ⟨act, task, performed, visited, acts⟩ := exists_guarded accesses
    unfold Deployment.visitAt
    rw [performed, visited site v.time]
    exact (h.setTime v.time).guarded deletes (fun m d site h => (acts h).1 m) ref

/-- **A call at any place** gives the client a turn. -/
theorem turn (h : d.Hosts place site link) (k : Nat) (v : Visit) :
    ∃ site', Turn site site' ∧ (d.visitAt k v).state.Hosts place site' link := by
  have timed := h.setTime v.time
  cases accesses : v.call.accessed? with
  | none =>
    by_cases here : k = place
    · subst here
      exact ⟨_, .visited v, (h.visitAt_other accesses).hosts⟩
    · unfold Deployment.visitAt
      rw [perform_other accesses]
      exact ⟨site, .idle, timed.onBackend_elsewhere here _ _⟩
  | some ref =>
    obtain ⟨act, task, performed, visited, acts⟩ := exists_guarded accesses
    by_cases here : k = place
    · subst here
      by_cases deletes : DeletesAt k link
      · exact ⟨_, .visited v, (h.visitAt deletes v).hosts⟩
      · unfold Deployment.visitAt
        rw [performed]
        rcases timed.guarded_elsewhere deletes (fun m d site h => (acts h).1 m) ref with
          visit | access
        · refine ⟨_, .visited v, ?_⟩
          rw [visited site v.time]
          exact visit
        · exact ⟨_, .accessed _ _, access⟩
    · unfold Deployment.visitAt
      rw [performed]
      exact timed.guarded_store here (fun m d h => (acts h).2 k m here) ref

theorem setLink (h : d.Hosts place site link) (k : Nat) (link' : Link) :
    ∃ link, (d.setLink k link').Hosts place site link := by
  have changed : ∀ i, (d.setLink k link').participants[i]? = d.participants[i]?.map fun p =>
      if k = i then { p with link := some link' } else p := by
    intro i
    simp [Deployment.setLink, List.getElem?_modify]
  refine ⟨if k = place then some link' else link, ?_, h.stage, fun i p elsewhere found => ?_⟩
  · rw [changed, h.here, Option.map_some]
    split <;> rfl
  · rw [changed] at found
    obtain ⟨p', there, rfl⟩ := Option.map_eq_some_iff.mp found
    have kept := h.stores i p' elsewhere there
    split <;> exact kept

end Hosts

/-- **Whatever happens** to a deployment, its client has taken some turns. -/
theorem hosts_run (h : d.Hosts place site link) (events : List Event) :
    ∃ site' link', (d.run events).2.Hosts place site' link' ∧
      Relation.ReflTransGen Turn site site' := by
  induction events generalizing d site link with
  | nil => exact ⟨site, link, h, .refl⟩
  | cons event rest ih =>
    cases event with
    | call k v =>
      obtain ⟨mid, turn, kept⟩ := h.turn k v
      obtain ⟨last, link', hosts, turns⟩ := ih kept
      exact ⟨last, link', hosts, .head turn turns⟩
    | link k link' =>
      obtain ⟨_, kept⟩ := h.setLink k link'
      exact ih kept

end Deployment

end SeriesStorage
