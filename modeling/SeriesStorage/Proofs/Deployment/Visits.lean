import SeriesStorage.Proofs.Remote.Site

/-!
# Visits to a lone backend

A visit is a call together with the instant at which it is made; between two visits the clock may go
in any direction.  A lone backend has no link, so it deals with expired series itself, and a visit
to it is one call of its store or of its client (`visit_lone_memory`, `visit_ofSite`).
-/

namespace SeriesStorage

/-- A call, and when it is made. -/
structure Visit where
  time : Instant
  call : Call

/-- A visit with what was answered to it. -/
abbrev TraceEntry := Visit × Except Error Answer

/-- Visits with their answers, in the order of time. -/
abbrev Trace := List TraceEntry

/-! ## Serving visits -/

namespace Deployment

/-- A backend without a link, and the servers that it may talk to. -/
def lone (backend : Backend) (stage : Server.Stage) (now : Instant) : Deployment :=
  { ofBackends [backend] now with stage }

/-- Serves a visit with the first backend. -/
def visit (d : Deployment) (v : Visit) : Outcome Deployment Answer :=
  (d.setTime v.time).perform 0 v.call

/-- Serves visits one after the other. -/
def visits (d : Deployment) : List Visit → Trace × Deployment
  | [] => ([], d)
  | v :: rest =>
    let outcome := d.visit v
    let (trace, d) := outcome.state.visits rest
    ((v, outcome.answer) :: trace, d)

end Deployment

/-- A call served from memory, with the clock of the visit. -/
def Memory.Store.visit (s : Memory.Store) (v : Visit) : Outcome Memory.Store Answer :=
  s.perform v.time.seconds v.call

/-- Visits served from memory. -/
def Memory.Store.visits (s : Memory.Store) : List Visit → Trace × Memory.Store
  | [] => ([], s)
  | v :: rest =>
    let outcome := s.visit v
    let (trace, s) := outcome.state.visits rest
    ((v, outcome.answer) :: trace, s)

namespace Remote.Site

variable {σ : Type} [World σ]

/-- A call served by talking to servers, with the clock of the visit. -/
def visit (site : Site σ) (v : Visit) : Outcome (Site σ) Answer :=
  site.outcome (Remote.perform v.time.seconds v.call)

/-- Visits served by talking to servers. -/
def visits (site : Site σ) : List Visit → Trace × Site σ
  | [] => ([], site)
  | v :: rest =>
    let outcome := site.visit v
    let (trace, site) := outcome.state.visits rest
    ((v, outcome.answer) :: trace, site)

end Remote.Site

/-! ## Lemmas -/

theorem Memory.Store.visits_append (s : Memory.Store) (before after : List Visit) :
    s.visits (before ++ after) = ((s.visits before).1 ++ ((s.visits before).2.visits after).1,
      ((s.visits before).2.visits after).2) := by
  induction before generalizing s with
  | nil => rfl
  | cons v rest ih => rw [List.cons_append, visits, ih (s.visit v).state]; rfl

theorem Memory.Store.map_guarded {α β : Type} (s : Memory.Store) (now : UInt64) (ref : SeriesRef)
    (act : Outcome Memory.Store α) (f : α → β) :
    (s.guarded now ref act).map f = s.guarded now ref (act.map f) := by
  unfold guarded
  cases s.access now ref with
  | live m => rfl
  | unknown => rfl
  | expired m => exact Outcome.map_andThen f _ _

theorem Memory.Store.visit_write (s : Memory.Store) (time : Instant) (ref : SeriesRef)
    (req : RequestId) (draws : Draws) (times : List UInt64) (values : List Binary64) :
    s.visit ⟨time, .write ref req draws times values⟩ = s.guarded time.seconds ref
      (.succeed .done (s.append ref (keyedValues draws times values))) :=
  map_guarded s time.seconds ref _ _

theorem Memory.Store.visit_read (s : Memory.Store) (time : Instant) (ref : SeriesRef)
    (window : Window) :
    s.visit ⟨time, .read ref window⟩ = s.guarded time.seconds ref
      (.answered ((s.pointsIn ref window).map .points) s) :=
  map_guarded s time.seconds ref _ _

namespace Remote

theorem map_guarded {α β : Type} (now : UInt64) (ref : SeriesRef)
    (act : SeriesMetadata → Task α) (f : α → β) :
    f <$> guarded now ref act = guarded now ref fun m => f <$> act m := by
  unfold guarded
  rw [map_bind]
  congr 1
  funext found
  cases found with
  | live m => rfl
  | unknown => rfl
  | expired m =>
    rw [map_bind]
    rfl

namespace Site

variable {σ : Type} [World σ]

theorem visit_write (site : Site σ) (time : Instant) (ref : SeriesRef) (req : RequestId)
    (draws : Draws) (times : List UInt64) (values : List Binary64) :
    site.visit ⟨time, .write ref req draws times values⟩ = site.outcome
      (guarded time.seconds ref fun m => (fun _ => Answer.done) <$>
        append ref.ns req m draws times values) := by
  rw [← map_guarded]
  rfl

theorem visit_read (site : Site σ) (time : Instant) (ref : SeriesRef) (window : Window) :
    site.visit ⟨time, .read ref window⟩ = site.outcome
      (guarded time.seconds ref fun _ => Answer.points <$> fetch ref window) := by
  rw [← map_guarded]
  rfl

theorem visits_append (site : Site σ) (before after : List Visit) :
    (site.visits (before ++ after)).2 = ((site.visits before).2.visits after).2 := by
  induction before generalizing site with
  | nil => rfl
  | cons v rest ih => exact ih (site.visit v).state

end Site

end Remote

namespace Deployment

theorem visits_append (d : Deployment) (before after : List Visit) :
    d.visits (before ++ after) = ((d.visits before).1 ++ ((d.visits before).2.visits after).1,
      ((d.visits before).2.visits after).2) := by
  induction before generalizing d with
  | nil => rfl
  | cons v rest ih => rw [List.cons_append, visits, ih (d.visit v).state]; rfl

/-! ### A lone store -/

theorem guarded_lone_memory {α : Type} (s : Memory.Store) (stage : Server.Stage) (now : Instant)
    (ref : SeriesRef) (act : SeriesMetadata → Deployment → Outcome Deployment α)
    (inner : Outcome Memory.Store α)
    (hact : ∀ m, act m (lone (.memory s) stage now) =
      inner.mapState fun s => lone (.memory s) stage now) :
    (lone (.memory s) stage now).guarded 0 ref act =
      (s.guarded now.seconds ref inner).mapState fun s => lone (.memory s) stage now := by
  have found : (lone (.memory s) stage now).access 0 ref =
      .succeed (s.access now.seconds ref) (lone (.memory s) stage now) := rfl
  unfold guarded Memory.Store.guarded
  rw [found, Outcome.andThen_succeed]
  cases s.access now.seconds ref with
  | live m => exact hact m
  | unknown => rfl
  | expired m =>
    have gone : (lone (.memory s) stage now).expire 0 ref =
      (s.delete [ref]).mapState fun s => lone (.memory s) stage now := rfl
    dsimp only
    rw [gone]
    exact Outcome.mapState_andThen (fun _ _ => by rfl) (s.delete [ref])

/-- A visit to a lone store is a call of the store. -/
theorem visit_lone_memory (s : Memory.Store) (stage : Server.Stage) (now : Instant) (v : Visit) :
    (lone (.memory s) stage now).visit v =
      (s.visit v).mapState fun s => lone (.memory s) stage v.time := by
  obtain ⟨time, call⟩ := v
  show (lone (.memory s) stage time).perform 0 call = _
  cases call with
  | write ref req draws times values =>
    rw [Memory.Store.visit_write]
    exact guarded_lone_memory s stage time ref _ _ (fun _ => by rfl)
  | read ref window =>
    rw [Memory.Store.visit_read]
    exact guarded_lone_memory s stage time ref _ _ (fun _ => by rfl)
  | _ => rfl

theorem visits_lone_memory (s : Memory.Store) (stage : Server.Stage) (now : Instant)
    (vs : List Visit) :
    ∃ last, (lone (.memory s) stage now).visits vs =
      ((s.visits vs).1, lone (.memory (s.visits vs).2) stage last) := by
  induction vs generalizing s now with
  | nil => exact ⟨now, rfl⟩
  | cons v rest ih =>
    obtain ⟨last, hlast⟩ := ih (s.visit v).state v.time
    refine ⟨last, ?_⟩
    simp only [visits, visit_lone_memory, Outcome.mapState, hlast, Memory.Store.visits]

/-! ### A lone client -/

/-- A lone client on its site. -/
def ofSite (now : Instant) (site : Remote.Site Server.Stage) : Deployment :=
  lone (.remote site.client) site.world now

theorem guarded_ofSite {α : Type} (site : Remote.Site Server.Stage) (now : Instant)
    (ref : SeriesRef) (act : SeriesMetadata → Deployment → Outcome Deployment α)
    (task : SeriesMetadata → Remote.Task α)
    (hact : ∀ m site, act m (ofSite now site) = (site.outcome (task m)).mapState (ofSite now)) :
    (ofSite now site).guarded 0 ref act =
      (site.outcome (Remote.guarded now.seconds ref task)).mapState (ofSite now) := by
  have accessed : (ofSite now site).access 0 ref =
    (site.outcome (Remote.access now.seconds ref)).mapState (ofSite now) := rfl
  unfold guarded Remote.guarded
  rw [Remote.Site.outcome_bind, accessed]
  refine Outcome.mapState_andThen (fun found site => ?_)
    (site.outcome (Remote.access now.seconds ref))
  cases found with
  | live m => exact hact m site
  | unknown => rfl
  | expired m =>
    have gone : (ofSite now site).expire 0 ref =
      (site.outcome (Remote.delete [ref])).mapState (ofSite now) := rfl
    dsimp only
    rw [Remote.Site.outcome_bind, gone]
    exact Outcome.mapState_andThen (fun _ _ => by rfl) (site.outcome (Remote.delete [ref]))

/-- A visit to a lone client is a call of the client. -/
theorem visit_ofSite (site : Remote.Site Server.Stage) (now : Instant) (v : Visit) :
    (ofSite now site).visit v = (site.visit v).mapState (ofSite v.time) := by
  obtain ⟨time, call⟩ := v
  show (ofSite time site).perform 0 call = _
  cases call with
  | write ref req draws times values =>
    rw [Remote.Site.visit_write]
    exact guarded_ofSite site time ref _ _ (fun _ _ => by
      rw [Remote.Site.outcome_map]; rfl)
  | read ref window =>
    rw [Remote.Site.visit_read]
    exact guarded_ofSite site time ref _ _ (fun _ _ => by
      rw [Remote.Site.outcome_map]; rfl)
  | _ => rfl

theorem visits_ofSite (site : Remote.Site Server.Stage) (now : Instant) (vs : List Visit) :
    ∃ last, (ofSite now site).visits vs = ((site.visits vs).1, ofSite last (site.visits vs).2) := by
  induction vs generalizing site now with
  | nil => exact ⟨now, rfl⟩
  | cons v rest ih =>
    obtain ⟨last, hlast⟩ := ih (site.visit v).state v.time
    refine ⟨last, ?_⟩
    simp only [visits, visit_ofSite, Outcome.mapState, hlast, Remote.Site.visits]

end Deployment

end SeriesStorage
