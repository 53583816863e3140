import SeriesStorage.Proofs.Memory.ExpiredSeries
import SeriesStorage.Registry.Basic

/-!
# Registries that are assembled

Three parts decide whether a registry can be assembled: whether each backend can be made of its
options, the strategy, which takes exactly one backend, and the search for the one that holds
descriptors.  `assemble_eq_ok_iff` says what they come to, and `assemble_config` that whatever else
is configured is an error of the configuration.

A registry is used by calls on the backend for a request and by calls on the backend that holds
descriptors (`Registry.Use`).  All that is built stays wired as it was assembled (`Wired`): there is
one backend, all calls go to it, and so do its own reports of expired series.
-/

namespace SeriesStorage

open Server (Stage)

/-! ## Backends that can be made -/

/-- The kind of a backend is known, and the settings of a remote one can be read. -/
def BackendOptions.Acceptable (options : BackendOptions) : Prop :=
  equalUpToCase options.kind "memory" = true ∨
    equalUpToCase options.kind "redis" = true ∧
      ∃ settings, Remote.Options.ofJson (.object options.settings) = .ok settings

/-- A call fails because of the configuration, if at all. -/
def OnlyConfig {α : Type} (result : Except Error α) : Prop :=
  ∀ e, result = .error e → ∃ cause, e = .config cause

theorem OnlyConfig.error {α : Type} (cause : ConfigDefect) :
    OnlyConfig (.error (.config cause) : Except Error α) :=
  fun _ failed => ⟨cause, (Except.error.inj failed).symm⟩

theorem OnlyConfig.bind {α β : Type} {result : Except Error α} {f : α → Except Error β}
    (first : OnlyConfig result) (next : ∀ a, OnlyConfig (f a)) : OnlyConfig (result >>= f) := by
  intro e failed
  cases result with
  | error e' =>
    obtain rfl : e' = e := Except.error.inj failed
    exact first e' rfl
  | ok a => exact next a e failed

theorem OnlyConfig.mapM {α β : Type} {f : α → Except Error β} (each : ∀ a, OnlyConfig (f a))
    (as : List α) : OnlyConfig (as.mapM f) := by
  induction as with
  | nil => exact nofun
  | cons a as ih =>
    rw [List.mapM_cons]
    exact (each a).bind fun b => ih.bind fun bs => nofun

theorem onlyConfig_ofName (name : String) : OnlyConfig (BackendKind.ofName name) := by
  unfold BackendKind.ofName
  split
  · exact nofun
  · split
    · exact nofun
    · exact .error _

theorem onlyConfig_ofJson (value : Json) : OnlyConfig (Remote.Options.ofJson value) := by
  unfold Remote.Options.ofJson
  split
  · exact .error _
  · split
    · exact .error _
    · exact .error _
    · dsimp only
      split
      · exact nofun
      · split
        · exact .error _
        · exact nofun

theorem onlyConfig_ofOptions (options : BackendOptions) : OnlyConfig (Backend.ofOptions options) := by
  refine (onlyConfig_ofName options.kind).bind fun kind => ?_
  cases kind with
  | memory => exact nofun
  | redis => exact (onlyConfig_ofJson _).bind fun _ => nofun

/-- A backend can be made of just those options that are acceptable. -/
theorem exists_ofOptions_iff (options : BackendOptions) :
    (∃ backend, Backend.ofOptions options = .ok backend) ↔ options.Acceptable := by
  unfold Backend.ofOptions BackendKind.ofName BackendOptions.Acceptable
  cases equalUpToCase options.kind "memory" with
  | true => exact ⟨fun _ => .inl rfl, fun _ => ⟨_, rfl⟩⟩
  | false =>
    cases equalUpToCase options.kind "redis" with
    | false => exact ⟨nofun, nofun⟩
    | true =>
      cases Remote.Options.ofJson (.object options.settings) with
      | error e => exact ⟨nofun, nofun⟩
      | ok settings => exact ⟨fun _ => .inr ⟨rfl, _, rfl⟩, fun _ => ⟨_, rfl⟩⟩

/-! ## Assembling -/

/-- The strategy is left open, or it is the simple one; blanks around its name do not count. -/
def StrategyOptions.IsSimple (options : StrategyOptions) : Prop :=
  trim options.kind = "" ∨ trim options.kind = "simple"

/-- A registry of one backend that was just made, which holds descriptors. -/
def Registry.single (options : BackendOptions) (backend : Backend) (now : Instant) : Registry where
  options := [options]
  selector := ⟨[.simple 0]⟩
  metadataStore := 0
  deployment := ⟨[⟨backend, some ⟨.backend 0, true⟩⟩], ⟨[], [], []⟩, now, []⟩

theorem Strategy.onlyConfig_ofName (name : String) (backends : Nat) :
    OnlyConfig (Strategy.ofName name backends) := by
  unfold Strategy.ofName Strategy.simpleOver
  dsimp only
  split
  · split
    · exact .error _
    · exact nofun
    · exact .error _
  · exact .error _

theorem Strategy.ofName_one {options : StrategyOptions} (simple : options.IsSimple) :
    Strategy.ofName options.kind 1 = .ok (.simple 0) := if_pos simple

/-- A strategy is found for one backend only, and if it is the simple one. -/
theorem Strategy.of_ofName {options : StrategyOptions} {backends : Nat} {strategy : Strategy}
    (found : Strategy.ofName options.kind backends = .ok strategy) :
    backends = 1 ∧ options.IsSimple := by
  unfold Strategy.ofName Strategy.simpleOver at found
  dsimp only at found
  split at found
  · next simple =>
    split at found
    · cases found
    · exact ⟨rfl, simple⟩
    · cases found
  · cases found

/-- Of calls in a row that succeed, the first one does. -/
theorem exists_of_bind {α β : Type} {first : Except Error α} {f : α → Except Error β} {b : β}
    (made : first >>= f = .ok b) : ∃ a, first = .ok a ∧ f a = .ok b := by
  cases first with
  | error e => cases made
  | ok a => exact ⟨a, rfl, made⟩

/-- A list of results has a result for each member. -/
theorem forall₂_of_mapM {α β : Type} {f : α → Except Error β} {as : List α} {bs : List β}
    (made : as.mapM f = .ok bs) : List.Forall₂ (fun a b => f a = .ok b) as bs := by
  induction as generalizing bs with
  | nil =>
    obtain rfl : [] = bs := Except.ok.inj made
    exact .nil
  | cons a as ih =>
    rw [List.mapM_cons] at made
    obtain ⟨b, first, made⟩ := exists_of_bind made
    obtain ⟨others, rest, made⟩ := exists_of_bind made
    obtain rfl : b :: others = bs := Except.ok.inj made
    exact .cons first (ih rest)

namespace RegistryPlan

variable {plan : RegistryPlan} {now : Instant} {r : Registry}

/-- What a registry is made of: without any backend, of the preset one. -/
def configured (plan : RegistryPlan) : List BackendOptions :=
  if plan.backends.isEmpty then [.preset] else plan.backends

/-- Backends are wired with the one that holds descriptors, if there is one. -/
def wire (options : List BackendOptions) (backends : List Backend) (strategy : Strategy)
    (now : Instant) : Except Error Registry :=
  match metadataStore? options with
  | none => .error (.config .noMetadataStore)
  | some store => .ok
    { options
      selector := ⟨[strategy]⟩
      metadataStore := store
      deployment :=
        ⟨backends.map fun backend => ⟨backend, some ⟨.backend store, true⟩⟩, ⟨[], [], []⟩, now, []⟩ }

theorem assemble_eq (plan : RegistryPlan) (now : Instant) :
    plan.assemble now = plan.configured.mapM Backend.ofOptions >>= fun backends =>
      Strategy.ofName plan.strategy.kind backends.length >>= fun strategy =>
        wire plan.configured backends strategy now := by
  unfold assemble wire
  dsimp only
  rw [configured]
  cases metadataStore? (if plan.backends.isEmpty then [BackendOptions.preset] else plan.backends)
  all_goals rfl

/-- **Whatever prevents a registry is an error of the configuration.** -/
theorem assemble_config (plan : RegistryPlan) (now : Instant) : OnlyConfig (plan.assemble now) := by
  rw [assemble_eq]
  refine (OnlyConfig.mapM onlyConfig_ofOptions _).bind fun backends => ?_
  refine (Strategy.onlyConfig_ofName _ _).bind fun strategy => ?_
  unfold wire
  split
  · exact .error _
  · exact nofun

/-- One backend is wired with itself if it holds descriptors. -/
theorem wire_single {options : BackendOptions} {backend : Backend} :
    wire [options] [backend] (.simple 0) now = .ok r ↔
      options.holdsMetadata = true ∧ r = .single options backend now := by
  obtain ⟨kind, identifier, holds, settings⟩ := options
  cases holds with
  | true => exact ⟨fun made => ⟨rfl, (Except.ok.inj made).symm⟩, fun ⟨_, same⟩ => same ▸ rfl⟩
  | false => exact ⟨nofun, nofun⟩

/-- **A registry can be assembled** just of one backend, which can be made and holds descriptors, and
of the simple strategy. -/
theorem assemble_eq_ok_iff : plan.assemble now = .ok r ↔
    ∃ options backend, plan.configured = [options] ∧ Backend.ofOptions options = .ok backend ∧
      options.holdsMetadata = true ∧ plan.strategy.IsSimple ∧ r = .single options backend now := by
  rw [assemble_eq]
  constructor
  · intro made
    obtain ⟨backends, each, made⟩ := exists_of_bind made
    obtain ⟨strategy, named, made⟩ := exists_of_bind made
    obtain ⟨single, simple⟩ := Strategy.of_ofName named
    rw [single, Strategy.ofName_one simple] at named
    obtain rfl := Except.ok.inj named
    obtain ⟨backend, rfl⟩ := List.length_eq_one_iff.mp single
    have each := forall₂_of_mapM each
    obtain ⟨options, one⟩ := List.length_eq_one_iff.mp each.length_eq
    rw [one] at made each
    obtain ⟨holds, rfl⟩ := wire_single.mp made
    cases each with
    | cons made _ => exact ⟨options, backend, one, made, holds, simple, rfl⟩
  · rintro ⟨options, backend, one, made, holds, simple, rfl⟩
    have all : [options].mapM Backend.ofOptions = .ok [backend] := by
      rw [List.mapM_cons, made]
      rfl
    rw [one, all]
    simp only [bind, Except.bind, List.length_singleton, Strategy.ofName_one simple]
    exact wire_single.mpr ⟨holds, rfl⟩

/-- What a registry can be made of: no backend, or just one, which can be made and holds descriptors,
and the simple strategy. -/
def Acceptable (plan : RegistryPlan) : Prop :=
  (plan.backends = [] ∨ ∃ options, plan.backends = [options] ∧ options.Acceptable ∧
    options.holdsMetadata = true) ∧ plan.strategy.IsSimple

theorem configured_eq_singleton {options : BackendOptions} : plan.configured = [options] ↔
    (plan.backends = [] ∧ options = .preset) ∨ plan.backends = [options] := by
  unfold configured
  cases plan.backends with
  | nil => simp [eq_comm]
  | cons first rest => simp

/-- A registry can be assembled just of what is acceptable. -/
theorem exists_assemble_iff (plan : RegistryPlan) (now : Instant) :
    (∃ r, plan.assemble now = .ok r) ↔ plan.Acceptable := by
  constructor
  · rintro ⟨r, made⟩
    obtain ⟨options, backend, one, accepted, holds, simple, _⟩ := assemble_eq_ok_iff.mp made
    refine ⟨(configured_eq_singleton.mp one).imp And.left fun listed => ?_, simple⟩
    exact ⟨options, listed, (exists_ofOptions_iff options).mp ⟨backend, accepted⟩, holds⟩
  · rintro ⟨none | ⟨options, listed, accepted, holds⟩, simple⟩
    · exact ⟨_, assemble_eq_ok_iff.mpr ⟨.preset, .memory .empty,
        configured_eq_singleton.mpr (.inl ⟨none, rfl⟩), rfl, rfl, simple, rfl⟩⟩
    · obtain ⟨backend, made⟩ := (exists_ofOptions_iff options).mpr accepted
      exact ⟨_, assemble_eq_ok_iff.mpr ⟨options, backend,
        configured_eq_singleton.mpr (.inr listed), made, holds, simple, rfl⟩⟩

/-- Nothing configured is as good as the preset backend. -/
theorem assemble_nil (strategy : StrategyOptions) (now : Instant) :
    assemble ⟨[], strategy⟩ now = assemble ⟨[.preset], strategy⟩ now := rfl

/-- What is not acceptable is an error of the configuration. -/
theorem assemble_refused (now : Instant) (refused : ¬ plan.Acceptable) :
    ∃ cause, plan.assemble now = .error (.config cause) := by
  cases result : plan.assemble now with
  | ok r => exact absurd ((exists_assemble_iff plan now).mp ⟨r, result⟩) refused
  | error e =>
    obtain ⟨cause, rfl⟩ := assemble_config plan now e result
    exact ⟨cause, rfl⟩

end RegistryPlan

/-! ## Kinds and links stay -/

namespace Deployment

/-- The kinds of all backends, and their links. -/
def wiring (d : Deployment) : List (BackendKind × Option Link) :=
  d.participants.map fun p => (p.backend.kind, p.link)

variable {d : Deployment} {place : Nat} {α : Type}

/-- A backend is replaced by one of its kind. -/
theorem wiring_setBackend {backend old : Backend} {link : Option Link}
    (here : d.participants[place]? = some ⟨old, link⟩) (same : backend.kind = old.kind) :
    (d.setBackend place backend).wiring = d.wiring := by
  refine List.ext_getElem? fun k => ?_
  unfold wiring
  rw [List.getElem?_map, List.getElem?_map, get?_setBackend]
  by_cases there : place = k
  · subst there
    rw [here, Option.map_some, Option.map_some, Option.map_some, if_pos rfl, same]
  · cases d.participants[k]? with
    | none => rfl
    | some p => rw [Option.map_some, if_neg there]

theorem wiring_onBackend (d : Deployment) (place : Nat)
    (memory : Memory.Store → Outcome Memory.Store α) (task : Remote.Task α) :
    (d.onBackend place memory task).state.wiring = d.wiring := by
  unfold onBackend
  split
  · rfl
  · next here => exact wiring_setBackend here rfl
  · next here => exact wiring_setBackend here rfl

theorem wiring_expire (d : Deployment) (place : Nat) (ref : SeriesRef) :
    (d.expire place ref).state.wiring = d.wiring := by
  unfold expire
  split
  · next deleter _ =>
    cases deleter with
    | backend k => exact wiring_onBackend (d.report [ref]) k _ _
    | failing e => rfl
    | idle => rfl
  · exact wiring_onBackend d place _ _

theorem wiring_guarded {act : SeriesMetadata → Deployment → Outcome Deployment α}
    (acts : ∀ m d, (act m d).state.wiring = d.wiring) (ref : SeriesRef) :
    (d.guarded place ref act).state.wiring = d.wiring := by
  have accessed : (d.access place ref).state.wiring = d.wiring := wiring_onBackend d place _ _
  unfold guarded
  cases answer : (d.access place ref).answer with
  | error e =>
    rw [Outcome.andThen_eq_of_error answer]
    exact accessed
  | ok found =>
    rw [Outcome.andThen_eq_of_ok answer]
    cases found with
    | live m => exact (acts m _).trans accessed
    | unknown => exact accessed
    | expired m =>
      dsimp only
      rw [Outcome.andThen_fail_eq]
      exact (wiring_expire _ place ref).trans accessed

/-- No call changes the kind of a backend, or a link. -/
theorem wiring_perform (d : Deployment) (place : Nat) (call : Call) :
    (d.perform place call).state.wiring = d.wiring := by
  cases call with
  | write ref req draws times values =>
    unfold perform
    refine wiring_guarded (fun m d => ?_) ref
    rw [Outcome.state_map]
    exact wiring_onBackend d place _ _
  | read ref window =>
    unfold perform
    refine wiring_guarded (fun m d => ?_) ref
    rw [Outcome.state_map]
    exact wiring_onBackend d place _ _
  | _ => exact wiring_onBackend d place _ _

end Deployment

/-! ## Using a registry -/

namespace Registry

/-- What is done with a registry: a call on the backend for a request, or on the one that holds
descriptors. -/
inductive Use
  | request (context : RequestContext) (v : Visit)
  | metadata (v : Visit)

def Use.visit : Use → Visit
  | .request _ v => v
  | .metadata v => v

def setTime (r : Registry) (now : Instant) : Registry :=
  { r with deployment := r.deployment.setTime now }

/-- Serves what is done, with its clock. -/
def use (r : Registry) : Use → Outcome Registry Answer
  | .request context v => (r.setTime v.time).perform context v.call
  | .metadata v => (r.setTime v.time).performOnMetadata v.call

/-- The registry after all that is done with it. -/
def uses (r : Registry) (us : List Use) : Registry := us.foldl (fun r u => (r.use u).state) r

/-- The same registry with servers that its backends may talk to. -/
def among (r : Registry) (stage : Stage) : Registry :=
  { r with deployment := { r.deployment with stage } }

end Registry

/-- Registries that are built among servers: assembled and not connected, connected with success,
or connected in the background however that ended. -/
inductive RegistryPlan.Builds (plan : RegistryPlan) (now : Instant) (stage : Stage) :
    Registry → Prop
  | assembled {r : Registry} : plan.assemble now = .ok r → Builds plan now stage (r.among stage)
  | connected {r : Registry} {d : Deployment} : plan.assemble now = .ok r →
      connectFrom (r.among stage).deployment 0 r.options.length = .ok d →
      Builds plan now stage { r with deployment := d }
  | inBackground {r : Registry} : plan.assemble now = .ok r → Builds plan now stage
      { r with deployment := (connectEach (r.among stage).deployment 0 r.options.length).2 }

/-- One backend of a kind with its options, to which all calls and all its own reports go. -/
structure Registry.Wired (r : Registry) (options : BackendOptions) (kind : BackendKind) : Prop where
  only : r.options = [options]
  known : BackendKind.ofName options.kind = .ok kind
  selector : r.selector = ⟨[.simple 0]⟩
  metadataStore : r.metadataStore = 0
  wiring : r.deployment.wiring = [(kind, some ⟨.backend 0, true⟩)]

/-- A backend is of the kind that its options name. -/
theorem kind_of_ofOptions {options : BackendOptions} {backend : Backend}
    (made : Backend.ofOptions options = .ok backend) :
    BackendKind.ofName options.kind = .ok backend.kind := by
  unfold Backend.ofOptions at made
  obtain ⟨kind, named, made⟩ := exists_of_bind made
  rw [named]
  cases kind with
  | memory =>
    obtain rfl := Except.ok.inj made
    rfl
  | redis =>
    obtain ⟨settings, _, made⟩ := exists_of_bind made
    obtain rfl := Except.ok.inj made
    rfl

/-- A backend that was just made is empty or not connected. -/
theorem backend_of_ofOptions {options : BackendOptions} {backend : Backend}
    (made : Backend.ofOptions options = .ok backend) :
    backend = .memory .empty ∨ ∃ settings, backend = .remote (.ofOptions settings) := by
  unfold Backend.ofOptions at made
  obtain ⟨kind, named, made⟩ := exists_of_bind made
  cases kind with
  | memory => exact .inl (Except.ok.inj made).symm
  | redis =>
    obtain ⟨settings, _, made⟩ := exists_of_bind made
    exact .inr ⟨settings, (Except.ok.inj made).symm⟩

namespace Registry

variable {r : Registry} {options : BackendOptions} {kind : BackendKind}

theorem wired_single {options : BackendOptions} {backend : Backend}
    (made : Backend.ofOptions options = .ok backend) (now : Instant) (stage : Stage) :
    ((single options backend now).among stage).Wired options backend.kind :=
  ⟨rfl, kind_of_ofOptions made, rfl, rfl, rfl⟩

namespace Wired

/-- The backend at the only place, with its link. -/
theorem participant (h : r.Wired options kind) : ∃ backend, backend.kind = kind ∧
    r.deployment.participants = [⟨backend, some ⟨.backend 0, true⟩⟩] := by
  obtain ⟨participant, only, same⟩ := List.map_eq_singleton_iff.mp h.wiring
  obtain ⟨backend, link⟩ := participant
  obtain ⟨rfl, rfl⟩ := Prod.mk.inj same
  exact ⟨backend, rfl, only⟩

theorem backendFor (h : r.Wired options kind) (context : RequestContext) :
    r.backendFor context = .ok 0 := by
  unfold Registry.backendFor
  rw [h.selector]
  rfl

/-- The backend is found by the identifier of its options. -/
theorem find? (h : r.Wired options kind) : r.find? options.identifier = some 0 := by
  unfold Registry.find?
  rw [h.only]
  simp

/-- Another deployment with the same wiring. -/
theorem withDeployment (h : r.Wired options kind) {d : Deployment}
    (same : d.wiring = r.deployment.wiring) :
    Wired { r with deployment := d } options kind :=
  ⟨h.only, h.known, h.selector, h.metadataStore, same.trans h.wiring⟩

/-- Whatever is done with the registry is a call of its backend. -/
theorem use_eq (h : r.Wired options kind) (u : Use) :
    r.use u = ⟨(r.deployment.visitAt 0 u.visit).answer,
      { r with deployment := (r.deployment.visitAt 0 u.visit).state }⟩ := by
  cases u with
  | request context v =>
    have chosen : (r.setTime v.time).backendFor context = .ok 0 := h.backendFor context
    show (r.setTime v.time).perform context v.call = _
    unfold perform
    rw [chosen]
    rfl
  | metadata v =>
    obtain ⟨all, selector, store, deployment⟩ := r
    obtain rfl : store = 0 := h.metadataStore
    rfl

theorem use (h : r.Wired options kind) (u : Use) : (r.use u).state.Wired options kind := by
  rw [h.use_eq]
  exact h.withDeployment (Deployment.wiring_perform _ _ _)

/-- **A registry stays wired**, whatever is done with it. -/
theorem uses (h : r.Wired options kind) (us : List Use) : (r.uses us).Wired options kind := by
  induction us generalizing r with
  | nil => exact h
  | cons u us ih => exact ih (h.use u)

/-- What is done with the registry are calls of its backend. -/
theorem run_uses (h : r.Wired options kind) (us : List Use) :
    (r.uses us).deployment = (r.deployment.run (us.map fun u => .call 0 u.visit)).2 := by
  induction us generalizing r with
  | nil => rfl
  | cons u us ih =>
    refine (ih (h.use u)).trans ?_
    rw [h.use_eq]
    rfl

end Wired

end Registry

/-- **Whatever is built** is a registry of one backend, which was called at most once since it was
made, and wired as it was assembled. -/
theorem RegistryPlan.Builds.wired {plan : RegistryPlan} {now : Instant} {stage : Stage}
    {r : Registry} (h : plan.Builds now stage r) : ∃ options backend events,
      Backend.ofOptions options = .ok backend ∧ r.Wired options backend.kind ∧
      r.deployment =
        (((Registry.single options backend now).among stage).deployment.run events).2 := by
  cases h with
  | assembled made =>
    obtain ⟨options, backend, _, accepted, _, _, rfl⟩ := assemble_eq_ok_iff.mp made
    exact ⟨options, backend, [], accepted, Registry.wired_single accepted now stage, rfl⟩
  | @connected r d made ran =>
    obtain ⟨options, backend, _, accepted, _, _, rfl⟩ := assemble_eq_ok_iff.mp made
    have wired := Registry.wired_single accepted now stage
    have called : (((Registry.single options backend now).among stage).deployment.perform 0
        .connect).state = d := by
      change connectFrom _ 0 1 = _ at ran
      unfold connectFrom at ran
      dsimp only at ran
      split at ran
      · cases ran
      · exact Except.ok.inj ran
    refine ⟨options, backend, [.call 0 ⟨now, .connect⟩], accepted, ?_, called.symm⟩
    rw [← called]
    exact wired.withDeployment (Deployment.wiring_perform _ _ _)
  | inBackground made =>
    obtain ⟨options, backend, _, accepted, _, _, rfl⟩ := assemble_eq_ok_iff.mp made
    exact ⟨options, backend, [.call 0 ⟨now, .connect⟩], accepted,
      (Registry.wired_single accepted now stage).withDeployment
        (Deployment.wiring_perform _ _ _), rfl⟩

/-- Where there are no servers, a registry is built as it is among none. -/
theorem RegistryPlan.builds_of_build {plan : RegistryPlan} {now : Instant} {r : Registry}
    (built : plan.build now = .ok r) : plan.Builds now ⟨[], [], []⟩ r := by
  obtain ⟨assembled, made, built⟩ := exists_of_bind built
  obtain ⟨d, ran, built⟩ := exists_of_bind built
  obtain rfl := Except.ok.inj built
  refine .connected made ?_
  obtain ⟨options, backend, _, _, _, _, rfl⟩ := assemble_eq_ok_iff.mp made
  exact ran

theorem RegistryPlan.builds_of_buildInBackground {plan : RegistryPlan} {now : Instant}
    {r : Registry} {states : List InitState}
    (built : plan.buildInBackground now = .ok (r, states)) : plan.Builds now ⟨[], [], []⟩ r := by
  obtain ⟨assembled, made, built⟩ := exists_of_bind built
  obtain ⟨rfl, _⟩ := Prod.mk.inj (Except.ok.inj built)
  have there : Builds plan now ⟨[], [], []⟩ _ := .inBackground made
  obtain ⟨options, backend, _, _, _, _, rfl⟩ := assemble_eq_ok_iff.mp made
  exact there

end SeriesStorage
