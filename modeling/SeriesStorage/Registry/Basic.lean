import SeriesStorage.Registry.InitTask
import SeriesStorage.Registry.Selector

/-!
# The registry

A registry holds the configured backends, the selector that routes requests to them, and the place
of the backend that holds descriptors, through which series are created, searched and deleted and to
which all backends report expired series.

A `RegistryPlan` collects what is configured; `assemble` makes a registry of it, `build` also
connects its backends, and `buildInBackground` lets each connect on its own and tells how that went.
-/

namespace SeriesStorage

/-- Backends that work together. -/
structure Registry where
  options : List BackendOptions
  selector : Selector
  /-- The place of the backend that holds descriptors. -/
  metadataStore : Nat
  deployment : Deployment

namespace Registry

/-- The place of the backend for a request. -/
def backendFor (registry : Registry) (context : RequestContext) : Except Error Nat :=
  registry.selector.backendFor context

/-- The place of the first backend with an identifier. -/
def find? (registry : Registry) (identifier : String) : Option Nat :=
  registry.options.findIdx? (·.identifier = identifier)

/-- Serves a call on the backend for a request. -/
def perform (registry : Registry) (context : RequestContext) (call : Call) :
    Outcome Registry Answer :=
  match registry.backendFor context with
  | .error e => .fail e registry
  | .ok i =>
    let outcome := registry.deployment.perform i call
    ⟨outcome.answer, { registry with deployment := outcome.state }⟩

/-- Serves a call on the backend that holds descriptors. -/
def performOnMetadata (registry : Registry) (call : Call) : Outcome Registry Answer :=
  let outcome := registry.deployment.perform registry.metadataStore call
  ⟨outcome.answer, { registry with deployment := outcome.state }⟩

end Registry

/-- What a registry is made of. -/
structure RegistryPlan where
  backends : List BackendOptions
  strategy : StrategyOptions
deriving Inhabited

namespace RegistryPlan

def empty : RegistryPlan := ⟨[], {}⟩

/-- Adds the backends of a configuration and takes its strategy. -/
def withConfig (plan : RegistryPlan) (config : StorageConfig) : RegistryPlan where
  backends := plan.backends ++ config.backends
  strategy := config.strategy

def addBackend (plan : RegistryPlan) (options : BackendOptions) : RegistryPlan :=
  { plan with backends := plan.backends ++ [options] }

def withStrategy (plan : RegistryPlan) (strategy : StrategyOptions) : RegistryPlan :=
  { plan with strategy }

/-- The place of the last backend that holds descriptors. -/
def metadataStore? (backends : List BackendOptions) : Option Nat :=
  (backends.zipIdx.reverse.find? fun (options, _) => options.holdsMetadata).map (·.2)

/-- Makes a registry whose backends are not connected yet.  Without any backend it gets the preset
one. -/
def assemble (plan : RegistryPlan) (now : Instant) : Except Error Registry := do
  let options := if plan.backends.isEmpty then [BackendOptions.preset] else plan.backends
  let backends ← options.mapM Backend.ofOptions
  let strategy ← Strategy.ofName plan.strategy.kind backends.length
  match metadataStore? options with
  | none => throw (.config .noMetadataStore)
  | some store =>
    let link : Link := { deleter := .backend store, alive := true }
    let deployment : Deployment :=
      { Deployment.ofBackends backends now with
        participants := backends.map fun backend => { backend, link := some link } }
    return { options, selector := ⟨[strategy]⟩, metadataStore := store, deployment }

/-- Connects the backends from place `i` on, up to the first that fails. -/
def connectFrom (d : Deployment) (i : Nat) : Nat → Except Error Deployment
  | 0 => .ok d
  | left + 1 =>
    let outcome := d.perform i .connect
    match outcome.answer with
    | .error e => .error e
    | .ok _ => connectFrom outcome.state (i + 1) left

/-- Makes a registry and connects its backends. -/
def build (plan : RegistryPlan) (now : Instant) : Except Error Registry := do
  let registry ← plan.assemble now
  let deployment ← connectFrom registry.deployment 0 registry.options.length
  return { registry with deployment }

/-- Lets the backends from place `i` on connect, each on its own. -/
def connectEach (d : Deployment) (i : Nat) : Nat → List InitState × Deployment
  | 0 => ([], d)
  | left + 1 =>
    let outcome := d.perform i .connect
    let ended : InitEvent := .ended (.returned (outcome.answer.map fun _ => ()))
    let (states, d) := connectEach outcome.state (i + 1) left
    (InitState.pending.after ended :: states, d)

/-- Makes a registry whose backends connect in the background, each within its time, and tells the
states in which that ended. -/
def buildInBackground (plan : RegistryPlan) (now : Instant) :
    Except Error (Registry × List InitState) := do
  let registry ← plan.assemble now
  let (states, deployment) := connectEach registry.deployment 0 registry.options.length
  return ({ registry with deployment }, states)

end RegistryPlan

end SeriesStorage
