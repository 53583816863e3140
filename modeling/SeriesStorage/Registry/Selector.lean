import SeriesStorage.Registry.Options
import SeriesStorage.Deployment

/-!
# Choosing a backend

A strategy decides which backend serves a request, a selector which strategy is asked.  So far there
is one strategy, which routes everything to the only backend, and a selector asks its first
strategy.
-/

namespace SeriesStorage

/-- The backend that configured options describe; it is not connected yet. -/
def Backend.ofOptions (options : BackendOptions) : Except Error Backend := do
  match ← BackendKind.ofName options.kind with
  | .memory => return .memory .empty
  | .redis => return .remote (.ofOptions (← Remote.Options.ofJson (.object options.settings)))

/-- Decides which backend serves a request. -/
inductive Strategy
  /-- Everything goes to the backend at a place. -/
  | simple (backend : Nat)
deriving DecidableEq, Repr, Inhabited

namespace Strategy

def name : Strategy → String
  | .simple _ => "simple"

/-- The place of the backend that serves. -/
def backend : Strategy → Nat
  | .simple backend => backend

/-- The simple strategy over some backends, of which there has to be exactly one. -/
def simpleOver (backends : Nat) : Except Error Strategy :=
  match backends with
  | 0 => .error (.config .noBackend)
  | 1 => .ok (.simple 0)
  | _ => .error (.config .severalBackends)

/-- The strategy of a name over some backends; blanks around the name do not count. -/
def ofName (name : String) (backends : Nat) : Except Error Strategy :=
  let name := trim name
  if name = "" ∨ name = "simple" then simpleOver backends
  else .error (.config (.unknownStrategy name))

end Strategy

/-- What is known of a request when a backend is chosen. -/
structure RequestContext where
  ns : Namespace
  series : SeriesId
  req : RequestId
deriving DecidableEq, Repr, Inhabited

/-- The strategies that can be asked. -/
structure Selector where
  strategies : List Strategy
deriving DecidableEq, Repr, Inhabited

namespace Selector

/-- The strategy for a request. -/
def strategyFor (selector : Selector) (_ : RequestContext) : Except Error Strategy :=
  match selector.strategies with
  | [] => .error .noStrategy
  | strategy :: _ => .ok strategy

/-- The place of the backend for a request. -/
def backendFor (selector : Selector) (context : RequestContext) : Except Error Nat :=
  (selector.strategyFor context).map Strategy.backend

end Selector

end SeriesStorage
