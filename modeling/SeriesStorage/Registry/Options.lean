import SeriesStorage.Json.Value

/-!
# Configured backends

What a configuration says about backends and about the strategy that picks one of them.  Settings
that only one kind of backend understands are free-form values by name.
-/

namespace SeriesStorage

/-- Free-form settings by name. -/
abbrev Settings := List (String × Json)

/-- A configured backend. -/
structure BackendOptions where
  /-- The name of its kind. -/
  kind : String
  identifier : String := ""
  /-- The backend holds the descriptors of series. -/
  holdsMetadata : Bool := false
  settings : Settings := []
deriving Repr, Inhabited

/-- The backend that is used if none is configured. -/
def BackendOptions.preset : BackendOptions where
  kind := "memory"
  identifier := "default"
  holdsMetadata := true

/-- The configured strategy. -/
structure StrategyOptions where
  kind : String := ""
  settings : Settings := []
deriving Repr, Inhabited

/-- All that a configuration says. -/
structure StorageConfig where
  backends : List BackendOptions := []
  strategy : StrategyOptions := {}
deriving Repr, Inhabited

end SeriesStorage
