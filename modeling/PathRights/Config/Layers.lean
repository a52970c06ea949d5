import PathRights.Config.Environment
import PathRights.Config.Merge

/-!
Layers of configuration. Each source has at most one mapping, and the mappings are merged from the
lowest source to the highest.
-/

namespace PathRights.Config

/-- Where a mapping comes from, from the lowest precedence to the highest. -/
inductive Source where
  | defaults
  | system
  | user
  | environment
  | commandLine
  | runtime
deriving DecidableEq, Repr

/-- The sources in ascending order. -/
def Source.all : List Source :=
  [.defaults, .system, .user, .environment, .commandLine, .runtime]

/-- A value is to be a layer and is no mapping. -/
structure NotMapping where
  value : Value
deriving Repr

/-- The error in words. -/
def NotMapping.message (error : NotMapping) : Text :=
  "'" ++ error.value.typeName ++ "' object has no attribute 'items'"

/-- The mappings by source. -/
abbrev Layers := Source → Option Mapping

namespace Layers

/-- The layers with the mapping of one source replaced. -/
def set (layers : Layers) (source : Source) (mapping : Mapping) : Layers :=
  fun s => if s = source then some mapping else layers s

/-- The layers with a value for one source, which must be a mapping; a copy of it is kept. -/
def loadValue (layers : Layers) (value : Value) (source : Source) : Except NotMapping Layers :=
  match value.entries? with
  | none => .error ⟨value⟩
  | some entries => .ok (layers.set source (merge [] entries))

/-- The merged configuration. -/
def merged (layers : Layers) : Mapping :=
  (Source.all.filterMap layers).foldl merge []

/-- What holds where nothing is configured. -/
def defaultConfig : Mapping :=
  [(.str sectionKey, .map
    [(.str "roles", .map []), (.str "rules_file", .str "-"), (.str "dry_run", .bool false),
     (.str "verbose", .bool false),
     (.str "logging", .map [(.str "level", .str "INFO"), (.str "file", .null)])])]

/-- The layers that hold the defaults alone. -/
def initial : Layers := fun source => if source = .defaults then some defaultConfig else none

/-- The layers with what an environment sets. -/
def withEnvironment (layers : Layers) (environment : List (Text × Text)) :
    Except EnvironmentError Layers :=
  match ofEnvironment environment with
  | .error error => .error error
  | .ok none => .ok layers
  | .ok (some mapping) => .ok (layers.set .environment mapping)

end Layers

end PathRights.Config
