import PathRights.Config.Check
import PathRights.Text.Case

/-!
Settings from environment variables. A variable whose name starts with `TREERIGHTS_` sets the key
that follows, in lower case; for roles and for the log, what follows the next `_` is a key inside
that part. The words for true and false are understood, except in the specifications of roles.
-/

namespace PathRights.Config

/-- What the names of the variables that count start with. -/
def variablePrefix : Text := "TREERIGHTS_"

/-- The parts of the section with keys of their own. -/
def nestedParts : List Text := ["roles".toList, "logging".toList]

/-- The variables of a block in which each is written as its name, an equals sign and its value, and
ended by a null character. -/
def variablesOfBlock (block : Text) : List (Text × Text) :=
  (block.splitOn '\x00').filterMap fun (entry : Text) =>
    (entry.breakAt (· == '=')).map fun (name, _, value) => (name, value)

/-- A part that has keys of its own was set to a plain value before. -/
structure EnvironmentError where
  value : Value
deriving Repr

/-- The error in words. -/
def EnvironmentError.message (error : EnvironmentError) : Text :=
  "'" ++ error.value.typeName ++ "' object does not support item assignment"

/-- The value that the text of a variable means. -/
def readWord (text : Text) : Value :=
  if ["true".toList, "yes".toList, "1".toList].contains text.lower then .bool true
  else if ["false".toList, "no".toList, "0".toList].contains text.lower then .bool false
  else .str text

/-- Sets a key inside a part of the section. -/
def setInside (section_ : Mapping) (part key : Text) (value : Value) :
    Except EnvironmentError Mapping :=
  match section_.getText? part with
  | none => .ok (section_.set (.str part) (.map [(.str key, value)]))
  | some (.map entries) =>
    .ok (section_.set (.str part) (.map (Mapping.set entries (.str key) value)))
  | some other => .error ⟨other⟩

/-- Adds what one variable sets, given its name behind the prefix in lower case. -/
def addSetting (section_ : Mapping) (name value : Text) : Except EnvironmentError Mapping :=
  match name.breakAt (· == '_') with
  | some (part, _, key) =>
    if nestedParts.contains part ∧ !key.isEmpty then
      setInside section_ part key (if part = "roles".toList then .str value else readWord value)
    else .ok (section_.set (.str name) (readWord value))
  | none => .ok (section_.set (.str name) (readWord value))

/-- Adds what one variable sets, if its name counts. -/
def addVariable (section_ : Mapping) (name value : Text) : Except EnvironmentError Mapping :=
  match variablePrefix.isPrefixOf? name with
  | none => .ok section_
  | some rest =>
    if (Text.lower rest).isEmpty then .ok section_ else addSetting section_ (Text.lower rest) value

/-- The section that variables set, one after the other. -/
def sectionOfVariables : Mapping → List (Text × Text) → Except EnvironmentError Mapping
  | section_, [] => .ok section_
  | section_, (name, value) :: rest =>
    match addVariable section_ name value with
    | .error error => .error error
    | .ok section_ => sectionOfVariables section_ rest

/-- The configuration that an environment sets, if it sets anything. -/
def ofEnvironment (environment : List (Text × Text)) : Except EnvironmentError (Option Mapping) :=
  match sectionOfVariables [] environment with
  | .error error => .error error
  | .ok section_ =>
    .ok (if section_.isEmpty then none else some [(.str sectionKey, .map section_)])

end PathRights.Config
