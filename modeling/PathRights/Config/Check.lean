import PathRights.Log.Level
import PathRights.Role.Name
import PathRights.Value.Mapping

/-!
The form of a configuration. Only its form is checked here: the specifications of roles are read
when the registry is built. The checks go through the configuration in a fixed order, and the first
that fails is reported.
-/

namespace PathRights.Config

/-- The name of the section of a configuration that is looked at. -/
def sectionKey : Text := "treerights"

/-- What is wrong with the form of a configuration. -/
inductive FormError where
  | notMapping
  | sectionNotMapping
  | rolesNotMapping
  | badRoleName (error : Role.NameError)
  | specNotText (name : Text) (value : Value)
  | rulesFileNotText (value : Value)
  | flagNotBoolean (flag : Text) (value : Value)
  | loggingNotMapping
  | badLevel (value : Value)
  /-- What is wrong cannot be told: a number in the value has too many digits to be shown. -/
  | overlong
deriving Repr

/-- The names of all levels, as a list. -/
def levelNames : Value := .list (Log.Level.all.map fun level => .str level.name)

/-- The error in words. -/
def FormError.message : FormError → Text
  | .notMapping => "Configuration must be a dictionary"
  | .sectionNotMapping => "'" ++ sectionKey ++ "' section must be a dictionary"
  | .rolesNotMapping => "Roles must be a mapping of role name to spec"
  | .badRoleName error => error.message
  | .specNotText name value =>
    "Spec for role " ++ name.quoted ++ " must be string, got " ++ value.typeText
  | .rulesFileNotText value => "Rules file must be string: " ++ value.text
  | .flagNotBoolean flag value => "'" ++ flag ++ "' must be boolean: " ++ value.text
  | .loggingNotMapping => "Logging configuration must be a dictionary"
  | .badLevel value =>
    "Invalid log level: " ++ value.text ++ ". Must be one of " ++ levelNames.text
  | .overlong => Text.digitLimitMessage []

/-- The error, where the value that it shows can be shown. -/
def FormError.showing (value : Value) (error : FormError) : FormError :=
  if value.isShowable then error else .overlong

/-- The check foresees the error. -/
def FormError.isForeseen : FormError → Bool
  | .overlong => false
  | _ => true

/-- The entries of a part that may be missing. A value that counts as nothing is a missing part;
nothing is returned for any other value that is no mapping. -/
def part? (section_ : Mapping) (key : Text) : Option Mapping :=
  match section_.getText? key with
  | none => some []
  | some value => if value.isEmpty then some [] else value.entries?

/-- Checks the names and specifications of roles. -/
def checkRoles : Mapping → Except FormError Unit
  | [] => .ok ()
  | (name, spec) :: rest =>
    match Role.checkName (.scalar name) with
    | .error error => .error (.badRoleName error)
    | .ok name =>
      match spec.str? with
      | none => .error (.specNotText name spec)
      | some _ => checkRoles rest

/-- Checks the file that rules are read from. -/
def checkRulesFile (section_ : Mapping) : Except FormError Unit :=
  match section_.getText? "rules_file" with
  | none | some (.scalar .null) | some (.scalar (.str _)) => .ok ()
  | some value => .error (.showing value (.rulesFileNotText value))

/-- Checks a part that is true or false. -/
def checkFlag (section_ : Mapping) (flag : Text) : Except FormError Unit :=
  match section_.getText? flag with
  | none | some (.scalar (.bool _)) => .ok ()
  | some value => .error (.showing value (.flagNotBoolean flag value))

/-- The value, shown as text, is the name of a level in any case. -/
def isLevel (value : Value) : Bool := (Log.Level.ofName? value.text.upper).isSome

/-- Checks what is set for the log. -/
def checkLogging (section_ : Mapping) : Except FormError Unit :=
  match part? section_ "logging" with
  | none => .error .loggingNotMapping
  | some logging =>
    match logging.getText? "level" with
    | none | some (.scalar .null) => .ok ()
    | some value => if isLevel value then .ok () else .error (.showing value (.badLevel value))

/-- Checks the section. -/
def checkSection (section_ : Mapping) : Except FormError Unit := do
  match part? section_ "roles" with
  | none => .error .rolesNotMapping
  | some roles => checkRoles roles
  checkRulesFile section_
  checkFlag section_ "dry_run"
  checkFlag section_ "verbose"
  checkLogging section_

/-- Checks a configuration. -/
def check (config : Value) : Except FormError Unit :=
  match config.entries? with
  | none => .error .notMapping
  | some entries =>
    match entries.getText? sectionKey with
    | none => .ok ()
    | some value =>
      match value.entries? with
      | none => .error .sectionNotMapping
      | some section_ => checkSection section_

end PathRights.Config
