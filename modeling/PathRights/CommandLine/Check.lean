import PathRights.CommandLine.Arguments
import PathRights.Config.Check
import PathRights.Disk
import PathRights.Text.Blank

/-!
Checking arguments before anything else is read: the paths that they name must exist, and every role
must have a name. Arguments that pass are a layer of configuration, which holds only what was given.
-/

namespace PathRights.CommandLine

/-- Why arguments cannot be used. -/
inductive ArgumentError where
  | rootMissing
  | rootNotFound (path : Text)
  | rootNotDirectory (path : Text)
  | configNotFound (path : Text)
  | configNotFile (path : Text)
  | rulesNotFound (path : Text)
  | roleWithoutName (role : Text)
  /-- The value of the switch for a role is blank. -/
  | blankRole
  /-- A path cannot even be looked for. -/
  | unavailable (error : FileError)
deriving DecidableEq, Repr

/-- The error in words. -/
def ArgumentError.message : ArgumentError → Text
  | .rootMissing =>
    "A tree ROOT is required unless --check is given\nUse --help for usage information"
  | .rootNotFound path => "Tree root does not exist: " ++ path
  | .rootNotDirectory path => "Tree root is not a directory: " ++ path
  | .configNotFound path => "Configuration file does not exist: " ++ path
  | .configNotFile path => "Configuration path is not a file: " ++ path
  | .rulesNotFound path => "Rules file does not exist: " ++ path
  | .roleWithoutName role => "Role must be given as NAME=SPEC: " ++ role
  | .blankRole => "'list' object has no attribute 'partition'"
  | .unavailable error => error.message

/-- The error is one that is foreseen, and not one of those behind which nothing more is said. -/
def ArgumentError.isForeseen : ArgumentError → Bool
  | .blankRole | .unavailable _ => false
  | _ => true

/-- A text that is given and not empty. -/
def given? (text : Option Text) : Option Text := text.filter fun text => !text.isEmpty

/-- The text that is given as the value of a switch and not empty. -/
def SwitchValue.given? (value : Option SwitchValue) : Option Text :=
  CommandLine.given? (value.bind SwitchValue.text?)

/-- What the path of an argument leads to. -/
def look (disk : Disk) (path : Text) : Except ArgumentError (Option DiskEntry) :=
  match disk.look (Path.tidy path) with
  | .error error => .error (.unavailable error)
  | .ok entry => .ok entry

/-- Checks the root, which may only be missing if nothing is walked over. -/
def checkRoot (disk : Disk) (root : Option Text) (check : Bool) : Except ArgumentError Unit :=
  match given? root with
  | none => if check then .ok () else .error .rootMissing
  | some path =>
    match look disk path with
    | .error error => .error error
    | .ok none => .error (.rootNotFound path)
    | .ok (some entry) => if entry.isFile then .error (.rootNotDirectory path) else .ok ()

/-- Checks the file of configuration. -/
def checkConfig (disk : Disk) (config : Option SwitchValue) : Except ArgumentError Unit :=
  match SwitchValue.given? config with
  | none => .ok ()
  | some path =>
    match look disk path with
    | .error error => .error error
    | .ok none => .error (.configNotFound path)
    | .ok (some entry) => if entry.isFile then .ok () else .error (.configNotFile path)

/-- The name of the standard input as a file of rules. -/
def standardInput : Text := "-"

/-- Checks the file of rules. -/
def checkRules (disk : Disk) (rules : Option SwitchValue) : Except ArgumentError Unit :=
  match SwitchValue.given? rules with
  | none => .ok ()
  | some path =>
    if path = standardInput then .ok ()
    else
      match look disk path with
      | .error error => .error error
      | .ok entry => if entry.any DiskEntry.isFile then .ok () else .error (.rulesNotFound path)

/-- The name and the specification of a role option, without the blanks around them. -/
def parseRole (role : Text) : Except ArgumentError (Text × Text) :=
  match role.breakAt (· == '=') with
  | none => .error (.roleWithoutName role)
  | some (name, _, spec) =>
    if (Text.trim name).isEmpty then .error (.roleWithoutName role)
    else .ok (Text.trim name, Text.trim spec)

/-- Adds the roles of options to others. A role that is given again keeps its place. -/
def addRoles (roles : Mapping) : List Text → Except ArgumentError Mapping
  | [] => .ok roles
  | role :: rest =>
    match parseRole role with
    | .error error => .error error
    | .ok (name, spec) => addRoles (roles.set (.str name) (.str spec)) rest

/-- The roles of options. -/
def parseRoles (roles : List Text) : Except ArgumentError Mapping := addRoles [] roles

/-- The roles of the values of switches. A blank value is an error behind those of the values in
front of it. -/
def rolesOfValues (values : List SwitchValue) : Except ArgumentError Mapping :=
  let texts := (values.takeWhile (· != .blank)).filterMap SwitchValue.text?
  match parseRoles texts with
  | .error error => .error error
  | .ok roles => if values.contains .blank then .error .blankRole else .ok roles

/-- The entry of a key that holds, if it holds something. -/
def entryIf (holds : Bool) (key : Text) (value : Value) : Mapping :=
  if holds then [(.str key, value)] else []

namespace Arguments

/-- Checks arguments. -/
def validate (arguments : Arguments) (disk : Disk) : Except ArgumentError Unit := do
  checkRoot disk arguments.root arguments.check
  checkConfig disk arguments.config
  checkRules disk arguments.rules
  discard (rolesOfValues (arguments.roles.getD []))

/-- What the arguments set for the log. -/
def logging (arguments : Arguments) : Mapping :=
  entryIf arguments.debug "level" (.str "DEBUG") ++
    match SwitchValue.given? arguments.logFile with
    | some path => [(.str "file", .str path)]
    | none => []

/-- The layer of configuration that the arguments are. -/
def config? (arguments : Arguments) : Except ArgumentError Mapping :=
  match rolesOfValues (arguments.roles.getD []) with
  | .error error => .error error
  | .ok roles =>
    let section_ : Mapping :=
      entryIf (!roles.isEmpty) "roles" (.map roles) ++
      (match SwitchValue.given? arguments.rules with
       | some path => [(.str "rules_file", .str path)]
       | none => []) ++
      entryIf arguments.dryRun "dry_run" (.bool true) ++
      entryIf arguments.verbose "verbose" (.bool true) ++
      entryIf (!arguments.logging.isEmpty) "logging" (.map arguments.logging)
    .ok [(.str Config.sectionKey, .map section_)]

end Arguments

end PathRights.CommandLine
