import PathRights.Role.Registry
import PathRights.Run.Setup
import PathRights.Tree.Walk

/-!
A run: the roles are registered and the rules are read before anything is touched, and then the tree
is walked over, unless the run is only to check them. Whatever ends the run early is recorded.
-/

namespace PathRights.Run

open CommandLine

/-- What a run takes from its configuration. -/
structure Settings where
  roles : Mapping
  rulesFile : Text
  dryRun : Bool
  verbose : Bool

/-- The settings in a configuration. Where no file of rules is named, they are read from the
standard input. -/
def Settings.ofConfig (config : Mapping) : Settings :=
  let value (key : Text) : Option Value := something? ((sectionOf config).getText? key)
  { roles := ((value "roles").bind Value.entries?).getD []
    rulesFile := ((value "rules_file").bind Value.str?).getD standardInput
    dryRun := (value "dry_run").isSome
    verbose := (value "verbose").isSome }

/-! ### Rules -/

/-- Why the lines of the rules cannot be read. -/
inductive RuleInputError where
  | notFound (path : Text)
  | unreadable (path : Text) (error : FileError)
  | inputFailed (error : SystemError)
  /-- The standard input is no text. -/
  | undecodable (fault : Text.Utf8Fault)
  | nullInPath
deriving DecidableEq, Repr

/-- The error in words. -/
def RuleInputError.message : RuleInputError → Text
  | .notFound path => "Rules file not found: " ++ path
  | .unreadable path error => "Cannot read rules file " ++ path ++ ": " ++ error.message
  | .inputFailed error => "Cannot read rules from standard input: " ++ error.describe
  | .undecodable fault => fault.message
  | .nullInPath => FileError.nullInPath.message

/-- The standard input: its bytes, or the error with which reading it fails, and whether every form
of the end of a line counts in it, as in a file, or the line feed alone. -/
structure Input where
  content : Except SystemError (List UInt8)
  universal : Bool

/-- The lines of the standard input. -/
def inputLines (input : Input) : Except RuleInputError (List Text) :=
  match input.content with
  | .error error => .error (.inputFailed error)
  | .ok bytes =>
    match Text.ofUtf8 bytes with
    | .error fault => .error (.undecodable fault)
    | .ok text => .ok (if input.universal then text.normalizeNewlines else text).lines

/-- The lines of a file. -/
def fileLines (disk : Disk) (path : Text) : Except RuleInputError (List Text) :=
  match disk.readText path with
  | .ok text => .ok text.lines
  | .error (.system .noEntry _) => .error (.notFound path)
  | .error .nullInPath => .error .nullInPath
  | .error error => .error (.unreadable path error)

/-- The lines of the rules. -/
def ruleLines (disk : Disk) (input : Input) (source : Text) :
    Except RuleInputError (List Text) :=
  if source = standardInput then inputLines input else fileLines disk source

/-- The name of the rules in messages about their lines. -/
def sourceName (source : Text) : Text := if source = standardInput then "<stdin>" else source

/-! ### Faults -/

/-- What ends a run early. -/
inductive Fault where
  | role (error : RoleError)
  | input (error : RuleInputError)
  | table (error : RuleTableError)
  | walk (abort : Abort)
deriving Repr

namespace Fault

/-- The fault in words. -/
def message : Fault → Text
  | .role error => error.message
  | .input error => error.message
  | .table error => error.message
  | .walk abort => abort.message

/-- How a run ends after a fault: as foreseen, by interruption, or with an error that nothing
foresees, of which the kind is known. -/
inductive Course where
  | foreseen (status : Status)
  | interrupted
  | unforeseen (kind : Text)
deriving DecidableEq, Repr

/-- How the run ends. -/
def course : Fault → Course
  | .role error =>
    match error.status? with
    | some status => .foreseen status
    | none => .unforeseen Crash.nullCharacter.kind
  | .input (.notFound _) => .foreseen .notFound
  | .input (.unreadable ..) => .foreseen .permissionDenied
  | .input (.inputFailed _) => .foreseen .invalidInput
  | .input (.undecodable _) => .unforeseen "UnicodeDecodeError"
  | .input .nullInPath => .unforeseen Crash.nullCharacter.kind
  | .table _ => .foreseen .invalidInput
  | .walk .interrupt => .interrupted
  | .walk (.crash fault) => .unforeseen fault.kind
  | .walk abort => .foreseen abort.status

end Fault

/-- The exit status of an interrupted run. -/
def interruptedCode : Nat := 130

/-- The exit status of a run that ends in some way. -/
def Fault.Course.code : Fault.Course → Nat
  | .foreseen status => status.code
  | .interrupted => interruptedCode
  | .unforeseen _ => Status.internalError.code

/-- Records a fault. -/
def Fault.record (fault : Fault) (journal : Log.Journal) (output : Log.Output) : Log.Output :=
  match fault.course with
  | .foreseen _ => journal.log .error ("Fatal error: " ++ fault.message) [] output
  | .interrupted => journal.log .info "Interrupted by user" [] output
  | .unforeseen kind => journal.logError "Unexpected error" kind fault.message [] output

/-! ### Preparation -/

/-- Work that writes to a journal and may end with a fault. -/
abbrev Reporting := ExceptT Fault (StateM Log.Output)

namespace Reporting

/-- Records a message. -/
def say (journal : Log.Journal) (level : Log.Level) (message : Text) : Reporting Unit :=
  modify fun output => journal.log level message [] output

/-- Goes on with a result or ends with its error. -/
def require (fault : ε → Fault) : Except ε α → Reporting α
  | .ok a => pure a
  | .error error => throw (fault error)

end Reporting

/-- The roles and rules of a run. -/
structure Prepared where
  registry : Registry
  table : RuleTable
  givesModes : table.GivesModes

open Reporting in
/-- Registers the roles of a run. -/
def register (journal : Log.Journal) (accounts : Accounts) (roles : Mapping) :
    Reporting Registry := do
  say journal .debug "Creating RoleRegistry"
  let registry ← require .role (Registry.ofMapping accounts roles)
  registry.roles.forM fun role =>
    say journal .debug ("Role " ++ role.name ++ ": " ++ role.describe)
  return registry

open Reporting in
/-- Reads the rules of a run. Every faulty line is recorded. -/
def readRules (journal : Log.Journal) (registry : Registry) (input : Input) (source : Text) :
    Reporting {table : RuleTable // table.GivesModes} := do
  say journal .debug ("Loading rules from " ++ source)
  let lines ← require .input (ruleLines (← get).disk input source)
  match RuleTable.loadWithModes registry (sourceName source) lines with
  | .error error =>
    error.errors.forM fun lineError => say journal .error lineError.describe
    throw (.table error)
  | .ok table =>
    say journal .debug ("Loaded " ++ Text.ofNat table.1.size ++ " rules")
    return table

/-- Prepares a run. -/
def prepare (journal : Log.Journal) (accounts : Accounts) (input : Input) (settings : Settings) :
    Reporting Prepared := do
  let registry ← register journal accounts settings.roles
  let ⟨table, givesModes⟩ ← readRules journal registry input settings.rulesFile
  return ⟨registry, table, givesModes⟩

/-! ### The walk -/

/-- A tree at its absolute path. -/
structure Site where
  path : Text
  tree : Node

/-- The entry at an absolute path, if the path leads into the tree and the way is free. A path with
a null character is not even looked for. -/
def Site.entry? (site : Option Site) (path : Text) : Except Failure Node :=
  if '\x00' ∈ path then .error (.crash .nullCharacter)
  else
    match site with
    | none => .error (.system .noEntry)
    | some site =>
      match Path.namesBelow? site.path path with
      | none => .error (.system .noEntry)
      | some names => (site.tree.resolve names).mapError .system

/-- What a walk led to. -/
structure Walked where
  outcome : Except Abort Unit
  calls : List Call
  events : List Event

/-- Walks over the tree at a site. -/
def walkOver (walk : Walk) (site : Option Site) : Walked :=
  match Site.entry? site walk.rootPath with
  | .error failure => ⟨.error (.ofRoot walk.root failure), [], []⟩
  | .ok tree =>
    let (outcome, session) := walk.traverse tree
    ⟨outcome, session.calls, session.events⟩

/-- The walk that a run makes once it is prepared. -/
def walkOf (journal : Log.Journal) (settings : Settings) (root rootPath : Text)
    (prepared : Prepared) : Walk where
  table := prepared.table
  manner := ⟨settings.dryRun, settings.verbose, journal.threshold⟩
  root := root
  rootPath := rootPath
  givesModes := prepared.givesModes

/-- Records the events of a walk below `rootPath`. -/
def recordEvents (journal : Log.Journal) (rootPath : Text) (events : List Event)
    (output : Log.Output) : Log.Output :=
  let journal := journal.push [("root", .str rootPath)]
  events.foldl (fun output event => journal.emit (event.record journal.context) [] output) output

/-! ### The whole run -/

/-- What a run led to: the exit status, what was written, and the calls on the tree. -/
structure Result where
  code : Nat
  output : Log.Output
  calls : List Call

/-- The result of a run that ends early. -/
def Result.ofFault (journal : Log.Journal) (fault : Fault) (calls : List Call)
    (output : Log.Output) : Result :=
  ⟨fault.course.code, fault.record journal output, calls⟩

/-- Walks over the tree after the preparation. -/
def normalize (journal : Log.Journal) (settings : Settings) (prepared : Prepared)
    (site : Option Site) (root : Text) (output : Log.Output) : Result :=
  let rootPath := output.disk.absolute root
  let walked := walkOver (walkOf journal settings root rootPath prepared) site
  let output := recordEvents journal rootPath walked.events output
  match walked.outcome with
  | .ok () => ⟨Status.success.code, output, walked.calls⟩
  | .error abort => Result.ofFault journal (.walk abort) walked.calls output

/-- Records that everything is in order. -/
def confirm (journal : Log.Journal) (prepared : Prepared) (output : Log.Output) : Result :=
  let message := "Configuration OK: " ++ Text.ofNat prepared.registry.size ++ " roles, " ++
    Text.ofNat prepared.table.size ++ " rules"
  ⟨Status.success.code, journal.log .info message [] output, []⟩

/-- A run with a configuration: prepares, and then only confirms or walks over the tree. -/
def run (journal : Log.Journal) (config : Mapping) (accounts : Accounts) (input : Input)
    (site : Option Site) (root : Text) (check : Bool) (output : Log.Output) : Result :=
  let settings := Settings.ofConfig config
  match (prepare journal accounts input settings).run output with
  | (.error fault, output) => Result.ofFault journal fault [] output
  | (.ok prepared, output) =>
    if check then confirm journal prepared output
    else normalize journal settings prepared site root output

end PathRights.Run
