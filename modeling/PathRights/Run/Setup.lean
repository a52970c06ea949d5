import PathRights.CommandLine.Check
import PathRights.Config.Loading
import PathRights.Log.Journal

/-!
Setting up a run: its configuration, merged from all sources and checked, and its journal.
-/

namespace PathRights.Run

open CommandLine

/-- Why a run has no configuration. -/
inductive ConfigurationError where
  | load (error : Config.LoadError)
  | environment (error : Config.EnvironmentError)
  | form (error : Config.FormError)
deriving Repr

namespace ConfigurationError

/-- The error in words. -/
def message : ConfigurationError → Text
  | .load error => error.message
  | .environment error => error.message
  | .form error => error.message

/-- How the run ends, unless nothing foresees the error. -/
def status? : ConfigurationError → Option Status
  | .load error => error.status?
  | .environment _ => none
  | .form error => if error.isForeseen then some .invalidInput else none

end ConfigurationError

/-- The layers with the configuration of the system, if its file is there. -/
def withSystemFile (reader : Reader) (layers : Config.Layers) (disk : Disk) (file : Option Text) :
    Except Config.LoadError Config.Layers :=
  match file with
  | none => .ok layers
  | some path => if disk.isFile path then layers.loadFile reader disk path .system else .ok layers

/-- The layers below the command line; `file` is the file of the user. -/
def lowerLayers (reader : Reader) (disk : Disk) (environment : List (Text × Text))
    (systemFile file : Option Text) : Except ConfigurationError Config.Layers :=
  match Config.Layers.start reader disk file (some environment) with
  | .error (.file error) => .error (.load error)
  | .error (.environment error) => .error (.environment error)
  | .ok layers =>
    match withSystemFile reader layers disk systemFile with
    | .error error => .error (.load error)
    | .ok layers => .ok layers

/-- The layers of all sources; `layer` is what the command line sets. A mapping of the user that
contains itself is met only when all layers are merged, behind whatever else fails. -/
def layers (reader : Reader) (disk : Disk) (environment : List (Text × Text))
    (systemFile file : Option Text) (layer : Mapping) : Except ConfigurationError Config.Layers :=
  match lowerLayers reader disk environment systemFile file with
  | .error (.load .endless) =>
    match lowerLayers reader disk environment systemFile none with
    | .error error => .error error
    | .ok _ => .error (.load .endless)
  | .error error => .error error
  | .ok layers => .ok (layers.set .commandLine (Config.merge [] layer))

/-- The configuration of a run, merged and checked. -/
def configuration (reader : Reader) (disk : Disk) (environment : List (Text × Text))
    (systemFile file : Option Text) (layer : Mapping) : Except ConfigurationError Mapping :=
  match layers reader disk environment systemFile file layer with
  | .error error => .error error
  | .ok layers =>
    match Config.check (.map layers.merged) with
    | .error error => .error (.form error)
    | .ok () => .ok layers.merged

/-- The section of a configuration that a run looks at. -/
def sectionOf (config : Mapping) : Mapping :=
  ((config.getText? Config.sectionKey).bind Value.entries?).getD []

/-- A value that is there and does not count as nothing. -/
def something? (value : Option Value) : Option Value := value.filter fun value => !value.isEmpty

/-! ### The journal -/

/-- Why a run has no journal. -/
inductive JournalError where
  | threshold (error : Log.ThresholdError)
  | file (error : FileError)
  | fileNotPath (value : Value)
deriving Repr

/-- The error in words. -/
def JournalError.message : JournalError → Text
  | .threshold error => error.message
  | .file error => error.message
  | .fileNotPath value => "expected str, bytes or os.PathLike object, not " ++ value.typeWord

/-- The name of the journal. -/
def journalName : Text := "treerights"

/-- The size that a log file stays below, ten mebibytes. -/
def logFileLimit : Nat := 10 * 1024 * 1024

/-- How many backups of a log file are kept. -/
def logFileBackups : Nat := 5

/-- What a configuration sets for the log. -/
def loggingOf (config : Mapping) : Mapping :=
  ((something? ((sectionOf config).getText? "logging")).bind Value.entries?).getD []

/-- The level of the journal: the lowest if the arguments ask for it, else the configured one. -/
def levelOf (arguments : Arguments) (config : Mapping) : Value :=
  if arguments.debug then .str "DEBUG"
  else ((loggingOf config).getText? "level").getD (.str "INFO")

/-- The log file that the arguments name, or else the configuration. -/
def logFileOf (arguments : Arguments) (config : Mapping) : Option Value :=
  match SwitchValue.given? arguments.logFile with
  | some path => some (.str path)
  | none => something? ((loggingOf config).getText? "file")

/-- Opens a log file and records it. -/
def openLogFile (journal : Log.Journal) (file : Value) (output : Log.Output) :
    Except JournalError Log.Output :=
  match file.path? with
  | none => .error (.fileNotPath file)
  | some path =>
    match output.openFile path logFileLimit logFileBackups with
    | .error error => .error (.file error)
    | .ok output => .ok (journal.log .debug ("Logging to file: " ++ file.text) [] output)

/-- The journal of a run. -/
def openJournal (arguments : Arguments) (config : Mapping) (time : Text) (output : Log.Output) :
    Except JournalError (Log.Journal × Log.Output) :=
  match Log.Threshold.ofValue (levelOf arguments config) with
  | .error error => .error (.threshold error)
  | .ok threshold =>
    let journal := Log.Journal.start journalName time threshold
    match logFileOf arguments config with
    | none => .ok (journal, output)
    | some file => (openLogFile journal file output).map (journal, ·)

end PathRights.Run
