import PathRights.Config.Layers
import PathRights.Disk
import PathRights.Value.Reader

/-!
Loading layers of configuration from files, by a reader of the documents in them. A layer that
cannot be loaded is an error, and the layers stay as they are.
-/

namespace PathRights.Config

/-- Why a file gives no layer. -/
inductive LoadError where
  | notFound (path : Text)
  | unreadable (path : Text) (error : FileError)
  | malformed (path : Text)
  | notMapping (path : Text)
  /-- The file cannot even be looked for, or its bytes are no text. -/
  | unavailable (error : FileError)
  /-- The mapping in the file contains itself. -/
  | endless
  /-- The reader of the document fails. -/
  | readerFailed (fault : Crash)
deriving DecidableEq, Repr

namespace LoadError

/-- The error in words. -/
def message : LoadError → Text
  | .notFound path => "Config file not found: " ++ path
  | .unreadable path error => "Error loading config " ++ path ++ ": " ++ error.message
  | .malformed path => "YAML parse error in " ++ path
  | .notMapping path => "Invalid config format in " ++ path
  | .unavailable error => error.message
  | .endless => Crash.endless.message
  | .readerFailed fault => fault.message

/-- How a run ends that needs the file, unless nothing foresees the error. -/
def status? : LoadError → Option Status
  | .notFound _ => some .notFound
  | .unreadable .. => some .permissionDenied
  | .malformed _ | .notMapping _ => some .invalidInput
  | .unavailable _ | .endless | .readerFailed _ => none

end LoadError

/-- The mapping that a text holds, which was read from `path`. -/
def ofText (reader : Reader) (path text : Text) : Except LoadError Mapping :=
  match reader.read text with
  | .error .malformed => .error (.malformed path)
  | .error .endless => .error .endless
  | .error (.crash fault) => .error (.readerFailed fault)
  | .ok value =>
    match value.entries? with
    | none => .error (.notMapping path)
    | some entries => .ok entries

/-- The mapping in the file at `path`, whose absolute form is `place`. -/
def ofFileAt (reader : Reader) (disk : Disk) (path place : Text) : Except LoadError Mapping :=
  match disk.look place with
  | .error error => .error (.unavailable error)
  | .ok none => .error (.notFound path)
  | .ok (some _) =>
    match disk.readText place with
    | .error (.undecodable fault) => .error (.unavailable (.undecodable fault))
    | .error error => .error (.unreadable path error)
    | .ok text => ofText reader path text

/-- The mapping in a file. -/
def ofFile (reader : Reader) (disk : Disk) (path : Text) : Except LoadError Mapping :=
  match disk.expand path with
  | .error error => .error (.unavailable error)
  | .ok place => ofFileAt reader disk path place

namespace Layers

/-- The layers with the mapping of a file for one source. -/
def loadFile (layers : Layers) (reader : Reader) (disk : Disk) (path : Text) (source : Source) :
    Except LoadError Layers :=
  match ofFile reader disk path with
  | .error error => .error error
  | .ok mapping => .ok (layers.set source mapping)

end Layers

/-- Why the layers cannot be set up. -/
inductive StartError where
  | file (error : LoadError)
  | environment (error : EnvironmentError)
deriving Repr

/-- The defaults, with a file of the user and an environment, each if it is given. An empty path is
no file. -/
def Layers.start (reader : Reader) (disk : Disk) (file : Option Text)
    (environment : Option (List (Text × Text))) : Except StartError Layers :=
  let fileLayers : Except LoadError Layers := match file with
    | none | some [] => .ok Layers.initial
    | some path => Layers.initial.loadFile reader disk path .user
  match fileLayers with
  | .error error => .error (.file error)
  | .ok layers =>
    match environment with
    | none => .ok layers
    | some environment =>
      match layers.withEnvironment environment with
      | .error error => .error (.environment error)
      | .ok layers => .ok layers

end PathRights.Config
