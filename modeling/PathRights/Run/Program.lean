import PathRights.Run.Normalize

/-!
The whole program as a function of the world that it is started in: the words of its command line,
the environment, the disk and the reader of documents, the standard input and the tree.
-/

namespace PathRights.Run

open CommandLine

/-- The world that the program is started in. The tree is at `site`, and the disk holds all other
files. -/
structure World where
  words : List Text
  environment : List (Text × Text)
  disk : Disk
  reader : Reader
  systemFile : Option Text
  input : Input
  accounts : Accounts
  site : Option Site
  /-- The user interrupts the program while it reads its configuration. -/
  interrupted : Bool
  time : Text

/-- Errors that nothing foresees, which end the program without an exit status of its own. -/
inductive Escape where
  | argument (error : ArgumentError)
  | configuration (error : ConfigurationError)
  | journal (error : JournalError)
deriving Repr

/-- The error in words. -/
def Escape.message : Escape → Text
  | .argument error => error.message
  | .configuration error => error.message
  | .journal error => error.message

/-- How the program ends. -/
inductive Ending where
  | exit (code : Nat)
  | early (early : EarlyEnd)
  | escape (error : Escape)
deriving Repr

/-- The version of the program. -/
def version : Text := "1.0.0"

/-- What is printed when the version is asked for. -/
def versionLine : Text := journalName ++ " " ++ version

/-- What is printed for a command line that is not understood. -/
def usageLine (error : UsageError) : Text := journalName ++ ": error: " ++ error.message

/-- What the program led to. -/
structure Report where
  ending : Ending
  output : Log.Output
  calls : List Call

namespace World

/-- Nothing is written yet. -/
def output (world : World) : Log.Output := .ofLines [] world.disk

/-- The program ends without any work done. -/
def stop (world : World) (ending : Ending) (lines : List Text) : Report :=
  ⟨ending, .ofLines lines world.disk, []⟩

/-- The program ends with an error before a journal is there to record it. -/
def fail (world : World) (status : Status) (message : Text) : Report :=
  world.stop (.exit status.code) ["Error: " ++ message]

/-- The program ends because of its arguments. -/
def refuse (world : World) (error : ArgumentError) : Report :=
  if error.isForeseen then world.fail .invalidInput error.message
  else world.stop (.escape (.argument error)) []

/-- Sets up the journal and runs. -/
def runWith (world : World) (arguments : Arguments) (config : Mapping) : Report :=
  match openJournal arguments config world.time world.output with
  | .error error => world.stop (.escape (.journal error)) []
  | .ok (journal, output) =>
    let result := run journal config world.accounts world.input world.site
      (arguments.root.getD []) arguments.check output
    ⟨.exit result.code, result.output, result.calls⟩

/-- Reads the configuration and runs. -/
def runArguments (world : World) (arguments : Arguments) (layer : Mapping) : Report :=
  if world.interrupted then world.stop (.exit interruptedCode) ["\nInterrupted by user"]
  else
    let file := SwitchValue.given? arguments.config
    match configuration world.reader world.disk world.environment world.systemFile file layer with
    | .error error =>
      match error.status? with
      | some status => world.fail status error.message
      | none => world.stop (.escape (.configuration error)) []
    | .ok config => world.runWith arguments config

end World

/-- The arguments of a command line and the layer of configuration that they are, once both are
checked. -/
def acceptArguments (arguments : Arguments) (disk : Disk) :
    Except ArgumentError (Arguments × Mapping) :=
  match arguments.validate disk with
  | .error error => .error error
  | .ok () =>
    match arguments.config? with
    | .error error => .error error
    | .ok layer => .ok (arguments, layer)

/-- The program. -/
def program (world : World) : Report :=
  match Arguments.ofTexts world.words with
  | .error early => world.stop (.early early) []
  | .ok arguments =>
    match acceptArguments arguments world.disk with
    | .error error => world.refuse error
    | .ok (arguments, layer) => world.runArguments arguments layer

end PathRights.Run
