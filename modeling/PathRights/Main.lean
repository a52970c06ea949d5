import PathRights.Role.AccountFile
import PathRights.Run.Program
import PathRights.Tree.Command
import PathRights.Tree.Listing
import PathRights.Yaml.Node
import Std.Time.Format

/-!
The command line program. It reads what the command line and the configuration name, runs, and
writes what the run has written. The tree comes as a listing, from the file that the variable
`PATHRIGHTS_LISTING` names, and the calls on it are printed as commands, in the order in which they
are to be made.
-/

namespace PathRights.Shell

open CommandLine

/-- What is printed when help is asked for. -/
def help : Text :=
  "usage: treerights [-h] [-v] [-c FILE] [-r NAME=SPEC] [-f FILE] [-n] [--check]\n" ++
  "                  [--verbose] [--debug] [--log-file FILE] [ROOT]\n\n" ++
  "Assigns owners and modes to the entries of a tree from path rules.\n\n" ++
  "  -h, --help            show this text\n" ++
  "  -v, --version         show the version\n" ++
  "  -c, --config FILE     file of configuration\n" ++
  "  -r, --role NAME=SPEC  declare a role as user[:group],MODES, with MODES one of FFF,\n" ++
  "                        DDD/FFF, DDD/ or /FFF; may be given more than once\n" ++
  "  -f, --rules FILE      file of rules, or - for the standard input\n" ++
  "  -n, --dry-run         report changes and make none\n" ++
  "  --check               check roles and rules only\n" ++
  "  --verbose             report the decision on every entry\n" ++
  "  --debug               report everything\n" ++
  "  --log-file FILE       write the report to a file too\n\n" ++
  "The entries of the tree are read from the file that PATHRIGHTS_LISTING names, as\n" ++
  "`find ROOT -printf '%y %m %P\\0'` lists them.\n"

/-- The value of a variable. -/
def valueOf? (environment : List (Text × Text)) (name : Text) : Option Text :=
  environment.lookup name

/-- The bytes of a file, or none if it cannot be read. -/
def bytesOf (path : Text) : IO (List UInt8) := do
  try return (← IO.FS.readBinFile (String.ofList path)).toList
  catch _ => return []

/-- The text of a file, empty if it is none. -/
def textOf (path : Text) : IO Text := return (Text.ofUtf8 (← bytesOf path)).toOption.getD []

/-- The names on the way to a path. -/
def placeOf (disk : Disk) (path : Text) : List Text :=
  ((disk.absolute path).splitOn '/').filter (!·.isEmpty)

/-- Adds what is at a path to a disk. -/
def observe (disk : Disk) (path : Text) : IO Disk := do
  let place := placeOf disk path
  try
    let bytes ← IO.FS.readBinFile (String.ofList (disk.absolute path))
    return disk.put place (.file bytes.toList)
  catch
    | .inappropriateType .. => return disk.put place .directory
    | .noFileOrDirectory .. => return disk
    | .permissionDenied .. => return disk.put place (.unreadable .accessDenied)
    | _ => return disk.put place (.unreadable .inputOutput)

/-- Adds what is at the path of a log file, at its backups and above it. -/
def observeLogFile (disk : Disk) (path : Text) : IO Disk := do
  let backups := (List.range Run.logFileBackups).map fun n => path ++ "." ++ Text.ofNat (n + 1)
  (path :: (path ++ "/..") :: backups).foldlM observe disk

/-- Adds what the configuration names to a disk; the result also tells whether the rules come from
the standard input. -/
def observeConfigured (disk : Disk) (environment : List (Text × Text)) (systemFile : Text)
    (file : Option Text) (arguments : Arguments) (layer : Mapping) : IO (Disk × Bool) := do
  match Run.configuration Yaml.reader disk environment (some systemFile) file layer with
  | .error _ => return (disk, false)
  | .ok config =>
    let rules := (Run.Settings.ofConfig config).rulesFile
    let disk ← if rules = standardInput then pure disk else observe disk rules
    let logFile := (Run.logFileOf arguments config).bind Value.path?
    let disk ← logFile.toList.foldlM observeLogFile disk
    return (disk, rules = standardInput)

/-- Adds what the words name to a disk; the result also tells whether the rules come from the
standard input. -/
def observeNamed (disk : Disk) (environment : List (Text × Text)) (systemFile : Text)
    (words : List Text) : IO (Disk × Bool) := do
  match Arguments.ofTexts words with
  | .error _ => return (disk, false)
  | .ok arguments =>
    let paths := [given? arguments.root, SwitchValue.given? arguments.config,
      SwitchValue.given? arguments.rules]
    let disk ← (paths.filterMap id).foldlM observe disk
    match Run.acceptArguments arguments disk with
    | .error _ => return (disk, false)
    | .ok (arguments, layer) =>
      let file := SwitchValue.given? arguments.config
      let place := file.bind fun path => (disk.expand path).toOption
      observeConfigured (← place.toList.foldlM observe disk) environment systemFile file
        arguments layer

/-- The whole standard input. -/
partial def readAll (input : IO.FS.Stream) (read : ByteArray) : IO ByteArray := do
  let more ← input.read 65536
  if more.isEmpty then return read else readAll input (read ++ more)

/-- The standard input, if it is wanted. A line of it is ended by a line feed alone. -/
def readInput (wanted : Bool) : IO Run.Input := do
  if wanted then
    try return ⟨.ok (← readAll (← IO.getStdin) ByteArray.empty).toList, false⟩
    catch _ => return ⟨.error .inputOutput, false⟩
  else return ⟨.ok [], false⟩

/-- The place of the tree, with the tree that the listing holds. -/
def readSite (disk : Disk) (environment : List (Text × Text)) (words : List Text) :
    IO (Option Run.Site) := do
  match valueOf? environment "PATHRIGHTS_LISTING", Arguments.ofTexts words with
  | some path, .ok arguments =>
    let records := ((← textOf path).splitOn '\x00').filter (!·.isEmpty)
    return (Node.ofListing? records).map fun tree =>
      ⟨disk.absolute (arguments.root.getD []), tree⟩
  | _, _ => return none

/-- The world of the program. -/
def world (words : List Text) : IO Run.World := do
  let environment := Config.variablesOfBlock (← textOf "/proc/self/environ")
  let here := ((valueOf? environment "PWD").getD "/").splitOn '/'
  let users ← textOf "/etc/passwd"
  let own := (valueOf? environment "HOME").toList.map fun home => ([], home)
  let homes := own ++ Accounts.homesOfFile users
  let empty : Disk := ⟨here.filter (!·.isEmpty), homes, []⟩
  let systemFile : Text := "/etc/treerights/config.yaml"
  let (disk, wanted) ← observeNamed (← observe empty systemFile) environment systemFile words
  let input ← readInput wanted
  let accounts := (Accounts.ofFiles users (← textOf "/etc/group")).refusingNull
  let site ← readSite disk environment words
  let time := (← Std.Time.PlainDateTime.now).format "uuuu-MM-dd HH:mm:ss"
  return { words, environment, disk, reader := Yaml.reader, systemFile := some systemFile, input
           accounts, site, interrupted := false, time }

/-- Writes the files that a run has changed. -/
def writeFiles (before after : Disk) : IO Unit :=
  after.entries.forM fun (place, entry) => do
    match entry with
    | .file bytes =>
      unless before.entries.lookup place == some entry do
        IO.FS.writeBinFile (String.ofList (Path.below "/" place)) ⟨bytes.toArray⟩
    | _ => return

/-- Prints what an early end says, and returns the exit status. -/
def sayEarly : EarlyEnd → IO UInt32
  | .help => do
    IO.print (String.ofList help)
    return 0
  | .version => do
    IO.println (String.ofList Run.versionLine)
    return 0
  | .misuse error => do
    IO.eprintln (String.ofList (Run.usageLine error))
    return 2

/-- Prints and writes what a run has led to, and returns the exit status. -/
def finish (before : Disk) (report : Run.Report) : IO UInt32 := do
  report.output.console.forM fun line => IO.eprintln (String.ofList line)
  report.calls.forM fun call => IO.println (String.ofList call.command)
  writeFiles before report.output.disk
  match report.ending with
  | .exit code => return UInt32.ofNat code
  | .early early => sayEarly early
  | .escape error => do
    IO.eprintln (String.ofList error.message)
    return 1

end PathRights.Shell

/-- Runs the program on the words of its command line. -/
def main (words : List String) : IO UInt32 := do
  let world ← PathRights.Shell.world (words.map String.toList)
  PathRights.Shell.finish world.disk (PathRights.Run.program world)
