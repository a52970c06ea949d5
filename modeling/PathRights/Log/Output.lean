import PathRights.Disk
import PathRights.Log.File

/-!
Where the lines of a log go: to the console and to the log files that are open. A file that is
renamed keeps what is written to it, so that two log files at one place do not lose each other's
lines as long as the backups are kept.
-/

namespace PathRights.Log

/-- The lines on the console so far, the disk, the log files that are open, and the sizes in bytes
of the files that are written to and have lost their places. -/
structure Output where
  console : List Text
  disk : Disk
  files : List LogFile
  displaced : List Nat

namespace Output

/-- Lines on the console, and no log file. -/
def ofLines (lines : List Text) (disk : Disk) : Output := ⟨lines, disk, [], []⟩

/-- Opens a log file. The path in an error is the absolute one. -/
def openFile (output : Output) (path : Text) (limit backups : Nat) : Except FileError Output :=
  (output.disk.openToAppend (output.disk.absolute path)).map fun (place, disk) =>
    { output with disk, files := output.files ++ [.openAt place limit backups] }

/-- The size of the file that a stream leads to. -/
def sizeOf (output : Output) : Stream → Nat
  | .placed place => (output.disk.bytesAt place).length
  | .displaced number => (output.displaced[number]?).getD 0

/-- Adds text to the file that a stream leads to. -/
def append (output : Output) (stream : Stream) (text : Text) : Output :=
  match stream with
  | .placed place => { output with disk := output.disk.append place text }
  | .displaced number =>
    { output with displaced := output.displaced.modify number (· + text.toUtf8.length) }

/-- The log files that write to a place write to a stream from now on. -/
def redirect (output : Output) (place : List Text) (target : Stream) : Output :=
  { output with
    files := output.files.map fun file => { file with stream := file.stream.follow place target } }

/-- Removes the file at a place. Log files that write to it go on. -/
def discard (output : Output) (place : List Text) : Output :=
  { output.redirect place (.displaced output.displaced.length) with
    disk := output.disk.remove place
    displaced := output.displaced ++ [output.sizeOf (.placed place)] }

/-- Moves the file at a place, if there is one. Log files that write to it follow. -/
def move (output : Output) (source target : List Text) : Output :=
  { output.redirect source (.placed target) with disk := output.disk.rename source target }

/-- Moves the backups of a log file with the numbers from `count` down to one on by one number. -/
def shiftBackups (file : LogFile) (output : Output) : Nat → Output
  | 0 => output
  | number + 1 =>
    let source := file.backupPlace (number + 1)
    let target := file.backupPlace (number + 2)
    shiftBackups file
      (if (output.disk.entries.lookup source).isSome then (output.discard target).move source target
      else output) number

/-- Makes the file at the place of a log file the first backup. -/
def makeBackup (file : LogFile) (output : Output) : Output :=
  if file.backups = 0 then output
  else
    ((shiftBackups file output (file.backups - 1)).discard (file.backupPlace 1)).move file.place
      (file.backupPlace 1)

/-- Makes the file at the place of the log file with a number the first backup and starts a new one
there. -/
def rotate (output : Output) (number : Nat) (file : LogFile) : Output :=
  let output := makeBackup file output
  { output with
    disk := output.disk.append file.place []
    files := output.files.set number { file with stream := .placed file.place } }

/-- The size that the log file would have is too large. The characters of the line are counted, and
not its bytes. -/
def isFull (output : Output) (file : LogFile) (line : Text) : Bool :=
  0 < file.limit && file.limit ≤ output.sizeOf file.stream + line.length

/-- Writes a line to the log file with a number. -/
def writeTo (line : Text) (output : Output) (number : Nat) : Output :=
  match output.files[number]? with
  | none => output
  | some file =>
    if output.isFull file line then (output.rotate number file).append (.placed file.place) line
    else output.append file.stream line

/-- Writes a line everywhere. -/
def write (output : Output) (line : Text) : Output :=
  (List.range output.files.length).foldl (writeTo (line ++ "\n"))
    { output with console := output.console ++ [line] }

end Output

end PathRights.Log
