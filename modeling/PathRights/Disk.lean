import PathRights.Path
import PathRights.SystemError
import PathRights.Text.Lines
import PathRights.Text.Utf8

/-!
The files that a run reads and writes: configuration, rules and logs. A disk holds regular files and
directories by their places; relative paths start in the working directory. A path is followed
component by component, and every component but the last must be a directory.
-/

namespace PathRights

/-- What is at a place: a file with its bytes, a directory, or a file that cannot be opened, with
the error. -/
inductive DiskEntry where
  | file (bytes : List UInt8)
  | directory
  | unreadable (error : SystemError)
deriving DecidableEq, Repr

/-- The entry is a file, whether it can be opened or not. -/
def DiskEntry.isFile : DiskEntry → Bool
  | .directory => false
  | .file _ | .unreadable _ => true

/-- Files and directories by place, the place that relative paths start from, and the homes of users
by name; the user who runs has the empty name. Everything above an entry is a directory too. -/
structure Disk where
  workingDirectory : List Text
  homes : List (Text × Text)
  entries : List (List Text × DiskEntry)
deriving Repr

/-- Why a file cannot be read or written. -/
inductive FileError where
  | system (error : SystemError) (path : Text)
  | undecodable (fault : Text.Utf8Fault)
  /-- The path holds a null character. -/
  | nullInPath
  /-- The path starts in the home of a user, and the home is not known. -/
  | homeUnknown
deriving DecidableEq, Repr

/-- The error in words. -/
def FileError.message : FileError → Text
  | .system error path => error.describeFor path
  | .undecodable fault => fault.message
  | .nullInPath => Crash.nullCharacter.message
  | .homeUnknown => "Could not determine home directory."

namespace Disk

/-- The absolute form of a path. -/
def absolute (disk : Disk) (path : Text) : Text :=
  Path.absolute (Path.below "/" disk.workingDirectory) path

/-- The home that a path starts in whose first name is `~` and the name of a user. -/
def homeOf (disk : Disk) (user : Text) : Except FileError Text :=
  if user.contains '\x00' then .error .nullInPath
  else
    match disk.homes.lookup user with
    | none => .error .homeUnknown
    | some home => if home.head? = some '~' then .error .homeUnknown else .ok home

/-- The absolute form of a path, in which `~` in front, with the name of a user behind it, stands
for the home of that user. -/
def expand (disk : Disk) (path : Text) : Except FileError Text :=
  let path := Path.tidy path
  let absolute : Except FileError Text := match path.splitOn '/' with
    | ('~' :: user) :: names =>
      (disk.homeOf user).map fun home => disk.absolute (Path.below (home ++ "/") names)
    | _ => .ok (disk.absolute path)
  match absolute with
  | .error error => .error error
  | .ok absolute =>
    if path.contains '\x00' then .error .nullInPath else .ok (Path.withOneSlash absolute)

/-- The entry at a place. -/
def entry? (disk : Disk) (place : List Text) : Option DiskEntry :=
  match disk.entries.lookup place with
  | some entry => some entry
  | none =>
    if place.isPrefixOf disk.workingDirectory ||
        disk.entries.any (fun entry => place.isPrefixOf entry.1) then some .directory
    else none

/-- There is a directory at a place. -/
def isDirectoryAt (disk : Disk) (place : List Text) : Bool :=
  disk.entry? place == some .directory

/-- Goes on from a place along components. The last may name nothing yet. -/
def follow (disk : Disk) : (place : List Text) → (components : List Text) →
    Except SystemError (List Text)
  | place, [] => .ok place
  | place, component :: rest =>
    if !disk.isDirectoryAt place then
      .error (if (disk.entry? place).isNone then .noEntry else .notDirectory)
    else if component.isEmpty ∨ component = "." then follow disk place rest
    else if component = ".." then follow disk place.dropLast rest
    else if 255 < Text.utf8Length component then .error .nameTooLong
    else follow disk (place ++ [component]) rest

/-- The place that a path leads to, whether something is there or not. -/
def place (disk : Disk) (path : Text) : Except SystemError (List Text) :=
  if path.isEmpty then .error .noEntry
  else if 4096 ≤ Text.utf8Length path then .error .nameTooLong
  else
    follow disk (if path.head? = some '/' then [] else disk.workingDirectory) (path.splitOn '/')

/-- The entry that a path leads to. -/
def stat (disk : Disk) (path : Text) : Except SystemError DiskEntry :=
  match disk.place path with
  | .error error => .error error
  | .ok place =>
    match disk.entry? place with
    | some entry => .ok entry
    | none => .error .noEntry

/-- The entry that a path leads to, if any; an error that does not mean that there is none is
passed on. -/
def look (disk : Disk) (path : Text) : Except FileError (Option DiskEntry) :=
  if path.contains '\x00' then .ok none
  else
    match disk.stat path with
    | .ok entry => .ok (some entry)
    | .error .noEntry | .error .notDirectory => .ok none
    | .error error => .error (.system error path)

/-- The path leads to a regular file. -/
def isFile (disk : Disk) (path : Text) : Bool :=
  match disk.look path with
  | .ok (some entry) => entry.isFile
  | _ => false

/-- The bytes of the file that a path leads to. -/
def readBytes (disk : Disk) (path : Text) : Except FileError (List UInt8) :=
  if path.contains '\x00' then .error .nullInPath
  else
    match disk.stat path with
    | .error error => .error (.system error path)
    | .ok .directory => .error (.system .isDirectory path)
    | .ok (.unreadable error) => .error (.system error path)
    | .ok (.file bytes) => .ok bytes

/-- The text of bytes, with line feeds at the ends of its lines. -/
def textOfBytes (bytes : List UInt8) : Except FileError Text :=
  match Text.ofUtf8 bytes with
  | .error fault => .error (.undecodable fault)
  | .ok text => .ok text.normalizeNewlines

/-- The text of the file that a path leads to. -/
def readText (disk : Disk) (path : Text) : Except FileError Text :=
  match disk.readBytes path with
  | .error error => .error error
  | .ok bytes => textOfBytes bytes

/-! ### Writing -/

/-- The disk with an entry put at a place. -/
def put (disk : Disk) (place : List Text) (entry : DiskEntry) : Disk :=
  { disk with entries := (disk.entries.filter (·.1 != place)) ++ [(place, entry)] }

/-- The disk without the entry at a place. -/
def remove (disk : Disk) (place : List Text) : Disk :=
  { disk with entries := disk.entries.filter (·.1 != place) }

/-- The disk with the file at a place moved over another. -/
def rename (disk : Disk) (source target : List Text) : Disk :=
  match disk.entries.lookup source with
  | some entry => (disk.remove source).put target entry
  | none => disk

/-- The bytes of the file at a place; none if there is no file. -/
def bytesAt (disk : Disk) (place : List Text) : List UInt8 :=
  match disk.entries.lookup place with
  | some (.file bytes) => bytes
  | _ => []

/-- The disk with text added to the file at a place. -/
def append (disk : Disk) (place : List Text) (text : Text) : Disk :=
  disk.put place (.file (disk.bytesAt place ++ text.toUtf8))

/-- Opens a file to add to it, and makes it if there is none: its place, and the disk with it. -/
def openToAppend (disk : Disk) (path : Text) : Except FileError (List Text × Disk) :=
  if path.contains '\x00' then .error .nullInPath
  else
    match disk.place path with
    | .error error => .error (.system error path)
    | .ok place =>
      match disk.entry? place with
      | some .directory => .error (.system .isDirectory path)
      | some (.unreadable error) => .error (.system error path)
      | some (.file _) => .ok (place, disk)
      | none => .ok (place, disk.put place (.file []))

/-- The files directly in the working directory that another disk does not have, by name. -/
def newFiles (disk before : Disk) : List (Text × List UInt8) :=
  disk.entries.filterMap fun (place, entry) =>
    match entry, place.getLast? with
    | .file bytes, some name =>
      if place = disk.workingDirectory ++ [name] ∧ (before.entry? place).isNone then
        some (name, bytes)
      else none
    | _, _ => none

end Disk

end PathRights
