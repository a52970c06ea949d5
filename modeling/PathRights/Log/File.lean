import PathRights.Text.Numeral

/-!
Log files that are open, with a limit on their size. A line that would bring a file to its limit
goes into a new file, and the old ones become numbered backups, of which only a given number is
kept.
-/

namespace PathRights.Log

/-- The file that an open log file writes to: the one at a place of the disk, or one that has lost
its place to another file and is known by a number. -/
inductive Stream where
  | placed (place : List Text)
  | displaced (number : Nat)
deriving DecidableEq, Repr

/-- The stream after the file at a place got another stream. -/
def Stream.follow (stream : Stream) (place : List Text) (target : Stream) : Stream :=
  if stream = .placed place then target else stream

/-- A log file: its place, the size in bytes that it must stay below, or zero for no limit, how many
backups are kept, and what it writes to at the moment. Without backups the file goes on whatever its
size is. -/
structure LogFile where
  place : List Text
  limit : Nat
  backups : Nat
  stream : Stream
deriving DecidableEq, Repr

namespace LogFile

/-- A log file that is opened at a place. -/
def openAt (place : List Text) (limit backups : Nat) : LogFile :=
  ⟨place, limit, backups, .placed place⟩

/-- The place of a numbered backup. -/
def backupPlace (file : LogFile) (number : Nat) : List Text :=
  file.place.dropLast ++ [(file.place.getLast?.getD []) ++ "." ++ Text.ofNat number]

end LogFile

end PathRights.Log
