import PathRights.Status
import PathRights.Text.Quoted

/-!
The errors with which the calls of an operating system fail, and the errors of a program that has no
place for them.
-/

namespace PathRights

/-- An error of a system call: one that has a number, or one that only has a text. -/
inductive SystemError where
  | noEntry
  | notPermitted
  | inputOutput
  | accessDenied
  | notDirectory
  | isDirectory
  | readOnly
  | nameTooLong
  | tooManyLinks
  | other (text : Text)
deriving DecidableEq, Repr

namespace SystemError

/-- The error in words. -/
def message : SystemError → Text
  | .noEntry => "No such file or directory"
  | .notPermitted => "Operation not permitted"
  | .inputOutput => "Input/output error"
  | .accessDenied => "Permission denied"
  | .notDirectory => "Not a directory"
  | .isDirectory => "Is a directory"
  | .readOnly => "Read-only file system"
  | .nameTooLong => "File name too long"
  | .tooManyLinks => "Too many levels of symbolic links"
  | .other text => text

/-- The number of the error. -/
def number? : SystemError → Option Nat
  | .notPermitted => some 1
  | .noEntry => some 2
  | .inputOutput => some 5
  | .accessDenied => some 13
  | .notDirectory => some 20
  | .isDirectory => some 21
  | .readOnly => some 30
  | .nameTooLong => some 36
  | .tooManyLinks => some 40
  | .other _ => none

/-- The error with its number, as messages show it that say no more about the call. -/
def describe (error : SystemError) : Text :=
  match error.number? with
  | some number => "[Errno " ++ Text.ofNat number ++ "] " ++ error.message
  | none => error.message

/-- The error with its number and the path that was to be opened. -/
def describeFor (error : SystemError) (path : Text) : Text :=
  match error.number? with
  | some _ => error.describe ++ ": " ++ path.quoted
  | none => error.message

/-- How a run ends that cannot go on after the error. -/
def status : SystemError → Status
  | .noEntry => .notFound
  | .accessDenied | .notPermitted => .permissionDenied
  | _ => .invalidInput

end SystemError

/-- An error that nothing foresees: its kind, and the error in words. -/
structure Crash where
  kind : Text
  message : Text
deriving DecidableEq, Repr

/-- A call is given a name that holds a null character. -/
def Crash.nullCharacter : Crash := ⟨"ValueError", "embedded null byte"⟩

end PathRights
