/-!
The ways in which work can end, as other programs see them: each has a number that is also the exit
status of a run.
-/

namespace PathRights

/-- How work ended. -/
inductive Status where
  | success
  /-- A role, a rule or the configuration is not well formed. -/
  | invalidInput
  /-- A file, a user or a group does not exist. -/
  | notFound
  /-- The rights to go on are missing. -/
  | permissionDenied
  /-- Something happened that no rule of the program foresees. -/
  | internalError
deriving DecidableEq, Repr

/-- The number of a status. -/
def Status.code : Status → Nat
  | .success => 0
  | .invalidInput => 1
  | .notFound => 2
  | .permissionDenied => 3
  | .internalError => 6

end PathRights
