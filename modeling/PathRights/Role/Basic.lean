import PathRights.Role.Name
import PathRights.Role.Spec
import PathRights.SystemError

/-!
Roles: who is to own an entry, and with which modes. A role is read from its name and its
specification; the user and the group are looked up when it is read, so that a role holds their
numbers. The group of a specification without one has the user's name.
-/

namespace PathRights

/-- What looking an account up by its name leads to. -/
inductive Lookup where
  | found (id : Int)
  | unknown
  /-- Such a name is not even looked up. -/
  | refused
deriving DecidableEq, Repr

/-- The users and the groups, as they are looked up by their names. -/
structure Accounts where
  user : Text → Lookup
  group : Text → Lookup

namespace Accounts

/-- Looks a name up in a list. -/
def lookup (accounts : List (Text × Int)) (name : Text) : Lookup :=
  match accounts.lookup name with
  | some id => .found id
  | none => .unknown

/-- The accounts in two lists. Every other name is unknown. -/
def ofLists (users groups : List (Text × Int)) : Accounts := ⟨lookup users, lookup groups⟩

/-- The accounts as a system looks them up, which refuses a name with a null character. -/
def refusingNull (accounts : Accounts) : Accounts where
  user name := if name.contains '\x00' then .refused else accounts.user name
  group name := if name.contains '\x00' then .refused else accounts.group name

/-- Every lookup has an answer: a number, or that there is no such account. -/
def Answers (accounts : Accounts) : Prop :=
  ∀ name, accounts.user name ≠ .refused ∧ accounts.group name ≠ .refused

end Accounts

/-- A role: an owner, and the modes for directories and for files. -/
structure Role where
  name : Text
  user : Text
  userId : Int
  group : Text
  groupId : Int
  directoryMode : Nat
  fileMode : Option Nat
deriving DecidableEq, Repr

/-- Why a role cannot be read or registered. -/
inductive RoleError where
  | badName (error : Role.NameError)
  | badSpec (name : Text) (error : Role.SpecError)
  | unknownUser (name user : Text)
  | unknownGroup (name group : Text)
  /-- The name of the user or of the group cannot be looked up. -/
  | refusedLookup (account : Text)
  | duplicate (name : Text)
deriving Repr

namespace RoleError

/-- The error in words. -/
def message : RoleError → Text
  | .badName error => error.message
  | .badSpec name error => "Role " ++ name.quoted ++ ": " ++ error.message
  | .unknownUser name user => "Role " ++ name.quoted ++ ": unknown user " ++ user.quoted
  | .unknownGroup name group => "Role " ++ name.quoted ++ ": unknown group " ++ group.quoted
  | .refusedLookup _ => Crash.nullCharacter.message
  | .duplicate name => "Duplicate role: " ++ name.quoted

/-- How a run ends that meets the error, unless nothing foresees it. -/
def status? : RoleError → Option Status
  | .unknownUser .. | .unknownGroup .. => some .notFound
  | .refusedLookup _ => none
  | _ => some .invalidInput

end RoleError

namespace Role

/-- The role can be given to files. -/
def appliesToFiles (role : Role) : Bool := role.fileMode.isSome

/-- The mode for a directory or for a file. -/
def modeFor (role : Role) (isDirectory : Bool) : Option Nat :=
  if isDirectory then some role.directoryMode else role.fileMode

theorem exists_modeFor {role : Role} {isDirectory : Bool}
    (h : isDirectory = true ∨ role.appliesToFiles = true) :
    ∃ mode, role.modeFor isDirectory = some mode := by
  unfold modeFor
  cases isDirectory with
  | true => exact ⟨role.directoryMode, rfl⟩
  | false => exact Option.isSome_iff_exists.1 (h.resolve_left Bool.false_ne_true)

/-- The role in one line. -/
def describe (role : Role) : Text :=
  role.user ++ ":" ++ role.group ++ " dir=" ++ Text.ofMode role.directoryMode ++ " file=" ++
    (match role.fileMode with
     | some mode => Text.ofMode mode
     | none => ['-'])

/-- The role that a specification makes, once its user and its group have numbers. The mode for
directories follows from the one for files where it is left out. -/
def ofSpec (name : Text) (spec : Spec) (userId : Int) (group : Text) (groupId : Int) : Role :=
  let fileMode := spec.fileMode.map (Text.valueIn 8)
  { name, user := spec.user, userId, group, groupId, fileMode
    directoryMode :=
      match spec.directoryMode with
      | some mode => Text.valueIn 8 mode
      | none => deriveDirectoryMode (fileMode.getD 0) }

/-- Reads a role: checks its name and its specification, then looks up its user and its group. -/
def parse (accounts : Accounts) (name spec : Value) : Except RoleError Role :=
  match checkName name with
  | .error error => .error (.badName error)
  | .ok name =>
    match Spec.ofValue spec with
    | .error error => .error (.badSpec name error)
    | .ok spec =>
      let group := spec.group.getD spec.user
      match accounts.user spec.user with
      | .refused => .error (.refusedLookup spec.user)
      | .unknown => .error (.unknownUser name spec.user)
      | .found userId =>
        match accounts.group group with
        | .refused => .error (.refusedLookup group)
        | .unknown => .error (.unknownGroup name group)
        | .found groupId => .ok (ofSpec name spec userId group groupId)

end Role

end PathRights
