import PathRights.Path
import PathRights.Rule.Table
import PathRights.Tree.Operation

/-!
The walk over a tree. It visits every entry depth first and in the order of the names, decides it by
a rule table, and carries the decision out before it looks into a directory, so that a directory
that becomes readable is entered. Symbolic links and special files are skipped. Only problems with
the root end the walk; all others are reported and counted.

The directories that the walk is inside of form a stack; each holds the names that are still to be
visited.
-/

namespace PathRights

/-- A walk: the rules, the manner, and the root as it was given and as an absolute path. -/
structure Walk where
  table : RuleTable
  manner : Manner
  root : Text
  rootPath : Text
  givesModes : table.GivesModes

namespace Walk

open Work

/-- A directory that the walk is inside of, and the names in it that are still to be visited. -/
structure Frame where
  location : Location
  path : Text
  pending : List Text
deriving DecidableEq, Repr

/-- The entry at a place as a target of calls. -/
def target (walk : Walk) (location : Location) : Target :=
  ⟨Path.below walk.rootPath location, some location⟩

/-- Reports and counts an operation that failed. -/
def reportFailure (walk : Walk) (path : Text) (operation : OperationName) :
    Option SystemError → Work Unit
  | none => return
  | some error => do
    count fun s => { s with failures := s.failures + 1 }
    report walk.manner (.operationFailed operation path error)

/-- Gives an entry to a role with a mode: tries both operations, then reports those that failed. -/
def applyMode (walk : Walk) (location : Location) (entry : Entry) (role : Role) (mode : Nat) :
    Work Unit := do
  let chownError ← chown walk.manner (walk.target location) role.userId role.groupId
  let chmodError ← chmod walk.manner (walk.target location) mode
  reportFailure walk entry.path .chown chownError
  reportFailure walk entry.path .chmod chmodError

/-- A mode is missing where one is to be written or told. -/
def modeMissing (manner : Manner) : Crash :=
  ⟨"TypeError",
    if manner.dryRun then "unsupported format string passed to NoneType.__format__"
    else "'NoneType' object cannot be interpreted as an integer"⟩

/-- Gives an entry to a role. Without a mode for the entry this would end the walk. -/
def applyRole (walk : Walk) (location : Location) (entry : Entry) (role : Role) : Work Unit := do
  match role.modeFor entry.isDirectory with
  | some mode => applyMode walk location entry role mode
  | none =>
    let _ ← chown walk.manner (walk.target location) role.userId role.groupId
    throw (.crash (modeMissing walk.manner))

/-- The mode is there for an entry that the rules give to a role. -/
theorem applyRole_of_decide (walk : Walk) {location : Location} {entry : Entry} {role : Role}
    {rule : Rule} (h : walk.table.decide entry = .apply role rule) :
    ∃ mode, role.modeFor entry.isDirectory = some mode ∧
      applyRole walk location entry role = applyMode walk location entry role mode := by
  obtain ⟨mode, hmode⟩ := walk.givesModes.modeFor h
  refine ⟨mode, hmode, ?_⟩
  unfold applyRole
  rw [hmode]

/-- Decides an entry and carries the decision out. -/
def handle (walk : Walk) (location : Location) (entry : Entry) : Work Unit := do
  count fun s => { s with visited := s.visited + 1 }
  match walk.table.decide entry with
  | .apply role rule =>
    count fun s => { s with applied := s.applied + 1 }
    report walk.manner (.applyingRole entry.path role.name rule.describe)
    applyRole walk location entry role
  | .leave rule =>
    count fun s => { s with noOp := s.noOp + 1 }
    report walk.manner (.noOpMatched entry.path rule.describe)
  | .unmatched =>
    count fun s => { s with unmatched := s.unmatched + 1 }
    report walk.manner (.noRuleMatched entry.path)

/-- Skips an entry. -/
def skip (walk : Walk) (event : Event) : Work Unit := do
  count fun s => { s with skipped := s.skipped + 1 }
  report walk.manner event

/-- Handles a directory and lists it; the result is what is to be visited in it. -/
def enter (walk : Walk) (location : Location) (path : Text) : Work (Option Frame) := do
  handle walk location ⟨path, .directory⟩
  match ← ask (·.list location) with
  | .ok names => return some ⟨location, path, names⟩
  | .error error =>
    count fun s => { s with unreadable := s.unreadable + 1 }
    report walk.manner (.cannotReadDirectory path error)
    return none

/-- Visits the entry at a place whose path below the root is `path`; the result is what is to be
visited in it. -/
def visit (walk : Walk) (location : Location) (path : Text) : Work (Option Frame) := do
  match ← ask (·.lstat location) with
  | .error error =>
    skip walk (.cannotInspect path error)
    return none
  | .ok type =>
    match type.kind with
    | .symlink =>
      skip walk (.skippedSymlink path)
      return none
    | .other =>
      skip walk (.skippedSpecial path)
      return none
    | .file =>
      handle walk location ⟨path, .file⟩
      return none
    | .directory => enter walk location (path ++ "/")

/-- Visits what the stack holds. Each step visits one name or leaves one directory; `steps` bounds
their number. -/
def descend (walk : Walk) : (steps : Nat) → List Frame → Work Unit
  | 0, _ | _ + 1, [] => return
  | steps + 1, ⟨location, path, pending⟩ :: stack =>
    match pending with
    | [] => descend walk steps stack
    | name :: names => do
      let child ← visit walk (location ++ [name]) (path ++ name)
      descend walk steps (child.toList ++ ⟨location, path, names⟩ :: stack)

/-- Looks at the root, which must be a directory. -/
def checkRoot (walk : Walk) : Work Unit := do
  match ← ask Node.statRoot with
  | .error error => throw (.rootFailed walk.root error)
  | .ok type => unless type = .directory do throw (.rootNotDirectory walk.root)

/-- Lists the root. -/
def listRoot (walk : Walk) : Work (List Text) := do
  match ← ask (·.list []) with
  | .error error => throw (.rootFailed walk.root error)
  | .ok names => return names

/-- Walks over the tree. Twice as many steps as there are entries are enough: every entry is visited
once and every directory left once. -/
def run (walk : Walk) : Work Unit := do
  checkRoot walk
  handle walk [] ⟨"/", .directory⟩
  let names ← listRoot walk
  descend walk (2 * (← get).tree.size + 1) [⟨[], [], names⟩]
  report walk.manner (.walkComplete (← get).stats)

/-- Walks over a tree from the beginning: whether the walk came to its end, and what it led to. -/
def traverse (walk : Walk) (tree : Node) : Except Abort Unit × Session :=
  walk.run.run (Session.start tree)

end Walk

end PathRights
