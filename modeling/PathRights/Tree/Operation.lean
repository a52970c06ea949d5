import PathRights.Tree.Event
import PathRights.Tree.Node

/-!
The two operations on entries, change of owner and change of mode. Each is tried once, and an error
of the system is a result and not the end; only what nothing foresees, or an interruption, ends the
work. A dry run reports what it would do and calls nothing.
-/

namespace PathRights

/-- A call that was made, whether it succeeded or not. -/
inductive Call where
  | chown (path : Text) (uid gid : Int)
  | chmod (path : Text) (mode : Int)
deriving DecidableEq, Repr

/-- An entry to operate on: its path, and its place if the path leads into the tree. -/
structure Target where
  path : Text
  location : Option Location
deriving DecidableEq, Repr

/-- What ends work before its time. -/
inductive Abort where
  /-- The root of the tree cannot be entered. -/
  | rootFailed (root : Text) (error : SystemError)
  /-- The root of the tree is no directory. -/
  | rootNotDirectory (root : Text)
  | crash (fault : Crash)
  | interrupt
deriving DecidableEq, Repr

namespace Abort

/-- The reason in words. -/
def message : Abort → Text
  | .rootFailed root error => "Cannot enter tree root " ++ root ++ ": " ++ error.message
  | .rootNotDirectory root => "Tree root is not a directory: " ++ root
  | .crash fault => fault.message
  | .interrupt => []

/-- How a run ends that was aborted for a foreseen reason. -/
def status : Abort → Status
  | .rootFailed _ error => error.status
  | .rootNotDirectory _ => .invalidInput
  | .crash _ | .interrupt => .internalError

/-- What a failure of a call on the root ends with. -/
def ofRoot (root : Text) : Failure → Abort
  | .system error => .rootFailed root error
  | .crash fault => .crash fault
  | .interrupt => .interrupt

end Abort

/-- What work on a tree has led to so far: the tree, the calls made on it, the events reported, and
the counters. -/
structure Session where
  tree : Node
  calls : List Call
  events : List Event
  stats : Stats

/-- The beginning of work on a tree. -/
def Session.start (tree : Node) : Session := ⟨tree, [], [], .zero⟩

/-- Work on a tree. What was done before it ends early stays done. -/
abbrev Work := ExceptT Abort (StateM Session)

/-- How work is done and reported. -/
structure Manner where
  dryRun : Bool
  verbose : Bool
  threshold : Log.Threshold
deriving DecidableEq, Repr

/-- The event is to be reported. -/
def Manner.reports (manner : Manner) (event : Event) : Bool :=
  manner.threshold.admits event.level && (manner.verbose || !event.isVerbose)

namespace Work

/-- Reports an event. -/
def report (manner : Manner) (event : Event) : Work Unit :=
  modify fun s => if manner.reports event then { s with events := s.events ++ [event] } else s

/-- Counts. -/
def count (f : Stats → Stats) : Work Unit := modify fun s => { s with stats := f s.stats }

/-- Records a call. -/
def recordCall (call : Call) : Work Unit := modify fun s => { s with calls := s.calls ++ [call] }

/-- Asks the tree. An error of the system is an answer; any other failure ends the work. -/
def ask (question : Node → Except Failure α) : Work (Except SystemError α) := do
  match question (← get).tree with
  | .ok a => return .ok a
  | .error (.system error) => return .error error
  | .error (.crash fault) => throw (.crash fault)
  | .error .interrupt => throw .interrupt

/-- Calls on an entry, which is missing when its path leads out of the tree. -/
def callOn (target : Target) (call : Location → Node → Except Failure Node) :
    Work (Option SystemError) := do
  let answer ← ask fun tree =>
    match target.location with
    | some location => call location tree
    | none => .error (.system .noEntry)
  match answer with
  | .ok tree =>
    modify fun s => { s with tree }
    return none
  | .error error => return some error

/-- Changes the owner of an entry; the result is the error, if there is one. -/
def chown (manner : Manner) (target : Target) (uid gid : Int) : Work (Option SystemError) := do
  if manner.dryRun then
    report manner (.wouldChangeOwner target.path uid gid)
    return none
  else
    recordCall (.chown target.path uid gid)
    let error ← callOn target fun location tree => (tree.chown location).map fun _ => tree
    if error.isNone then report manner (.ownerChanged target.path uid gid)
    return error

/-- Changes the mode of an entry; the result is the error, if there is one. -/
def chmod (manner : Manner) (target : Target) (mode : Int) : Work (Option SystemError) := do
  if manner.dryRun then
    report manner (.wouldChangeMode target.path mode)
    return none
  else
    recordCall (.chmod target.path mode)
    let error ← callOn target fun location tree => tree.chmod location mode
    if error.isNone then report manner (.modeChanged target.path mode)
    return error

end Work

end PathRights
