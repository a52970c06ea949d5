import PathRights.Log.Record
import PathRights.SystemError

/-!
The events of a walk: everything that it reports while it goes. Each has a level, a message and
values that go with it; `Event.record` puts them into a record of the log.
-/

namespace PathRights

/-- The counters of a walk. -/
structure Stats where
  visited : Nat
  applied : Nat
  noOp : Nat
  unmatched : Nat
  skipped : Nat
  unreadable : Nat
  failures : Nat
deriving DecidableEq, Repr

/-- Nothing is counted yet. -/
def Stats.zero : Stats := ⟨0, 0, 0, 0, 0, 0, 0⟩

/-- The counters with their names. -/
def Stats.named (stats : Stats) : List (Text × Nat) :=
  [("visited", stats.visited), ("applied", stats.applied), ("no_op", stats.noOp),
   ("unmatched", stats.unmatched), ("skipped", stats.skipped), ("unreadable", stats.unreadable),
   ("failures", stats.failures)]

/-- The two operations on an entry. -/
inductive OperationName where
  | chown
  | chmod
deriving DecidableEq, Repr

/-- The name of an operation. -/
def OperationName.text : OperationName → Text
  | .chown => "chown"
  | .chmod => "chmod"

/-- Something that a walk reports. -/
inductive Event where
  | ownerChanged (path : Text) (uid gid : Int)
  | modeChanged (path : Text) (mode : Int)
  | wouldChangeOwner (path : Text) (uid gid : Int)
  | wouldChangeMode (path : Text) (mode : Int)
  | applyingRole (path role rule : Text)
  | noOpMatched (path rule : Text)
  | noRuleMatched (path : Text)
  | operationFailed (operation : OperationName) (path : Text) (error : SystemError)
  | cannotInspect (path : Text) (error : SystemError)
  | skippedSymlink (path : Text)
  | skippedSpecial (path : Text)
  | cannotReadDirectory (path : Text) (error : SystemError)
  | walkComplete (stats : Stats)
deriving DecidableEq, Repr

namespace Event

/-- The level of an event. -/
def level : Event → Log.Level
  | .ownerChanged .. | .modeChanged .. => .debug
  | .noRuleMatched .. | .operationFailed .. | .cannotInspect .. | .cannotReadDirectory .. =>
    .warning
  | _ => .info

/-- The event is told only when every decision is to be told. -/
def isVerbose : Event → Bool
  | .applyingRole .. | .noOpMatched .. => true
  | _ => false

/-- The event in words. -/
def message : Event → Text
  | .ownerChanged path uid gid =>
    "Changed ownership: " ++ path ++ " -> uid=" ++ Text.ofInt uid ++ ", gid=" ++ Text.ofInt gid
  | .modeChanged path mode => "Changed permissions: " ++ path ++ " -> " ++ Text.ofMode mode
  | .wouldChangeOwner .. => "Would change ownership"
  | .wouldChangeMode .. => "Would change mode"
  | .applyingRole .. => "Applying role"
  | .noOpMatched .. => "No-op rule matched"
  | .noRuleMatched .. => "No rule matched"
  | .operationFailed operation .. => operation.text ++ " failed"
  | .cannotInspect .. => "Cannot inspect entry"
  | .skippedSymlink .. => "Skipping symlink"
  | .skippedSpecial .. => "Skipping special file"
  | .cannotReadDirectory .. => "Cannot read directory"
  | .walkComplete .. => "Tree walk complete"

/-- The values that go with an event. -/
def context : Event → Log.Context
  | .ownerChanged .. | .modeChanged .. => []
  | .wouldChangeOwner path uid gid =>
    [("path", .str path), ("uid", .int uid), ("gid", .int gid)]
  | .wouldChangeMode path mode => [("path", .str path), ("mode", .str (Text.ofMode mode))]
  | .applyingRole path role rule => [("path", .str path), ("role", .str role), ("rule", .str rule)]
  | .noOpMatched path rule => [("path", .str path), ("rule", .str rule)]
  | .noRuleMatched path => [("path", .str path)]
  | .operationFailed _ path error | .cannotInspect path error | .cannotReadDirectory path error =>
    [("path", .str path), ("error", .str error.message)]
  | .skippedSymlink path | .skippedSpecial path => [("path", .str path)]
  | .walkComplete stats => stats.named.map fun (name, count) => (name, .int count)

/-- The event as a record, with its values laid over those of a context. -/
def record (event : Event) (around : Log.Context) : Log.Record :=
  ⟨event.level, event.message, around.overlay event.context⟩

end Event

end PathRights
