import PathRights.Log.Level
import PathRights.Value.Mapping

/-!
Records of a log: a level, a message, and a context of named values that is written behind the
message. Contexts are laid over each other; a name that is given again keeps its place and takes the
new value.
-/

namespace PathRights.Log

/-- Named values, in order. -/
abbrev Context := List (Text × Value)

namespace Context

/-- The context with a value under a name. -/
def set : Context → Text → Value → Context
  | [], name, value => [(name, value)]
  | (n, v) :: rest, name, value =>
    if n = name then (n, value) :: rest else (n, v) :: set rest name value

/-- The context with the values of another laid over it. -/
def overlay (context : Context) (above : Context) : Context :=
  above.foldl (fun c (name, value) => set c name value) context

/-- The context as text. -/
def text (context : Context) : Text :=
  List.intercalate [' '] (context.map fun (name, value) => name ++ "=" ++ value.text)

end Context

/-- A record of a log. -/
structure Record where
  level : Level
  message : Text
  context : Context
deriving Repr

/-- What stands behind every record that tells of an error with its history. -/
def traceMark : Text := "\nTRACEBACK"

/-- The message with the context behind it. -/
def Record.text (record : Record) : Text :=
  if record.context.isEmpty then record.message
  else record.message ++ " | " ++ record.context.text

/-- The record as a line of the log `name`, written at `time`. -/
def Record.line (record : Record) (time name : Text) : Text :=
  time ++ " - " ++ name ++ " - " ++ record.level.name ++ " - " ++ record.text

end PathRights.Log
