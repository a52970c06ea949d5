import PathRights.Log.Output
import PathRights.Log.Record

/-!
A journal writes the records that its threshold admits as lines to the console and to log files.
Contexts can be laid around what is recorded; they are opened and closed like brackets.
-/

namespace PathRights.Log

/-- A journal: its name, the time that stands in front of its lines, what it admits, the contexts
that are open, the outermost first, and its files. -/
structure Journal where
  name : Text
  time : Text
  threshold : Threshold
  contexts : List Context

namespace Journal

/-- A journal that only writes to the console. -/
def start (name time : Text) (threshold : Threshold) : Journal := ⟨name, time, threshold, []⟩

/-- The journal with a context opened. -/
def push (journal : Journal) (context : Context) : Journal :=
  { journal with contexts := journal.contexts ++ [Context.overlay [] context] }

/-- The journal with the innermost context closed, if one is open. -/
def pop (journal : Journal) : Journal := { journal with contexts := journal.contexts.dropLast }

/-- The context that all open contexts make together. -/
def context (journal : Journal) : Context := journal.contexts.foldl Context.overlay []

/-- The name that lines show. The journal without a name is the root of all. -/
def title (journal : Journal) : Text := if journal.name.isEmpty then "root" else journal.name

/-- A record of a level is admitted. Nothing holds above the root, so that its threshold is taken as
it is. -/
def admits (journal : Journal) (level : Level) : Bool :=
  if journal.title = "root" then journal.threshold.number ≤ level.number
  else journal.threshold.admits level

/-- Writes a record, if it is admitted; `mark` is put behind its line. -/
def emit (journal : Journal) (record : Record) (mark : Text) (output : Output) : Output :=
  if journal.admits record.level then
    output.write (record.line journal.time journal.title ++ mark)
  else output

/-- Records a message with values of its own. -/
def log (journal : Journal) (level : Level) (message : Text) (context : Context)
    (output : Output) : Output :=
  journal.emit ⟨level, message, journal.context.overlay context⟩ [] output

/-- Records an error that nothing foresaw, with its kind and its text. -/
def logError (journal : Journal) (message kind text : Text) (context : Context)
    (output : Output) : Output :=
  let details : Context := [("exception_type", .str kind), ("exception_message", .str text)]
  journal.emit ⟨.error, message, (journal.context.overlay context).overlay details⟩ traceMark output

end Journal

end PathRights.Log
