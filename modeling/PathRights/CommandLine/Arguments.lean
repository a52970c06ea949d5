import PathRights.CommandLine.Switch

/-!
What a command line says. Its words are taken from left to right; the first word that is no switch
and no value is the root of the tree, and every other such word is too many. A request for help or
for the version is answered at once, whatever follows it.
-/

namespace PathRights.CommandLine

/-- The value of a switch. Two dashes are taken for the end of the switches even where a value is
wanted, so that the switch is given and its value is blank. -/
inductive SwitchValue where
  | blank
  | text (t : Text)
deriving DecidableEq, Repr

namespace SwitchValue

/-- The value that a text is. -/
def ofText (t : Text) : SwitchValue := if t = "--" then .blank else .text t

/-- The text, unless the value is blank. -/
def text? : SwitchValue → Option Text
  | .blank => none
  | .text t => some t

end SwitchValue

/-- What a command line says. -/
structure Arguments where
  root : Option Text
  config : Option SwitchValue
  roles : Option (List SwitchValue)
  rules : Option SwitchValue
  dryRun : Bool
  check : Bool
  verbose : Bool
  debug : Bool
  logFile : Option SwitchValue
deriving DecidableEq, Repr

/-- What an empty command line says. -/
def Arguments.empty : Arguments := ⟨none, none, none, none, false, false, false, false, none⟩

/-- Why a command line says nothing to do. -/
inductive EarlyEnd where
  | help
  | version
  | misuse (error : UsageError)
deriving DecidableEq, Repr

/-- The arguments with a switch taken, with its value if it takes one. -/
def Arguments.take (arguments : Arguments) (switch : Switch) (value : Text) :
    Except EarlyEnd Arguments :=
  match switch with
  | .help => .error .help
  | .version => .error .version
  | .config => .ok { arguments with config := some (.ofText value) }
  | .role => .ok { arguments with roles := some (arguments.roles.getD [] ++ [.ofText value]) }
  | .rules => .ok { arguments with rules := some (.ofText value) }
  | .dryRun => .ok { arguments with dryRun := true }
  | .check => .ok { arguments with check := true }
  | .verbose => .ok { arguments with verbose := true }
  | .debug => .ok { arguments with debug := true }
  | .logFile => .ok { arguments with logFile := some (.ofText value) }

/-- The arguments with several switches taken that have no values. -/
def Arguments.takeAll (arguments : Arguments) : List Switch → Except EarlyEnd Arguments
  | [] => .ok arguments
  | switch :: rest =>
    match arguments.take switch [] with
    | .error early => .error early
    | .ok arguments => arguments.takeAll rest

/-- What was read so far: the arguments, whether the place of the root is taken, and the words that
are too many. -/
structure Reading where
  arguments : Arguments
  rootTaken : Bool
  extras : List Text
deriving DecidableEq, Repr

namespace Reading

/-- Nothing was read. -/
def start : Reading := ⟨.empty, false, []⟩

/-- The reading with a word that is too many. -/
def addExtra (reading : Reading) (word : Text) : Reading :=
  { reading with extras := reading.extras ++ [word] }

/-- The reading with the place of the root taken. -/
def takeRoot (reading : Reading) (root : Option Text) : Reading :=
  { reading with arguments := { reading.arguments with root }, rootTaken := true }

/-- The switches of a word, and the last with what follows it in the word. -/
def switches (switch : Switch) (short : Bool) (value : Option Text) :
    Except EarlyEnd (List Switch × Switch × Option Text) :=
  match value with
  | none => .ok ([], switch, none)
  | some value =>
    match Word.unfold switch short value with
    | .error error => .error (.misuse error)
    | .ok switches => .ok switches

/-- The reading with switches taken, the last with a value. -/
def takeSwitches (reading : Reading) (switches : List Switch) (last : Switch) (value : Text) :
    Except EarlyEnd Reading :=
  match reading.arguments.takeAll switches with
  | .error early => .error early
  | .ok arguments =>
    (arguments.take last value).map fun arguments => { reading with arguments }

/-- Reads words. Two dashes next to the root belong to it. -/
def words (reading : Reading) : List Word → Except EarlyEnd Reading
  | [] => .ok reading
  | .plain text :: rest =>
    if reading.rootTaken then words (reading.addExtra text) rest
    else
      match rest with
      | .dashes :: rest => words (reading.takeRoot (some text)) rest
      | rest => words (reading.takeRoot (some text)) rest
  | .dashes :: rest =>
    if reading.rootTaken then words (reading.addExtra "--") rest
    else
      match rest with
      | .plain text :: rest => words (reading.takeRoot (some text)) rest
      | rest => words (reading.takeRoot none) rest
  | .unknown text :: rest => words (reading.addExtra text) rest
  | .option switch short value :: rest =>
    match switches switch short value with
    | .error early => .error early
    | .ok (front, last, value) =>
      if last.takesValue ∧ value.isNone then
        match rest with
        | .plain text :: rest =>
          match reading.takeSwitches front last text with
          | .error early => .error early
          | .ok reading => words reading rest
        | _ => .error (.misuse (.missingValue last))
      else
        match reading.takeSwitches front last (value.getD []) with
        | .error early => .error early
        | .ok reading => words reading rest

end Reading

/-- What a command line says. -/
def Arguments.ofTexts (texts : List Text) : Except EarlyEnd Arguments :=
  match Word.ofTexts texts with
  | .error error => .error (.misuse error)
  | .ok words =>
    match Reading.start.words words with
    | .error early => .error early
    | .ok reading =>
      if reading.extras.isEmpty then .ok reading.arguments
      else .error (.misuse (.unrecognized reading.extras))

end PathRights.CommandLine
