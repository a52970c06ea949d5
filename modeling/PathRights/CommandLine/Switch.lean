import PathRights.Text.DecimalDigit
import PathRights.Text.Quoted

/-!
Switches of the command line and how words are told apart. A word that starts with a dash is a
switch, which may be cut short as long as only one switch starts like it; behind it, or behind an
equals sign, its value may follow in the same word, and short switches may share a word.
-/

namespace PathRights.CommandLine

/-- The switches. -/
inductive Switch where
  | help
  | version
  | config
  | role
  | rules
  | dryRun
  | check
  | verbose
  | debug
  | logFile
deriving DecidableEq, Repr

namespace Switch

/-- The switches in the order in which they are searched. -/
def all : List Switch :=
  [.help, .version, .config, .role, .rules, .dryRun, .check, .verbose, .debug, .logFile]

/-- How a switch is spelled. -/
def spellings : Switch → List Text
  | .help => ["-h".toList, "--help".toList]
  | .version => ["-v".toList, "--version".toList]
  | .config => ["-c".toList, "--config".toList]
  | .role => ["-r".toList, "--role".toList]
  | .rules => ["-f".toList, "--rules".toList]
  | .dryRun => ["-n".toList, "--dry-run".toList]
  | .check => ["--check".toList]
  | .verbose => ["--verbose".toList]
  | .debug => ["--debug".toList]
  | .logFile => ["--log-file".toList]

/-- The switch is followed by a value. -/
def takesValue : Switch → Bool
  | .config | .role | .rules | .logFile => true
  | _ => false

/-- The name of a switch in messages. -/
def name (switch : Switch) : Text := List.intercalate ['/'] switch.spellings

/-- All spellings with their switches. -/
def table : List (Text × Switch) :=
  all.flatMap fun switch => switch.spellings.map fun spelling => (spelling, switch)

/-- The switch with a spelling. -/
def ofSpelling? (spelling : Text) : Option Switch := table.lookup spelling

end Switch

/-- What is wrong with a command line. -/
inductive UsageError where
  | ambiguous (word : Text) (candidates : List Text)
  | missingValue (switch : Switch)
  | ignoredValue (switch : Switch) (value : Text)
  | unrecognized (words : List Text)
deriving DecidableEq, Repr

/-- The error in words. -/
def UsageError.message : UsageError → Text
  | .ambiguous word candidates =>
    "ambiguous option: " ++ word ++ " could match " ++ List.intercalate ", " candidates
  | .missingValue switch => "argument " ++ switch.name ++ ": expected one argument"
  | .ignoredValue switch value =>
    "argument " ++ switch.name ++ ": ignored explicit argument " ++ value.quoted
  | .unrecognized words => "unrecognized arguments: " ++ List.intercalate " " words

/-- A word of the command line. -/
inductive Word where
  /-- A word that is no switch. -/
  | plain (text : Text)
  /-- The two dashes behind which no word is a switch. -/
  | dashes
  /-- A switch, spelled with one dash or with two, and what follows it in the word. -/
  | option (switch : Switch) (short : Bool) (value : Option Text)
  /-- A word that looks like a switch. -/
  | unknown (text : Text)
deriving DecidableEq, Repr

namespace Word

/-- The word of a switch with its spelling. -/
def ofSpelling (spelling : Text) (switch : Switch) (value : Option Text) : Word :=
  .option switch (spelling.drop 1 |>.head? |>.any (· != '-')) value

/-- The readings of a word that does not spell out a switch: a short switch with its value, or
switches with two dashes that start like it. -/
def candidates (word : Text) : List (Text × Switch × Option Text) :=
  match word with
  | '-' :: '-' :: _ =>
    let (front, value) := match word.breakAt (· == '=') with
      | some (front, _, value) => (front, some value)
      | none => (word, none)
    (Switch.table.filter fun entry => front.isPrefixOf entry.1).map fun (spelling, switch) =>
      (spelling, switch, value)
  | _ =>
    match Switch.ofSpelling? (word.take 2) with
    | some switch => [(word.take 2, switch, some (word.drop 2))]
    | none => []

/-- The word is a negative number, in the digits of any script. -/
def isNegativeNumber (word : Text) : Bool :=
  match word.dropFinalNewline with
  | '-' :: number =>
    match Text.breakAt (· == '.') number with
    | none => !number.isEmpty && number.all Text.isDecimalDigit
    | some (whole, _, fraction) =>
      whole.all Text.isDecimalDigit && !fraction.isEmpty &&
        fraction.all Text.isDecimalDigit
  | _ => false

/-- A word that starts with a dash and spells out no switch. -/
def ofCandidates (word : Text) : Except UsageError Word :=
  match candidates word with
  | [(spelling, switch, value)] => .ok (ofSpelling spelling switch value)
  | [] =>
    .ok (if isNegativeNumber word || word.contains ' ' then .plain word else .unknown word)
  | several => .error (.ambiguous word (several.map (·.1)))

/-- A word in front of which no two dashes stand. -/
def ofText (word : Text) : Except UsageError Word :=
  if word.head? ≠ some '-' then .ok (.plain word)
  else
    match Switch.ofSpelling? word with
    | some switch => .ok (ofSpelling word switch none)
    | none =>
      if word.length = 1 then .ok (.plain word)
      else
        match word.breakAt (· == '=') with
        | some (front, _, value) =>
          match Switch.ofSpelling? front with
          | some switch => .ok (ofSpelling front switch (some value))
          | none => ofCandidates word
        | none => ofCandidates word

/-- The words of a command line. -/
def ofTexts : List Text → Except UsageError (List Word)
  | [] => .ok []
  | text :: rest =>
    if text = "--" then .ok (.dashes :: rest.map .plain)
    else
      match ofText text with
      | .error error => .error error
      | .ok word => (ofTexts rest).map (word :: ·)

/-- The switches that share a word: those without a value, and the last with what follows it. A
short switch without a value is followed by the letter of the next. -/
def unfold (switch : Switch) (short : Bool) :
    Text → Except UsageError (List Switch × Switch × Option Text)
  | [] => if switch.takesValue then .ok ([], switch, some []) else .error (.ignoredValue switch [])
  | c :: rest =>
    if switch.takesValue then .ok ([], switch, some (c :: rest))
    else if !short then .error (.ignoredValue switch (c :: rest))
    else
      match Switch.ofSpelling? ['-', c] with
      | none => .error (.ignoredValue switch (c :: rest))
      | some next =>
        if rest.isEmpty then .ok ([switch], next, none)
        else (unfold next short rest).map fun (switches, last) => (switch :: switches, last)

example : (ofText "--ver").toOption = none := by decide +kernel
example : (ofText "--verb").toOption = some (.option .verbose false none) := by decide +kernel
example : (ofText "-fx=y").toOption = some (.option .rules true (some "x=y".toList)) := by
  decide +kernel

end Word

end PathRights.CommandLine
