import PathRights.Text.Numeral

/-!
Tags: what kind of thing a part of a document stands for. A plain scalar without a tag gets one by
its form. The words and the forms of numbers and times are those of version 1.1 of the language, in
which a leading zero makes a number octal and parts between colons count sixties.
-/

namespace PathRights.Yaml

/-- The kind of thing that a part of a document stands for. -/
inductive Tag where
  | null
  | truth
  | integer
  | float
  | time
  /-- A key with this tag gives the entries of its value to the mapping around it. -/
  | merge
  /-- A key with this tag is a text; nothing else has it. -/
  | default
  | text
  | sequence
  | mapping
  | unknown
deriving DecidableEq, Repr

/-- The tags that can be given by name. -/
def Tag.names : List (Text × Tag) :=
  [("null".toList, .null), ("bool".toList, .truth), ("int".toList, .integer),
   ("float".toList, .float), ("timestamp".toList, .time), ("merge".toList, .merge),
   ("value".toList, .default), ("str".toList, .text), ("seq".toList, .sequence),
   ("map".toList, .mapping)]

/-- The tag with a name. -/
def Tag.ofName (name : Text) : Tag := (names.lookup name).getD .unknown

/-! ### Words -/

/-- The words for null. -/
def nullWords : List Text :=
  ["".toList, "~".toList, "null".toList, "Null".toList, "NULL".toList]

/-- The words for true. -/
def trueWords : List Text :=
  ["yes".toList, "Yes".toList, "YES".toList, "true".toList, "True".toList, "TRUE".toList,
   "on".toList, "On".toList, "ON".toList]

/-- The words for false. -/
def falseWords : List Text :=
  ["no".toList, "No".toList, "NO".toList, "false".toList, "False".toList, "FALSE".toList,
   "off".toList, "Off".toList, "OFF".toList]

/-- The marks of the language that are no scalars of their own. -/
def reservedWords : List Text := ["!".toList, "&".toList, "*".toList]

/-! ### Numbers -/

/-- The sign in front of a number, and the number without it. -/
def takeSign : Text → Bool × Text
  | '-' :: rest => (true, rest)
  | '+' :: rest => (false, rest)
  | text => (false, text)

/-- The text is not empty and all its characters satisfy `p` or are underscores. -/
def isRun (p : Char → Bool) (text : Text) : Bool :=
  !text.isEmpty && text.all fun c => p c || c == '_'

/-- The text is a run of digits that starts with a digit. -/
def isDecimalRun (text : Text) : Bool :=
  text.head?.any Text.isDigit && isRun Text.isDigit text

/-- The character is a binary digit. -/
def isBinaryDigit (c : Char) : Bool := c == '0' || c == '1'

/-- The character is a hexadecimal digit. -/
def isHexDigit (c : Char) : Bool :=
  Text.isDigit c || ('a' ≤ c && c ≤ 'f') || ('A' ≤ c && c ≤ 'F')

/-- The text is a number below sixty of one or two digits. -/
def isSixtieth : Text → Bool
  | [c] => Text.isDigit c
  | [c, d] => '0' ≤ c && c ≤ '5' && Text.isDigit d
  | _ => false

/-- The text without a sign has the form of an integer: binary, hexadecimal, octal, decimal or in
parts of sixty. -/
def isNatural (text : Text) : Bool :=
  match text with
  | '0' :: 'b' :: digits => isRun isBinaryDigit digits
  | '0' :: 'x' :: digits => isRun isHexDigit digits
  | '0' :: digits => digits.isEmpty || isRun Text.isOctalDigit digits
  | text =>
    match text.splitOn ':' with
    | whole :: parts => isDecimalRun whole && parts.all isSixtieth
    | [] => false

/-- The text has the form of an integer. -/
def isInteger (text : Text) : Bool := isNatural (takeSign text).2

/-- The text is an exponent of ten: a sign and digits. -/
def isExponent : Text → Bool
  | sign :: digits =>
    (sign == '+' || sign == '-') && !digits.isEmpty && digits.all Text.isDigit
  | [] => false

/-- The text is what may follow the point of a number: digits and underscores, and an exponent of
ten. -/
def isFraction (text : Text) : Bool :=
  let isDigits (digits : Text) := digits.all fun c => Text.isDigit c || c == '_'
  match text.breakAt (fun c => c == 'e' || c == 'E') with
  | none => isDigits text
  | some (digits, _, exponent) => isDigits digits && isExponent exponent

/-- The text without a sign has the form of a number with a point. Only one that starts with a digit
may have parts of sixty, and then it has no exponent. -/
def isDecimal (text : Text) : Bool :=
  match text.breakAt (· == '.') with
  | none => false
  | some (whole, _, rest) =>
    match whole.splitOn ':' with
    | _ :: [] => isDecimalRun whole && isFraction rest
    | first :: parts =>
      isDecimalRun first && parts.all isSixtieth &&
        rest.all fun c => Text.isDigit c || c == '_'
    | [] => false

/-- The text without a sign is the word for infinity. -/
def isInfinity (text : Text) : Bool :=
  ([".inf".toList, ".Inf".toList, ".INF".toList] : List Text).contains text

/-- The text is the word for no number. -/
def isNotANumber (text : Text) : Bool :=
  ([".nan".toList, ".NaN".toList, ".NAN".toList] : List Text).contains text

/-- The text has the form of a floating-point number. A number that starts with its point has no
sign. -/
def isFloat (text : Text) : Bool :=
  let unsigned := (takeSign text).2
  isNotANumber text || isInfinity unsigned || isDecimal unsigned ||
    match text with
    | '.' :: c :: rest => Text.isDigit c && isFraction (c :: rest)
    | _ => false

/-! ### Times -/

/-- The numbers of a time as they are written: a day, and a time of day with its fraction of a
second and its offset in minutes, if they are given. -/
structure TimeParts where
  year : Nat
  month : Nat
  day : Nat
  time : Option (Nat × Nat × Nat × Text × Option Int)
deriving DecidableEq, Repr

/-- The number in front of a text that has at least one digit and at most two, and what follows. -/
def shortNumber? : Text → Option (Nat × Text)
  | c :: d :: rest =>
    if !Text.isDigit c then none
    else if Text.isDigit d then some (Text.valueIn 10 [c, d], rest)
    else some (Text.digitValue c, d :: rest)
  | [c] => if Text.isDigit c then some (Text.digitValue c, []) else none
  | [] => none

/-- The number of two digits in front of a text, and what follows. -/
def twoDigits? : Text → Option (Nat × Text)
  | c :: d :: rest =>
    if Text.isDigit c && Text.isDigit d then some (Text.valueIn 10 [c, d], rest) else none
  | _ => none

/-- What follows a character in front of a text. -/
def afterChar? (c : Char) : Text → Option Text
  | d :: rest => if d = c then some rest else none
  | [] => none

/-- The character is a space or a tab. -/
def isBlank (c : Char) : Bool := c == ' ' || c == '\t'

/-- The offset in minutes that a text is. -/
def offset? (text : Text) : Option Int :=
  match text with
  | ['Z'] => some 0
  | sign :: rest =>
    if sign = '+' ∨ sign = '-' then do
      let (hours, rest) ← shortNumber? rest
      let minutes ← match rest with
        | ':' :: rest => (twoDigits? rest).bind fun (n, rest) =>
            if rest.isEmpty then some n else none
        | rest => if rest.isEmpty then some 0 else none
      let total : Int := hours * 60 + minutes
      return if sign = '-' then -total else total
    else none
  | [] => none

/-- The time of day that a text is. -/
def timeOfDay? (text : Text) : Option (Nat × Nat × Nat × Text × Option Int) := do
  let (hour, rest) ← shortNumber? text
  let (minute, rest) ← (afterChar? ':' rest).bind twoDigits?
  let (second, rest) ← (afterChar? ':' rest).bind twoDigits?
  let (fraction, rest) := match rest with
    | '.' :: rest => (rest.takeWhile Text.isDigit, rest.dropWhile Text.isDigit)
    | rest => ([], rest)
  if rest.isEmpty then return (hour, minute, second, fraction, none)
  let offset ← offset? (rest.dropWhile isBlank)
  return (hour, minute, second, fraction, some offset)

/-- The numbers of the time that a text is. -/
def timeParts? (text : Text) : Option TimeParts := do
  let (century, rest) ← twoDigits? text
  let (year, rest) ← twoDigits? rest
  let (month, rest) ← (afterChar? '-' rest).bind shortNumber?
  let (day, rest) ← (afterChar? '-' rest).bind shortNumber?
  let year := century * 100 + year
  match rest with
  | [] => return ⟨year, month, day, none⟩
  | c :: rest =>
    if c = 'T' ∨ c = 't' then return ⟨year, month, day, some (← timeOfDay? rest)⟩
    else if isBlank c then return ⟨year, month, day, some (← timeOfDay? (rest.dropWhile isBlank))⟩
    else none

/-- The text has the form of a time. A day alone has two digits for the month and for the day. -/
def isTime (text : Text) : Bool :=
  (timeParts? text).any fun parts => parts.time.isSome || text.length == 10

/-! ### Scalars without a tag -/

/-- The tag of a plain scalar, by its form. -/
def Tag.ofPlain (plain : Text) : Tag :=
  if nullWords.contains plain then .null
  else if trueWords.contains plain ∨ falseWords.contains plain then .truth
  else if plain = "<<" then .merge
  else if plain = "=" then .default
  else if reservedWords.contains plain then .unknown
  else if isInteger plain then .integer
  else if isFloat plain then .float
  else if isTime plain then .time
  else .text

example : Tag.ofPlain "0644" = .integer ∧ Tag.ofPlain "089" = .text := by decide +kernel
example : Tag.ofPlain "1:30" = .integer ∧ Tag.ofPlain "1:30.5" = .float := by decide +kernel
example : Tag.ofPlain "Yes" = .truth ∧ Tag.ofPlain "yEs" = .text := by decide +kernel
example : Tag.ofPlain "-.5" = .text ∧ Tag.ofPlain "+1.e+5" = .float := by decide +kernel
example : Tag.ofPlain "2001-12-15" = .time ∧ Tag.ofPlain "2001-1-5" = .text := by decide +kernel
example : Tag.ofPlain "2001-1-5 1:02:03 -5" = .time := by decide +kernel

end PathRights.Yaml
