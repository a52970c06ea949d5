import PathRights.Text.Case
import PathRights.Value.Basic
import PathRights.Yaml.Loose

/-!
What a scalar with a tag denotes. A tag that was given by name may stand at a text which does not
have its form; such a text is read as far as it makes sense, and is a fault otherwise.
-/

namespace PathRights.Yaml

/-- The text without underscores. -/
def dropUnderscores (text : Text) : Text := text.filter (· != '_')

/-! ### Numbers -/

/-- The number that parts write, each of which counts sixty of the next. -/
def sixties (parts : List Text) : Except Fault Int :=
  (parts.mapM (looseInteger 10)).map fun digits => digits.foldl (fun n digit => n * 60 + digit) 0

/-- The number that a text behind a sign and without underscores writes. -/
def unsignedInteger (text : Text) : Except Fault Int :=
  match text with
  | [] => .error .emptyNumber
  | '0' :: 'b' :: rest => looseInteger 2 rest
  | '0' :: 'x' :: rest => looseInteger 16 rest
  | '0' :: _ => looseInteger 8 text
  | _ => if text.contains ':' then sixties (text.splitOn ':') else looseInteger 10 text

/-- The integer that a text writes. -/
def integerOf (text : Text) : Except Fault Int :=
  let (negative, unsigned) := takeSign (dropUnderscores text)
  (unsignedInteger unsigned).map fun n => if negative then -n else n

/-- The sum of digits, the last first, each times a weight that grows by sixty. Products and sums
are rounded one by one. -/
def addSixties (sum : Binary64) (weight : Nat) : List Binary64 → Except Fault Binary64
  | [] => .ok sum
  | digit :: digits =>
    match Binary64.ofNat weight with
    | .infinite _ => .error .manySixties
    | factor => addSixties (sum.add (digit.mul factor)) (weight * 60) digits

/-- The number that parts write, each of which counts sixty of the next. -/
def floatSixties (parts : List Text) : Except Fault Binary64 :=
  match parts.mapM looseFloat with
  | .error fault => .error fault
  | .ok digits => addSixties (Binary64.ofNat 0) 1 digits.reverse

/-- The number that a text behind a sign, in lower case and without underscores, writes. -/
def unsignedFloat (text : Text) : Except Fault Binary64 :=
  if text = ".inf" then .ok (.infinite false)
  else if text = ".nan" then .ok .nan
  else if text.contains ':' then floatSixties (text.splitOn ':')
  else looseFloat text

/-- The floating-point number that a text writes. -/
def floatOf (text : Text) : Except Fault Binary64 :=
  let text := Text.lower (dropUnderscores text)
  if text.isEmpty then .error .emptyNumber
  else
    let (negative, unsigned) := takeSign text
    (unsignedFloat unsigned).map fun x => if negative then x.negate else x

/-! ### Words and times -/

/-- The truth value that a word stands for, in any case. -/
def truthOf (text : Text) : Except Fault Bool :=
  let word := text.lower
  if trueWords.contains word then .ok true
  else if falseWords.contains word then .ok false
  else .error (.noTruth word)

/-- The microseconds of a fraction of a second; what is finer is cut off. -/
def microseconds (fraction : Text) : Nat :=
  Text.valueIn 10 ((fraction ++ List.replicate 6 '0').take 6)

/-- The day or the moment with some numbers. -/
def TimeParts.scalar (parts : TimeParts) : Except CalendarError Scalar :=
  match parts.time with
  | none => (Date.ofNumbers parts.year parts.month parts.day).map .date
  | some (hour, minute, second, fraction, offset) => do
    Moment.checkOffset offset
    let date ← Date.ofNumbers parts.year parts.month parts.day
    return .moment (← Moment.onDate date hour minute second (microseconds fraction) offset)

/-- The day or the moment that a text writes. -/
def timeOf (text : Text) : Except Fault Scalar :=
  match timeParts? text with
  | none => .error .noTime
  | some parts => parts.scalar.mapError .calendar

/-! ### Scalars -/

/-- What a text with a tag denotes. -/
def Tag.scalar (tag : Tag) (text : Text) : Except Fault Scalar :=
  match tag with
  | .null => .ok .null
  | .truth => (truthOf text).map .bool
  | .integer => (integerOf text).map .int
  | .float => (floatOf text).map .float
  | .time => timeOf text
  | .text => .ok (.str text)
  | .merge | .default | .sequence | .mapping | .unknown => .error .malformed

/-- What a plain scalar without a tag denotes. -/
def meaning (text : Text) : Except Fault Scalar := (Tag.ofPlain text).scalar text

example : (meaning "0644").toOption = some (.int 420) ∧
    (meaning "-0x1F").toOption = some (.int (-31)) := by
  decide +kernel
example : (meaning "1:30").toOption = some (.int 90) ∧
    (meaning "089").toOption = some (.str "089") := by
  decide +kernel
example : (meaning "1_0.5e+1").toOption = some (.float (.ofDecimal false 105 0)) := by
    decide +kernel
example : (meaning "7:36.816").toOption.map Scalar.typeName = some "float".toList := by
    decide +kernel

end PathRights.Yaml
