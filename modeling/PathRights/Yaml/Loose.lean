import PathRights.Text.Blank
import PathRights.Text.DecimalDigit
import PathRights.Value.Binary64
import PathRights.Yaml.Fault
import PathRights.Yaml.Tag

/-!
Numbers in loose writing. A text that is marked as a number need not have the form of one: blanks
around it, a sign of its own, the mark of its base and the decimal digits of all scripts are allowed
too.
-/

namespace PathRights.Yaml

/-- The character may stand around a number: it is a blank, but no information separator. -/
def isMargin (c : Char) : Bool := Text.isBlank c && !(0x1C ≤ c.toNat && c.toNat ≤ 0x1F)

/-- The text without the blanks around it. -/
def dropMargins (text : Text) : Text :=
  ((text.dropWhile isMargin).reverse.dropWhile isMargin).reverse

/-- The digit from `0` to `9` with the value of a decimal digit; other characters stay. -/
def commonDigit (c : Char) : Char :=
  match Text.zeros.find? fun first => first ≤ c.toNat && c.toNat < first + 10 with
  | some first => Text.digit (c.toNat - first)
  | none => c

/-- The sign of a number in loose writing and what follows it. -/
def openLoose (text : Text) : Bool × Text := takeSign (dropMargins (text.map commonDigit))

/-- The characters that may follow a zero to mark a base. -/
def baseMarks (base : Nat) : Text :=
  match base with
  | 2 => "bB"
  | 8 => "oO"
  | 16 => "xX"
  | _ => []

/-- The numeral without the mark of its base. -/
def dropBaseMark (base : Nat) (text : Text) : Text :=
  match text with
  | '0' :: mark :: rest => if (baseMarks base).contains mark then rest else text
  | text => text

/-- The character is a digit in a base up to sixteen. -/
def isDigitIn (base : Nat) (c : Char) : Bool := isHexDigit c && Text.digitValue c < base

/-- The integer that a text writes in a base. Only decimal numbers are limited in their digits. -/
def looseInteger (base : Nat) (text : Text) : Except Fault Int :=
  let (negative, unsigned) := openLoose text
  let numeral := dropBaseMark base unsigned
  let digits := numeral.takeWhile (isDigitIn base)
  if base = 10 ∧ Text.digitLimit < digits.length then .error (.longNumeral digits.length)
  else if digits.isEmpty ∨ digits.length < numeral.length then .error (.noNumeral base text)
  else .ok (if negative then -(Text.valueIn base digits : Int) else Text.valueIn base digits)

/-- The exponent that a text with a sign writes. -/
def exponent? (text : Text) : Option Int :=
  let (negative, digits) := takeSign text
  if digits.isEmpty ∨ !digits.all Text.isDigit then none
  else some (if negative then -(Text.valueIn 10 digits : Int) else Text.valueIn 10 digits)

/-- The number that digits with a point and an exponent of ten write, where the point and the
exponent may be missing. -/
def decimal? (text : Text) : Option Binary64 := do
  let (number, exponent) ← match text.breakAt (· == 'e') with
    | none => some (text, 0)
    | some (number, _, rest) => (exponent? rest).map (number, ·)
  let (whole, fraction) : Text × Text := match number.breakAt (· == '.') with
    | none => (number, [])
    | some (whole, _, fraction) => (whole, fraction)
  let digits := whole ++ fraction
  if digits.isEmpty ∨ !digits.all Text.isDigit then none
  else some (.ofDecimal false (Text.valueIn 10 digits) (exponent - fraction.length))

/-- The floating-point number that a text in lower case writes. -/
def looseFloat (text : Text) : Except Fault Binary64 :=
  let (negative, unsigned) := openLoose text
  let number? :=
    if unsigned = "inf" ∨ unsigned = "infinity" then some (.infinite false)
    else if unsigned = "nan" then some .nan
    else decimal? unsigned
  match number? with
  | some number => .ok (if negative then number.negate else number)
  | none => .error (.noFloat text)

example : (looseInteger 8 " -0o17\t").toOption = some (-15) := by decide +kernel
example : (looseInteger 10 "\u0664\u0662").toOption = some 42 := by decide +kernel
example : (looseInteger 10 "1 2").toOption = none := by decide +kernel
example : (looseFloat " +1.5e1").toOption = some (.ofDecimal false 15 0) := by decide +kernel

end PathRights.Yaml
