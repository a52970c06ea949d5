import PathRights.Text.Basic

/-!
Numerals: natural numbers and integers written in a base up to sixteen, and padded with zeros.
-/

namespace PathRights.Text

/-- The digit of value `n`, in lower case from ten on. -/
def digit (n : Nat) : Char :=
  if n < 10 then Char.ofNat ('0'.toNat + n) else Char.ofNat ('a'.toNat + (n - 10))

/-- The numeral of `n` in a base of at least two, without leading zeros. -/
def numeral (base n : Nat) : Text :=
  if _ : n < base ∨ base < 2 then [digit n]
  else numeral base (n / base) ++ [digit (n % base)]
termination_by n
decreasing_by exact Nat.div_lt_self (by omega) (by omega)

/-- The numeral of a natural number in base ten. -/
def ofNat (n : Nat) : Text := numeral 10 n

/-- The numeral of an integer in base ten, with a sign when it is negative. -/
def ofInt : Int → Text
  | .ofNat n => ofNat n
  | .negSucc n => '-' :: ofNat (n + 1)

/-- The text, with zeros in front where it is shorter than `width`. -/
def padZeros (width : Nat) (text : Text) : Text :=
  List.replicate (width - text.length) '0' ++ text

/-- How many digits a decimal numeral may have, where numbers are read and where they are shown. -/
def digitLimit : Nat := 4300

/-- What is said of a decimal numeral that has more. -/
def digitLimitMessage (detail : Text) : Text :=
  "Exceeds the limit (" ++ ofNat digitLimit ++ " digits) for integer string conversion" ++ detail ++
    "; use sys.set_int_max_str_digits() to increase the limit"

/-- A mode as it is shown: in octal, with at least four characters, the sign included. -/
def ofMode : Int → Text
  | .ofNat n => padZeros 4 (numeral 8 n)
  | .negSucc n => '-' :: padZeros 3 (numeral 8 (n + 1))

/-- The character is one of `0` to `9`. -/
def isDigit (c : Char) : Bool := '0' ≤ c && c ≤ '9'

/-- The character is one of `0` to `7`. -/
def isOctalDigit (c : Char) : Bool := '0' ≤ c && c ≤ '7'

/-- The value of a digit. -/
def digitValue (c : Char) : Nat :=
  if isDigit c then c.toNat - '0'.toNat
  else if 'a' ≤ c then c.toNat - 'a'.toNat + 10
  else c.toNat - 'A'.toNat + 10

/-- The number that the digits of `text` write in `base`. -/
def valueIn (base : Nat) (text : Text) : Nat :=
  text.foldl (fun n c => n * base + digitValue c) 0

@[simp] theorem valueIn_append_singleton (base : Nat) (text : Text) (c : Char) :
    valueIn base (text ++ [c]) = valueIn base text * base + digitValue c := by
  simp [valueIn]

/-- Leading zeros leave the value as it is. -/
theorem valueIn_padZeros (base width : Nat) (text : Text) :
    valueIn base (padZeros width text) = valueIn base text := by
  have hzero : ∀ k, (List.replicate k '0').foldl (fun n c => n * base + digitValue c) 0 = 0 := by
    intro k
    induction k with
    | zero => rfl
    | succ k ih => simpa [List.replicate_succ, digitValue, isDigit] using ih
  simp [valueIn, padZeros, List.foldl_append, hzero]

example : ofInt (-17) = "-17" := by decide +kernel
example : ofMode 0o755 = "0755" ∧ ofMode (-1) = "-001" := by decide +kernel
example : valueIn 8 "644" = 420 := by decide

end PathRights.Text
