import PathRights.Text.Numeral

/-!
Floating-point numbers of 64 bits, as exact values: an integer below 2^53 times a power of two, an
infinity, or no number. A decimal is read as the nearest of them, the even one of two that are
equally near, and a number is written with the fewest digits that are read back as it.
-/

namespace PathRights

/-- A floating-point number: `mantissa * 2 ^ exponent` with its sign, an infinity, or no number. -/
inductive Binary64 where
  | finite (negative : Bool) (mantissa : Nat) (exponent : Int)
  | infinite (negative : Bool)
  | nan
deriving DecidableEq, Repr

namespace Binary64

/-- The fraction `num / den`, divided by `2 ^ exponent`. -/
def scaleDown (num den : Nat) (exponent : Int) : Nat × Nat :=
  if 0 ≤ exponent then (num, den * Nat.pow 2 exponent.toNat)
  else (num * Nat.pow 2 (-exponent).toNat, den)

/-- The integer nearest to `num / den`, the even one of two that are equally near. -/
def roundHalfEven (num den : Nat) : Nat :=
  let quotient := num / den
  let twice := 2 * (num % den)
  if twice < den ∨ (twice = den ∧ quotient % 2 = 0) then quotient else quotient + 1

/-- The exponent of the floating-point number nearest to `num / den`: the one that leaves 53 bits
before the point, but not below the least exponent. -/
def exponentFor (num den : Nat) : Int :=
  let guess : Int := (num.log2 : Int) - (den.log2 : Int) - 52
  let (n, d) := scaleDown num den guess
  let exact :=
    if n / d < Nat.pow 2 52 then guess - 1
    else if Nat.pow 2 53 ≤ n / d then guess + 1
    else guess
  max exact (-1074)

/-- The floating-point number nearest to `num / den`. -/
def ofFraction (negative : Bool) (num den : Nat) : Binary64 :=
  if num = 0 then .finite negative 0 0
  else
    let exponent := exponentFor num den
    let (n, d) := scaleDown num den exponent
    let mantissa := roundHalfEven n d
    let (mantissa, exponent) :=
      if mantissa = Nat.pow 2 53 then (Nat.pow 2 52, exponent + 1) else (mantissa, exponent)
    if 971 < exponent then .infinite negative
    else if mantissa = 0 then .finite negative 0 0
    else .finite negative mantissa exponent

/-- The floating-point number nearest to `digits * 10 ^ exponent`. A power of ten that is beyond all
floating-point numbers, whatever the digits, is not computed. -/
def ofDecimal (negative : Bool) (digits : Nat) (exponent : Int) : Binary64 :=
  if digits = 0 ∨ exponent + digits.log2 + 1 < -400 then .finite negative 0 0
  else if 400 < exponent then .infinite negative
  else if 0 ≤ exponent then ofFraction negative (digits * Nat.pow 10 exponent.toNat) 1
  else ofFraction negative digits (Nat.pow 10 (-exponent).toNat)

/-! ### Arithmetic -/

/-- The floating-point number nearest to `mantissa * 2 ^ exponent`. -/
def ofDyadic (negative : Bool) (mantissa : Nat) (exponent : Int) : Binary64 :=
  let (num, den) := scaleDown mantissa 1 (-exponent)
  ofFraction negative num den

/-- The floating-point number nearest to a natural number. -/
def ofNat (n : Nat) : Binary64 := ofFraction false n 1

/-- The number with the other sign. -/
def negate : Binary64 → Binary64
  | .finite negative mantissa exponent => .finite (!negative) mantissa exponent
  | .infinite negative => .infinite (!negative)
  | .nan => .nan

/-- The product, rounded to the nearest floating-point number. -/
def mul : Binary64 → Binary64 → Binary64
  | .nan, _ | _, .nan => .nan
  | .finite s m e, .finite t n f => ofDyadic (s != t) (m * n) (e + f)
  | .finite s m _, .infinite t | .infinite s, .finite t m _ =>
    if m = 0 then .nan else .infinite (s != t)
  | .infinite s, .infinite t => .infinite (s != t)

/-- The mantissa of a finite number, with its sign, for a smaller exponent. -/
def scaled (negative : Bool) (mantissa : Nat) (exponent smaller : Int) : Int :=
  let n : Int := mantissa * Nat.pow 2 (exponent - smaller).toNat
  if negative then -n else n

/-- The sum, rounded to the nearest floating-point number. A zero sum of numbers that are not both
negative zeros is positive. -/
def add : Binary64 → Binary64 → Binary64
  | .nan, _ | _, .nan => .nan
  | .finite s m e, .finite t n f =>
    let smaller := min e f
    let sum := scaled s m e smaller + scaled t n f smaller
    if sum = 0 then .finite (s && t && m == 0) 0 0 else ofDyadic (sum < 0) sum.natAbs smaller
  | .finite .., .infinite t => .infinite t
  | .infinite s, .finite .. => .infinite s
  | .infinite s, .infinite t => if s = t then .infinite s else .nan

/-! ### Text -/

/-- How many zeros follow the point of `num / den`, a fraction below one; at most `limit`. -/
def leadingZeros (den : Nat) : (limit num : Nat) → Nat
  | 0, _ => 0
  | limit + 1, num => if num * 10 < den then leadingZeros den limit (num * 10) + 1 else 0

/-- The place of the point of `num / den` behind its first digit other than zero. -/
def pointOf (num den : Nat) : Int :=
  if den ≤ num then ((Text.ofNat (num / den)).length : Int)
  else -(leadingZeros den 400 num : Int)

/-- The decimal of `count` digits that is read as `mantissa * 2 ^ exponent`, if there is one: its
digits and the place of its point. Of two such decimals it is the nearer. -/
def decimalOf? (mantissa : Nat) (exponent : Int) (count : Nat) : Option (Nat × Int) :=
  let (num, den) := scaleDown mantissa 1 (-exponent)
  let point := pointOf num den
  let shift := (count : Int) - point
  let (n, d) :=
    if 0 ≤ shift then (num * Nat.pow 10 shift.toNat, den)
      else (num, den * Nat.pow 10 (-shift).toNat)
  let nearest := roundHalfEven n d
  let other := if nearest = n / d then nearest + 1 else n / d
  let reads (digits : Nat) : Bool :=
    ofDecimal false digits (-shift) == .finite false mantissa exponent
  if reads nearest then some (nearest, point)
  else if reads other then some (other, point)
  else none

/-- The fewest digits that are read back as the number, and the place of the point. -/
def shortest (mantissa : Nat) (exponent : Int) : Text × Int :=
  match (List.range 17).findSome? fun k => (decimalOf? mantissa exponent (k + 1)).map (k, ·) with
  | some (k, digits, point) =>
    let text := Text.ofNat digits
    ((text.reverse.dropWhile (· == '0')).reverse,
      if k + 1 < text.length then point + 1 else point)
  | none => (['0'], 1)

/-- Digits with their point in its place; a number without a fraction shows one zero after it. From
10^16 on and below 10^-4 the exponent of ten is written out, with two digits at least. -/
def layOut (digits : Text) (point : Int) : Text :=
  if -4 < point ∧ point ≤ 16 then
    if point ≤ 0 then "0." ++ List.replicate (-point).toNat '0' ++ digits
    else
      let whole := digits.take point.toNat
      let fraction := digits.drop point.toNat
      whole ++ List.replicate (point.toNat - whole.length) '0' ++ "." ++
        (if fraction.isEmpty then ['0'] else fraction)
  else
    let tens := point - 1
    digits.take 1 ++ (if digits.length = 1 then [] else '.' :: digits.drop 1) ++
      (if tens < 0 then "e-" else "e+") ++ Text.padZeros 2 (Text.ofNat tens.natAbs)

/-- The number as text. -/
def text : Binary64 → Text
  | .nan => "nan"
  | .infinite negative => if negative then "-inf" else "inf"
  | .finite negative mantissa exponent =>
    (if negative then ['-'] else []) ++
      if mantissa = 0 then ("0.0" : Text)
      else
        let (digits, point) := shortest mantissa exponent
        layOut digits point

/-- The number is zero. -/
def isZero : Binary64 → Bool
  | .finite _ mantissa _ => mantissa == 0
  | _ => false

example : (ofDecimal false 15 (-1)).text = "1.5" := by decide +kernel
example : (ofDecimal true 7550 (-1)).text = "-755.0" := by decide +kernel
example : (ofDecimal false 1 16).text = "1e+16" := by decide +kernel
example : (ofDecimal false 5 (-324)).text = "5e-324" := by decide +kernel
example : (ofDecimal false 1 (-1)).text = "0.1" := by decide +kernel
example : (add (ofDecimal false 1 (-1)) (ofDecimal false 2 (-1))).text = "0.30000000000000004" := by
  decide +kernel

end Binary64

end PathRights
