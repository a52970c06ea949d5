import PathRights.Value.Binary64
import PathRights.Value.Calendar

/-!
The values of configuration: scalars, lists and mappings nested to any depth, and objects of other
types. A mapping keeps the order of its entries and its keys are scalars. Two keys are the same when
they denote the same thing, so that `1`, `1.0` and `true` are one key.
-/

namespace PathRights

/-- What the text of every foreign object shows: a quotation mark or a bracket. -/
def Foreign.marks : Text := "'\"([\x7b"

/-- An object that configuration has no form for, such as a set, a tuple or bytes: the name of its
type, its text, and whether it counts as nothing. It has no text when an integer in it has too many
digits to be shown. Bytes name a file, and so have a path. -/
structure Foreign where
  typeName : Text
  shown : Option Text
  isEmpty : Bool
  path : Option Text
  showsMark : ∀ text, shown = some text → ∃ c ∈ Foreign.marks, c ∈ text
deriving DecidableEq, Repr

/-- A value without parts, or one whose parts are not looked at. -/
inductive Scalar where
  | null
  | bool (b : Bool)
  | int (n : Int)
  | float (x : Binary64)
  | date (d : Date)
  | moment (m : Moment)
  | str (s : Text)
  | foreign (object : Foreign)
deriving DecidableEq, Repr

/-- A value of configuration. -/
inductive Value where
  | scalar (s : Scalar)
  | list (items : List Value)
  | map (entries : List (Scalar × Value))
deriving Repr

/-- The entries of a mapping, in order. -/
abbrev Mapping := List (Scalar × Value)

/-- What a key denotes. A number is its odd part and a power of two, and a moment counts from the
first day; two moments of which only one has an offset are never the same. -/
inductive KeyIdentity where
  | null
  | number (odd : Int) (exponent : Int)
  | infinite (negative : Bool)
  | nan
  | day (number : Nat)
  | moment (universal : Bool) (microseconds : Int)
  | text (s : Text)
  | foreign (object : Foreign)
deriving DecidableEq, Repr

/-- The number `mantissa * 2 ^ exponent`, with the power of two taken out of the mantissa. -/
def KeyIdentity.ofParts (negative : Bool) (mantissa : Nat) (exponent : Int) : KeyIdentity :=
  if _ : mantissa = 0 then .number 0 0
  else if mantissa % 2 = 0 then ofParts negative (mantissa / 2) (exponent + 1)
  else .number (if negative then -(mantissa : Int) else mantissa) exponent
termination_by mantissa
decreasing_by omega

namespace Scalar

/-- What the scalar denotes as a key. -/
def identity : Scalar → KeyIdentity
  | .null => .null
  | .bool b => .ofParts false b.toNat 0
  | .int n => .ofParts (n < 0) n.natAbs 0
  | .float (.finite negative mantissa exponent) => .ofParts negative mantissa exponent
  | .float (.infinite negative) => .infinite negative
  | .float .nan => .nan
  | .date d => .day d.number
  | .moment m => .moment m.offset.isSome m.microseconds
  | .str s => .text s
  | .foreign object => .foreign object

/-- The two scalars are one key. -/
def sameKey (a b : Scalar) : Bool := a.identity == b.identity

/-- The scalar counts as nothing: null, false, zero or the empty text. -/
def isEmpty : Scalar → Bool
  | .null => true
  | .bool b => !b
  | .int n => n == 0
  | .float x => x.isZero
  | .date _ | .moment _ => false
  | .str s => s.isEmpty
  | .foreign object => object.isEmpty

/-- The name of the scalar's type, as messages give it. -/
def typeName : Scalar → Text
  | .null => "NoneType"
  | .bool _ => "bool"
  | .int _ => "int"
  | .float _ => "float"
  | .date _ => "datetime.date"
  | .moment _ => "datetime.datetime"
  | .str _ => "str"
  | .foreign object => object.typeName

@[simp] theorem sameKey_refl (a : Scalar) : sameKey a a = true := by simp [sameKey]

theorem sameKey_comm (a b : Scalar) : sameKey a b = sameKey b a := by
  simp [sameKey, Bool.beq_comm]

theorem sameKey_trans {a b c : Scalar} (h : sameKey a b = true) (h' : sameKey b c = true) :
    sameKey a c = true := by
  simp_all [sameKey]

/-- Texts are the same key only if they are equal. -/
@[simp] theorem sameKey_str (a b : Text) : sameKey (.str a) (.str b) = (a == b) := by
  simp [sameKey, identity, Bool.beq_eq_decide_eq]

example : sameKey (.int 1) (.bool true) ∧ sameKey (.int 6) (.float (.finite false 3 1)) := by
  decide +kernel

end Scalar

namespace Value

/-- The null value. -/
def null : Value := .scalar .null

/-- A truth value. -/
def bool (b : Bool) : Value := .scalar (.bool b)

/-- An integer. -/
def int (n : Int) : Value := .scalar (.int n)

/-- A text. -/
def str (s : Text) : Value := .scalar (.str s)

/-- The value counts as nothing: an empty scalar, list or mapping. -/
def isEmpty : Value → Bool
  | .scalar s => s.isEmpty
  | .list items => items.isEmpty
  | .map entries => entries.isEmpty

/-- The name of the value's type, as messages give it. -/
def typeName : Value → Text
  | .scalar s => s.typeName
  | .list _ => "list"
  | .map _ => "dict"

/-- The last word of the name of the value's type. -/
def typeWord (value : Value) : Text := (value.typeName.splitOn '.').getLastD []

/-- The entries, when the value is a mapping. -/
def entries? : Value → Option Mapping
  | .map entries => some entries
  | _ => none

/-- The text, when the value is one. -/
def str? : Value → Option Text
  | .scalar (.str s) => some s
  | _ => none

/-- The path of the file that the value names, when it can name one. -/
def path? : Value → Option Text
  | .scalar (.str s) => some s
  | .scalar (.foreign object) => object.path
  | _ => none

end Value

end PathRights
