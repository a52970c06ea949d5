import PathRights.Value.Basic
import PathRights.Text.Quoted

/-!
Values as text. A text stands for itself when it is shown alone and is quoted inside a list or a
mapping, and days and moments have two forms likewise; the other values are shown in one way. An
integer with too many digits is not shown at all, and nothing that it is a part of.
-/

namespace PathRights

/-- The scalar inside a list or a mapping. -/
def Scalar.inner : Scalar → Text
  | .null => "None"
  | .bool b => if b then "True" else "False"
  | .int n => Text.ofInt n
  | .float x => x.text
  | .date d => d.inner
  | .moment m => m.inner
  | .str s => Text.quoted s
  | .foreign object => object.shown.getD []

/-- The scalar can be shown: it is no integer with too many digits, and holds none. -/
def Scalar.isShowable : Scalar → Bool
  | .int n => n.natAbs < Nat.pow 10 Text.digitLimit
  | .foreign object => object.shown.isSome
  | _ => true

namespace Value

mutual

/-- The value inside a list or a mapping. -/
def inner : Value → Text
  | .scalar s => s.inner
  | .list items => '[' :: List.intercalate ", " (innerItems items) ++ [']']
  | .map entries => '{' :: List.intercalate ", " (innerEntries entries) ++ ['}']

/-- The items of a list. -/
def innerItems : List Value → List Text
  | [] => []
  | item :: items => inner item :: innerItems items

/-- The entries of a mapping. -/
def innerEntries : List (Scalar × Value) → List Text
  | [] => []
  | (key, value) :: entries => (key.inner ++ ": " ++ inner value) :: innerEntries entries

end

/-- The value shown alone. -/
def text : Value → Text
  | .scalar (.str s) => s
  | .scalar (.date d) => d.text
  | .scalar (.moment m) => m.text
  | value => inner value

mutual

/-- The value can be shown: no integer in it has too many digits. -/
def isShowable : Value → Bool
  | .scalar s => s.isShowable
  | .list items => areShowable items
  | .map entries => entriesAreShowable entries

/-- All items of a list can be shown. -/
def areShowable : List Value → Bool
  | [] => true
  | item :: items => isShowable item && areShowable items

/-- All entries of a mapping can be shown, with their keys. -/
def entriesAreShowable : List (Scalar × Value) → Bool
  | [] => true
  | (key, value) :: entries => key.isShowable && isShowable value && entriesAreShowable entries

end

/-- The value's type as messages show it. -/
def typeText (value : Value) : Text := "<class '" ++ value.typeName ++ "'>"

example : text (.list [.str "a'b", .null, .int 1]) = "[\"a'b\", None, 1]" := by decide +kernel

end Value

end PathRights
