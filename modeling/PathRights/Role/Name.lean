import PathRights.Value.Printer

/-!
The names of roles: lower-case letters, digits, `_` and `-`, with a letter or `_` first.
-/

namespace PathRights.Role

/-- Why a value is no name of a role. -/
inductive NameError where
  | empty
  | notText (value : Value)
  | malformed (name : Text)
deriving Repr

/-- The error in words. -/
def NameError.message : NameError → Text
  | .empty => "Role name cannot be empty"
  | .notText value => "Role name must be string, got " ++ value.typeText
  | .malformed name =>
    "Invalid role name: " ++ name.quoted ++ ": must start with a lowercase letter or underscore " ++
      "and contain only lowercase letters, digits, underscore, and hyphen"

/-- The character may begin a name. -/
def isNameStart (c : Char) : Bool := ('a' ≤ c && c ≤ 'z') || c == '_'

/-- The character may stand in a name. -/
def isNameChar (c : Char) : Bool := isNameStart c || Text.isDigit c || c == '-'

/-- The text has the form of a name. -/
def isPlainName : Text → Bool
  | [] => false
  | c :: rest => isNameStart c && rest.all isNameChar

/-- The text is accepted as a name: it is one, or one followed by a line feed. -/
def isName (name : Text) : Bool := isPlainName name || isPlainName name.dropFinalNewline

/-- Checks a text that should be the name of a role. -/
def checkNameText (name : Text) : Except NameError Text :=
  if name.isEmpty then .error .empty
  else if isName name then .ok name
  else .error (.malformed name)

/-- Checks a value that should be the name of a role. A value that counts as nothing is an empty
name whatever its type. -/
def checkName (value : Value) : Except NameError Text :=
  if value.isEmpty then .error .empty
  else
    match value.str? with
    | some name => checkNameText name
    | none => .error (.notText value)

example : isName "web" ∧ isName "_x-9" ∧ isName "web\n" := by decide
example : isName "Web" = false ∧ isName "9lives" = false ∧ isName "web\n\n" = false := by decide

end PathRights.Role
