import PathRights.Value.Printer

/-!
Modes: permission bits written as three or four octal digits, and the mode that a directory gets
from the mode of files.
-/

namespace PathRights.Role

/-- The text is three or four octal digits. -/
def isMode (text : Text) : Bool :=
  (text.length == 3 || text.length == 4) && text.all Text.isOctalDigit

/-- Why a value is no mode. -/
inductive ModeError where
  /-- The value, shown as text, is not three or four octal digits. -/
  | malformed (value : Value)
  /-- The value is a number whose digits would be a mode if it were a text. -/
  | notText
  /-- A number in the value has too many digits to be shown. -/
  | overlong
deriving Repr

/-- The error in words. -/
def ModeError.message : ModeError → Text
  | .malformed value =>
    "Invalid permission mode (must be 3-4 octal digits): " ++ value.text
  | .notText => "int() can't convert non-string with explicit base"
  | .overlong => Text.digitLimitMessage []

/-- Reads a mode. The digits may be followed by a line feed. -/
def parseMode (value : Value) : Except ModeError Nat :=
  if !value.isShowable then .error .overlong
  else if isMode value.text ∨ isMode value.text.dropFinalNewline then
    match value.str? with
    | some text => .ok (Text.valueIn 8 text.dropFinalNewline)
    | none => .error .notText
  else .error (.malformed value)

/-- The bits that let owner, group and others read. -/
def readBits : Nat := 0o444

/-- The mode of a directory that goes with a mode of files: whoever may read may also enter. -/
def deriveDirectoryMode (fileMode : Nat) : Nat := fileMode ||| ((fileMode &&& readBits) >>> 2)

example : deriveDirectoryMode 0o644 = 0o755 ∧ deriveDirectoryMode 0o600 = 0o700 := by decide

end PathRights.Role
