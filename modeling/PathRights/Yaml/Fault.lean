import PathRights.Value.Reader

/-!
What is wrong with a document. Most documents that cannot be read are just malformed; some parts of
a document have the right form and yet denote nothing, such as a day that the calendar does not
have, or a part that refers to itself.
-/

namespace PathRights.Yaml

/-- Why a document has no value. -/
inductive Fault where
  | malformed
  /-- An escape has the number of no character. -/
  | noCharacter (code : Nat)
  /-- Digits are missing, or are none in a base. -/
  | noNumeral (base : Nat) (text : Text)
  /-- A decimal number has too many digits. -/
  | longNumeral (digits : Nat)
  /-- A number in parts of sixty has too many parts. -/
  | manySixties
  | noFloat (text : Text)
  | noTruth (word : Text)
  | noTime
  /-- What is marked as a number is empty. -/
  | emptyNumber
  | calendar (error : CalendarError)
  /-- A part refers to itself from inside, so that its value would have no end. -/
  | endless
deriving DecidableEq, Repr

/-- The greatest number that an escape may have without being out of every range. -/
def escapeLimit : Nat := 0x7FFFFFFF

/-- How much of a text that is no numeral is shown, in quotes. -/
def quotedLimit : Nat := 200

/-- The kind of the error that the fault is. -/
def Fault.kind : Fault → Text
  | .noCharacter code => if escapeLimit < code then "OverflowError" else "ValueError"
  | .manySixties => "OverflowError"
  | .noTruth _ => "KeyError"
  | .noTime => "AttributeError"
  | .emptyNumber => "IndexError"
  | .malformed => "YAMLError"
  | .endless => Crash.endless.kind
  | _ => "ValueError"

/-- The fault in words. -/
def Fault.message : Fault → Text
  | .malformed => "malformed document"
  | .noCharacter code =>
    if escapeLimit < code then "Python int too large to convert to C int"
    else "chr() arg not in range(0x110000)"
  | .noNumeral base text =>
    "invalid literal for int() with base " ++ Text.ofNat base ++ ": " ++
      text.quoted.take quotedLimit
  | .longNumeral digits =>
    Text.digitLimitMessage (": value has " ++ Text.ofNat digits ++ " digits")
  | .manySixties => "int too large to convert to float"
  | .noFloat text => "could not convert string to float: " ++ text.quoted
  | .noTruth word => word.quoted
  | .noTime => "'NoneType' object has no attribute 'groupdict'"
  | .emptyNumber => "string index out of range"
  | .calendar error => error.message
  | .endless => Crash.endless.message

end PathRights.Yaml
