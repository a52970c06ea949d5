import PathRights.Text.Case
import PathRights.Value.Printer

/-!
Levels of a log. A record has one of four levels; a log has a threshold, which is a number or the
name of a level and admits the records at or above it.
-/

namespace PathRights.Log

/-- The levels with a name. -/
inductive Level where
  | debug
  | info
  | warning
  | error
  | critical
deriving DecidableEq, Repr

namespace Level

/-- The number of a level. -/
def number : Level → Int
  | .debug => 10
  | .info => 20
  | .warning => 30
  | .error => 40
  | .critical => 50

/-- The name of a level. -/
def name : Level → Text
  | .debug => "DEBUG"
  | .info => "INFO"
  | .warning => "WARNING"
  | .error => "ERROR"
  | .critical => "CRITICAL"

/-- The levels in ascending order. -/
def all : List Level := [.debug, .info, .warning, .error, .critical]

/-- The level of a name in upper case. -/
def ofName? (name : Text) : Option Level := all.find? fun level => level.name == name

end Level

/-- What a log admits: the records whose level has at least this number. -/
structure Threshold where
  number : Int
deriving DecidableEq, Repr

/-- Why a value is no threshold. -/
inductive ThresholdError where
  /-- No level has the name, which is in upper case. -/
  | unknownName (name : Text)
  | badType (value : Value)
deriving Repr

/-- The error in words. -/
def ThresholdError.message : ThresholdError → Text
  | .unknownName name => name.quoted
  | .badType value => "Level not an integer or a valid string: " ++ value.inner

namespace Threshold

/-- The threshold at a level. -/
def ofLevel (level : Level) : Threshold := ⟨level.number⟩

/-- The threshold that a value sets: an integer, a truth value as an integer, or the name of a level
in any case. -/
def ofValue : Value → Except ThresholdError Threshold
  | .scalar (.int n) => .ok ⟨n⟩
  | .scalar (.bool b) => .ok ⟨b.toNat⟩
  | .scalar (.str s) =>
    match Level.ofName? s.upper with
    | some level => .ok (ofLevel level)
    | none => .error (.unknownName s.upper)
  | value => .error (.badType value)

/-- The threshold admits a record of a level. A threshold of zero is none at all and leaves the one
that holds where nothing else is set, which is that of warnings. -/
def admits (threshold : Threshold) (level : Level) : Bool :=
  (if threshold.number = 0 then Level.warning.number else threshold.number) ≤ level.number

end Threshold

end PathRights.Log
