import PathRights.Value.Mapping
import PathRights.Value.Printer

/-!
Looking into values and changing them. A step into a value is a key of a mapping or a place in a
list, counted from its start or, below zero, from its end; the character at a place of a text can be
looked at, but a text is never changed.
-/

namespace PathRights

/-- Why a step into a value leads nowhere. Types are given by their names. -/
inductive EditError where
  | noParts (type : Text)
  | unchangeable (type : Text)
  | missingKey (key : Scalar)
  | badKey (type : Text)
  /-- The place is no integer. -/
  | badPlace (text : Bool) (type : Text)
  /-- No value has as many places. -/
  | hugePlace
  | outsideText
  | outsideList (changing : Bool)
deriving DecidableEq, Repr

/-- The error in words. -/
def EditError.message : EditError → Text
  | .noParts type => "'" ++ type ++ "' object is not subscriptable"
  | .unchangeable type => "'" ++ type ++ "' object does not support item assignment"
  | .missingKey key => key.inner
  | .badKey type => "unhashable type: '" ++ type ++ "'"
  | .badPlace true type => "string indices must be integers, not '" ++ type ++ "'"
  | .badPlace false type => "list indices must be integers or slices, not " ++ type
  | .hugePlace => "cannot fit 'int' into an index-sized integer"
  | .outsideText => "string index out of range"
  | .outsideList true => "list assignment index out of range"
  | .outsideList false => "list index out of range"

namespace Value

/-- The key that a step is. -/
def stepKey : Value → Except EditError Scalar
  | .scalar s => .ok s
  | step => .error (.badKey step.typeName)

/-- The place that a step is. A truth value counts as a number. -/
def stepPlace (text : Bool) : Value → Except EditError Int
  | .scalar (.int n) => if n.natAbs < Nat.pow 2 63 then .ok n else .error .hugePlace
  | .scalar (.bool b) => .ok b.toNat
  | step => .error (.badPlace text step.typeName)

/-- A place, counted from the start of what has `length` places. -/
def placeIn? (length : Nat) (place : Int) : Option Nat :=
  let fromStart := if place < 0 then place + length else place
  if 0 ≤ fromStart ∧ fromStart < length then some fromStart.toNat else none

/-- The part of a value that a step leads to. -/
def part (value step : Value) : Except EditError Value :=
  match value with
  | .map entries => do
    let key ← stepKey step
    match Mapping.get? entries key with
    | some inner => .ok inner
    | none => .error (.missingKey key)
  | .list items => do
    match (placeIn? items.length (← stepPlace false step)).bind (items[·]?) with
    | some item => .ok item
    | none => .error (.outsideList false)
  | .scalar (.str text) => do
    match (placeIn? text.length (← stepPlace true step)).bind (text[·]?) with
    | some c => .ok (.str [c])
    | none => .error .outsideText
  | value => .error (.noParts value.typeName)

/-- The value with a part changed. A mapping may get a new key, and a list no new place. -/
def setPart (value step new : Value) : Except EditError Value :=
  match value with
  | .map entries => do return .map (Mapping.set entries (← stepKey step) new)
  | .list items => do
    match placeIn? items.length (← stepPlace false step) with
    | some place => .ok (.list (items.set place new))
    | none => .error (.outsideList true)
  | .scalar (.str text) =>
    match stepPlace true step with
    | .error .hugePlace => .error .hugePlace
    | _ => .error (.unchangeable (Value.str text).typeName)
  | value => .error (.unchangeable value.typeName)

/-- The value with the part changed that steps lead to. No steps lead to the value itself. -/
def setAt (value : Value) (steps : List Value) (new : Value) : Except EditError Value :=
  match steps with
  | [] => .ok new
  | [step] => setPart value step new
  | step :: steps => do setPart value step (← setAt (← part value step) steps new)

end Value

end PathRights
