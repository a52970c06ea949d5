import PathRights.Log.Journal

/-!
The journal that is shared by all who do not have one of their own. It is made when it is first
asked for, and made anew when it is asked for under another name; every one that is made has a
number.
-/

namespace PathRights.Log

/-- The shared journal with its number, if there is one, and how many were made so far. -/
structure Shared where
  current : Option (Nat × Journal)
  made : Nat

namespace Shared

/-- No journal was made. -/
def start : Shared := ⟨none, 0⟩

/-- Makes a journal for the level of plain information and shares it. -/
def make (shared : Shared) (name time : Text) : (Nat × Journal) × Shared :=
  let entry := (shared.made, Journal.start name time (.ofLevel .info))
  (entry, ⟨some entry, shared.made + 1⟩)

/-- The shared journal under a name. -/
def get (shared : Shared) (name time : Text) : (Nat × Journal) × Shared :=
  match shared.current with
  | some entry => if entry.2.name = name then (entry, shared) else shared.make name time
  | none => shared.make name time

/-- No journal is shared any more. -/
def clear (shared : Shared) : Shared := { shared with current := none }

end Shared

end PathRights.Log
