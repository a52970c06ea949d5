import PathRights.SystemError
import PathRights.Value.Basic

/-!
Readers of documents. What a document means is left to a reader, which may be any function that
gives a text a value or says why it has none.
-/

namespace PathRights

/-- Why a text has no value. -/
inductive ReadFault where
  | malformed
  /-- The text has a mapping that contains itself. It can be read, but it cannot be merged. -/
  | endless
  | crash (fault : Crash)
deriving DecidableEq, Repr

/-- A reader of documents. -/
structure Reader where
  read : Text → Except ReadFault Value

/-- Every text is read or found to be malformed. -/
def Reader.Answers (reader : Reader) : Prop :=
  ∀ text fault, reader.read text ≠ .error (.crash fault)

/-- What merging a mapping that contains itself ends with. -/
def Crash.endless : Crash :=
  ⟨"RecursionError", "maximum recursion depth exceeded while calling a Python object"⟩

end PathRights
