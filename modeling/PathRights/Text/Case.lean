import PathRights.Text.CaseTable
import PathRights.Text.Ranges
import PathRights.Text.SigmaTable

/-!
Upper and lower case of whole texts, by the case mappings of Unicode. A letter may have a form of
several characters, and the Greek capital sigma has a lower-case form of its own at the end of a
word.
-/

namespace PathRights.Text

/-- The form of one character that a table of runs and one of expansions give. -/
def mapCase (runs : List CaseRun) (expansions : List (Nat × List Nat)) (c : Char) : Text :=
  match runs.find? (·.covers c.toNat) with
  | some run => [Char.ofNat (c.toNat + run.offset).toNat]
  | none =>
    match expansions.lookup c.toNat with
    | some codes => codes.map Char.ofNat
    | none => [c]

/-- A character in upper case. -/
def upperChar (c : Char) : Text := mapCase upperRuns upperExpansions c

/-- A character in lower case, wherever it stands. -/
def lowerChar (c : Char) : Text := mapCase lowerRuns lowerExpansions c

/-- The next character that is not passed over has case. -/
def meetsCased (text : Text) : Bool :=
  ((text.dropWhile (liesIn caseIgnorable)).head?.map (liesIn cased)).getD false

/-- The text in lower case, given the characters before it, the nearest first. A capital sigma that
ends a word becomes the final sigma. -/
def lowerAfter (before : Text) : Text → Text
  | [] => []
  | c :: rest =>
    (if c = 'Σ' ∧ meetsCased before ∧ !meetsCased rest then ['ς'] else lowerChar c) ++
      lowerAfter (c :: before) rest

/-- The text in lower case. -/
def lower (text : Text) : Text := lowerAfter [] text

/-- The text in upper case. -/
def upper (text : Text) : Text := text.flatMap upperChar

example : upper "ınfo" = "INFO" := by decide +kernel
example : upper "ſß" = "SSS" := by decide +kernel
example : lower "ROLES_ÉΣ" = "roles_éς" := by decide +kernel
example : lower "ΑΣ\u0483Α" = "ασ\u0483α" := by decide +kernel

end PathRights.Text
