import PathRights.Text.PrintableTable
import PathRights.Text.Ranges

/-!
Printable characters: the ones that a quoted text shows as themselves.
-/

namespace PathRights.Text

/-- The character is shown as itself. -/
def isPrintable (c : Char) : Bool := !liesIn unprintable c

example : isPrintable ' ' ∧ isPrintable 'é' ∧ isPrintable '😀' := by decide +kernel
example : isPrintable '\x7f' = false ∧ isPrintable '\u0378' = false := by decide +kernel

end PathRights.Text
