import PathRights.Text.Basic

/-!
The lines of a text file. A line ends with a line feed, a carriage return, or both in this order;
once read, every line that is ended ends with a line feed.
-/

namespace PathRights.Text

/-- The text with every line ended by a line feed alone. -/
def normalizeNewlines : Text → Text
  | [] => []
  | '\r' :: '\n' :: rest => '\n' :: normalizeNewlines rest
  | c :: rest => (if c = '\r' then '\n' else c) :: normalizeNewlines rest

/-- The lines of a text in which a line feed ends a line, each with its line feed. What follows the
last line feed is a line only if it is not empty. -/
def lines : Text → List Text
  | [] => []
  | c :: rest => if c = '\n' then ['\n'] :: lines rest else consHead c (lines rest)

example : lines (normalizeNewlines "a\r\nb\rc") = ["a\n".toList, "b\n".toList, "c".toList] := by
  decide

end PathRights.Text
