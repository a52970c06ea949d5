import PathRights.Text.Basic

/-!
Blank characters: the ones that separate the fields of a rule line and that are trimmed from its
end, from role specifications and from options. They are the white space and the separators of
Unicode and the four information separators of ASCII.
-/

namespace PathRights.Text

/-- The character is white space or a separator: U+0009 to U+000D, U+001C to U+0020, U+0085,
U+00A0, U+1680, U+2000 to U+200A, U+2028, U+2029, U+202F, U+205F or U+3000. -/
def isBlank (c : Char) : Bool :=
  let n := c.toNat
  (0x09 ≤ n && n ≤ 0x0D) || (0x1C ≤ n && n ≤ 0x20) || n == 0x85 || n == 0xA0 || n == 0x1680 ||
    (0x2000 ≤ n && n ≤ 0x200A) || n == 0x2028 || n == 0x2029 || n == 0x202F || n == 0x205F ||
    n == 0x3000

/-- The text without the blanks at its end. -/
def trimEnd (text : Text) : Text := (text.reverse.dropWhile isBlank).reverse

/-- The text without the blanks at its start and at its end. -/
def trim (text : Text) : Text := trimEnd (text.dropWhile isBlank)

/-- The pieces between the runs of blanks. A text that starts with a blank has an empty first
piece, one that ends with a blank an empty last piece. -/
def fields : Text → List Text
  | [] => [[]]
  | c :: rest =>
    if isBlank c then
      match rest.head? with
      | some next => if isBlank next then fields rest else [] :: fields rest
      | none => [] :: fields rest
    else consHead c (fields rest)

example : fields "*.txt  web" = ["*.txt".toList, "web".toList] := by decide
example : fields " a" = [[], ['a']] := by decide
example : trim "\t a b\u00a0" = "a b" := by decide

end PathRights.Text
