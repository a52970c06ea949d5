import PathRights.Text.Printable
import PathRights.Text.Numeral

/-!
Quoted text, as messages show names and lines: in single quotes, or in double quotes where the text
has a single quote and no double one, with every character that is not printable escaped.
-/

namespace PathRights.Text

/-- The numeral of `n` in base sixteen, with at least `width` digits. -/
def hex (width n : Nat) : Text := padZeros width (numeral 16 n)

/-- A character between the quotes `quote`: the quote itself, the backslash, the tab, the line feed
and the carriage return have an escape of two characters; other unprintable characters are written
by number, as briefly as the number admits. -/
def escapeChar (quote c : Char) : Text :=
  if c = quote ∨ c = '\\' then ['\\', c]
  else if c = '\t' then "\\t"
  else if c = '\n' then "\\n"
  else if c = '\r' then "\\r"
  else if isPrintable c then [c]
  else if c.toNat < 0x100 then "\\x" ++ hex 2 c.toNat
  else if c.toNat < 0x10000 then "\\u" ++ hex 4 c.toNat
  else "\\U" ++ hex 8 c.toNat

/-- The quote to put around a text. -/
def quoteFor (text : Text) : Char :=
  if text.contains '\'' && !text.contains '"' then '"' else '\''

/-- The text in quotes. -/
def quoted (text : Text) : Text :=
  quoteFor text :: text.flatMap (escapeChar (quoteFor text)) ++ [quoteFor text]

example : quoted "it's" = "\"it's\"" := by decide +kernel
example : quoted "a'\"\n" = "'a\\'\"\\n'" := by decide +kernel
example : quoted "\u00a0" = "'\\xa0'" := by decide +kernel

end PathRights.Text
