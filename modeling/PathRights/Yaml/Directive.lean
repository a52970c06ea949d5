import PathRights.Yaml.BlockScalar
import PathRights.Yaml.Property

/-!
Directives: lines in front of a document that start with a percent sign. The version must be given
at most once and be of the first kind, and a handle of tags may be declared once; any other
directive is passed over.
-/

namespace PathRights.Yaml

/-- The directives that were read: how many there are, whether one gave the version, and the handles
that were declared. -/
structure Directives where
  lines : Nat
  version : Bool
  handles : List Text
deriving DecidableEq, Repr

namespace Directives

/-- No directive was read. -/
def none : Directives := ⟨0, false, []⟩

/-- The marks behind spaces. -/
def skipSpaces (marks : List Mark) : List Mark := marks.dropWhile (·.char == ' ')

/-- The digits in front, and what follows them. -/
def number (marks : List Mark) : Reading Nat :=
  let digits := (marks.takeWhile fun m => Text.isDigit m.char).map (·.char)
  if digits.isEmpty then .error .malformed
  else .ok (Text.valueIn 10 digits, marks.dropWhile fun m => Text.isDigit m.char)

/-- The version: two numbers with a point between them, of which the first is one. -/
def readVersion (directives : Directives) (marks : List Mark) :
    Except Fault (Directives × List Mark) := do
  let (major, after) ← number (skipSpaces marks)
  if !(after.head?.any (·.char == '.')) then .error .malformed
  let (_, after) ← number (after.drop 1)
  if !atSpace after ∨ directives.version ∨ major ≠ 1 then .error .malformed
  return ({ directives with version := true }, after)

/-- A handle: exclamation marks around a name, or a single one. -/
def handle : List Mark → Reading Text
  | [] => .error .malformed
  | m :: rest =>
    if m.char ≠ '!' then .error .malformed
    else if rest.head?.any (·.char == ' ') then .ok (['!'], rest)
    else
      let name := (rest.takeWhile fun n => isNameChar n.char).map (·.char)
      let after := rest.dropWhile fun n => isNameChar n.char
      if after.head?.any (·.char == '!') then .ok ('!' :: name ++ ['!'], after.drop 1)
      else .error .malformed

/-- A handle and the address that it stands for. -/
def readHandle (directives : Directives) (marks : List Mark) :
    Except Fault (Directives × List Mark) := do
  let (name, after) ← handle (skipSpaces marks)
  if !(after.head?.any (·.char == ' ')) then .error .malformed
  let (text, after) ← address [] (skipSpaces after)
  if text.isEmpty ∨ !atSpace after ∨ directives.handles.contains name then .error .malformed
  return ({ directives with handles := directives.handles ++ [name] }, after)

/-- A directive, read behind its percent sign, up to the end of its line. -/
def readLine (directives : Directives) (marks : List Mark) :
    Except Fault (Directives × List Mark) := do
  let name := (marks.takeWhile fun m => isNameChar m.char).map (·.char)
  let after := marks.dropWhile fun m => isNameChar m.char
  if name.isEmpty ∨ !atSpace after then .error .malformed
  let (directives, after) ←
    if name = "YAML".toList then readVersion directives after
    else if name = "TAG".toList then readHandle directives after
    else .ok (directives, after.dropWhile fun m => !isBreak m.char)
  return ({ directives with lines := directives.lines + 1 }, skip (← restOfLine false after))

/-- The directives in front of a document, and what follows them. `fuel` bounds their number. -/
def read : (fuel : Nat) → Directives → List Mark → Except Fault (Directives × List Mark)
  | 0, directives, marks => .ok (directives, marks)
  | _, directives, [] => .ok (directives, [])
  | fuel + 1, directives, m :: rest => do
    if m.char = '%' ∧ m.column = 0 then
      let (directives, after) ← readLine directives rest
      read fuel directives after
    else .ok (directives, m :: rest)

end Directives

end PathRights.Yaml
