import PathRights.Text.Basic
import PathRights.Yaml.Fault

/-!
The characters of a document with their places. A document is read as a list of marks, so that the
rest of a document tells by its first mark in which line and column it goes on. Blanks, ends of
lines and comments between the parts of a document are skipped.
-/

namespace PathRights.Yaml

/-- A character of a document and its place, both counted from zero. -/
structure Mark where
  char : Char
  line : Nat
  column : Nat
deriving DecidableEq, Repr

/-- What was read at the start of a list of marks, and what follows it. -/
abbrev Reading (α : Type) := Except Fault (α × List Mark)

/-- Reading something else out of what was read. -/
def Reading.map (f : α → β) (reading : Reading α) : Reading β :=
  Except.map (fun (a, after) => (f a, after)) reading

/-- The character ends a line. -/
def isBreak (c : Char) : Bool :=
  c == '\n' || c == '\r' || c == '\u0085' || c == '\u2028' || c == '\u2029'

/-- The character may stand in a document. -/
def isAllowed (c : Char) : Bool :=
  let n := c.toNat
  n == 0x09 || n == 0x0A || n == 0x0D || (0x20 ≤ n && n ≤ 0x7E) || n == 0x85 ||
    (0xA0 ≤ n && n ≤ 0xD7FF) || (0xE000 ≤ n && n ≤ 0xFFFD) || 0x10000 ≤ n

/-- The marks of a text that starts at a place. A byte order mark takes no column. -/
def marksFrom (line column : Nat) : Text → List Mark
  | [] => []
  | c :: rest =>
    ⟨c, line, column⟩ ::
      if isBreak c then marksFrom (line + 1) 0 rest
      else marksFrom line (if c = '\uFEFF' then column else column + 1) rest

/-- The marks of a whole text; a byte order mark in front of it is dropped. -/
def marks (text : Text) : List Mark :=
  marksFrom 0 0 (match text with
    | '\uFEFF' :: rest => rest
    | _ => text)

/-- Nothing follows, or a blank or the end of the line. -/
def atBlank : List Mark → Bool
  | [] => true
  | m :: _ => m.char == ' ' || m.char == '\t' || isBreak m.char

/-- The character `c` follows, and a blank behind it. -/
def atIndicator (c : Char) : List Mark → Bool
  | [] => false
  | m :: rest => m.char == c && atBlank rest

/-- A line follows that starts with three times `c`. -/
def atTriple (c : Char) : List Mark → Bool
  | m :: n :: o :: rest =>
    m.column == 0 && m.char == c && n.char == c && o.char == c && atBlank rest
  | _ => false

/-- A line follows that starts or ends a document. -/
def atBoundary (marks : List Mark) : Bool := atTriple '-' marks || atTriple '.' marks

/-- Skips spaces, ends of lines and comments. -/
def skipFrom : (comment : Bool) → List Mark → List Mark
  | _, [] => []
  | comment, m :: rest =>
    if isBreak m.char then skipFrom false rest
    else if comment then skipFrom true rest
    else if m.char = ' ' then skipFrom false rest
    else if m.char = '#' then skipFrom true rest
    else m :: rest

/-- What follows the spaces, ends of lines and comments. -/
def skip (marks : List Mark) : List Mark := skipFrom false marks

/-- How far in from the margin the document goes on; below the margin where it ends. -/
def level (marks : List Mark) : Int :=
  match marks with
  | [] => -1
  | m :: _ => if atBoundary marks then -1 else m.column

end PathRights.Yaml
