import PathRights.Yaml.Mark
import PathRights.Yaml.Tag

/-!
The text of scalars. A plain scalar goes on until something follows that cannot belong to it; a
quoted one until its quote. Where a scalar goes over the end of a line, the blanks around that end
are dropped, and one end of a line alone is a space.
-/

namespace PathRights.Yaml

/-- What was passed inside a scalar and belongs to it only if the scalar goes on: blanks of one
line, or ends of lines. The first end of a line is kept apart; there is none behind an end of a line
that was escaped. -/
inductive Gap where
  | spaces (run : Text)
  | breaks (first : Option Char) (more : Text)
deriving DecidableEq, Repr

namespace Gap

/-- Nothing was passed. -/
def empty : Gap := .spaces []

/-- The gap with a blank behind it. -/
def addBlank (gap : Gap) (c : Char) : Gap :=
  match gap with
  | .spaces run => .spaces (run ++ [c])
  | .breaks first more => .breaks first more

/-- The gap with the end of a line behind it. -/
def addBreak (gap : Gap) (c : Char) : Gap :=
  let c := if c = '\u0085' ∨ c = '\r' then '\n' else c
  match gap with
  | .spaces _ => .breaks (some c) []
  | .breaks first more => .breaks first (more ++ [c])

/-- What the gap is in the scalar. -/
def text : Gap → Text
  | .spaces run => run
  | .breaks none more => more
  | .breaks (some first) more =>
    if first ≠ '\n' then first :: more else if more.isEmpty then [' '] else more

/-- Something was passed. -/
def isPassed (gap : Gap) : Bool := gap != empty

end Gap

/-- Inside brackets, these characters end a plain scalar. -/
def flowEnds : Text := ",?[]\x7b\x7d"

/-- The next character ends a run of plain characters. -/
def endsRun (flow : Bool) (m : Mark) (rest : List Mark) : Bool :=
  m.char == '\t' || (flow && flowEnds.contains m.char) ||
    (m.char == ':' && (atBlank rest || (flow && rest.head?.any fun n =>
      (",[]\x7b\x7d" : Text).contains n.char)))

/-- A plain scalar cannot go on behind a gap: with a comment, with the start or end of a document,
or, outside brackets, with a line that is not further in than `indent`. -/
def endsScalar (flow : Bool) (indent : Int) (m : Mark) (rest : List Mark) : Bool :=
  m.char == '#' || atBoundary (m :: rest) || (!flow && (m.column : Int) ≤ indent)

/-- The rest of a plain scalar and what follows it. -/
def plainRest (flow : Bool) (indent : Int) : Gap → List Mark → Text × List Mark
  | _, [] => ([], [])
  | gap, m :: rest =>
    if m.char = ' ' then plainRest flow indent (gap.addBlank m.char) rest
    else if isBreak m.char then plainRest flow indent (gap.addBreak m.char) rest
    else if endsRun flow m rest || (gap.isPassed && endsScalar flow indent m rest) then
      ([], m :: rest)
    else
      let (text, after) := plainRest flow indent Gap.empty rest
      (gap.text ++ m.char :: text, after)

/-- The characters with a meaning of their own at the start of a node. -/
def indicators : Text := "-?:,[]\x7b\x7d#&*!|>'\"%@`"

/-- A plain scalar can start here. -/
def startsPlain (flow : Bool) : List Mark → Bool
  | [] => false
  | m :: rest =>
    !atBlank (m :: rest) &&
      (!indicators.contains m.char ||
        (!atBlank rest && (m.char == '-' || (!flow && (m.char == '?' || m.char == ':')))))

/-- The rest of a scalar in single quotes and what follows it. Two quotes are one. -/
def singleQuoted : Gap → List Mark → Reading Text
  | _, [] => .error .malformed
  | gap, [m] => if m.char = '\'' then .ok (gap.text, []) else .error .malformed
  | gap, m :: n :: rest =>
    if m.char = '\'' then
      if n.char = '\'' then
        (singleQuoted Gap.empty rest).map fun text => gap.text ++ '\'' :: text
      else .ok (gap.text, n :: rest)
    else if isBreak m.char then
      if atBoundary (n :: rest) then .error .malformed
      else singleQuoted (gap.addBreak m.char) (n :: rest)
    else if m.char = ' ' ∨ m.char = '\t' then singleQuoted (gap.addBlank m.char) (n :: rest)
    else (singleQuoted Gap.empty (n :: rest)).map fun text => gap.text ++ m.char :: text

/-- The character that an escape with one letter stands for. -/
def escaped? : Char → Option Char
  | '0' => some '\x00'
  | 'a' => some '\x07'
  | 'b' => some '\x08'
  | 't' | '\t' => some '\t'
  | 'n' => some '\n'
  | 'v' => some '\x0b'
  | 'f' => some '\x0c'
  | 'r' => some '\r'
  | 'e' => some '\x1b'
  | ' ' => some ' '
  | '"' => some '"'
  | '\\' => some '\\'
  | '/' => some '/'
  | 'N' => some '\u0085'
  | '_' => some '\u00a0'
  | 'L' => some '\u2028'
  | 'P' => some '\u2029'
  | _ => none

/-- How many digits an escape by number has. -/
def escapeDigits? : Char → Option Nat
  | 'x' => some 2
  | 'u' => some 4
  | 'U' => some 8
  | _ => none

/-- Where inside a scalar in double quotes one is: in its text behind a gap, behind a backslash, or
inside the digits of an escape of which `left` are missing. -/
inductive DoubleQuotedState where
  | text (gap : Gap)
  | backslash
  | number (left value : Nat)

/-- The character with a number. -/
def characterOf (code : Nat) : Except Fault Char :=
  if 0x110000 ≤ code then .error (.noCharacter code)
  else if code.isValidChar then .ok (Char.ofNat code)
  else .error .malformed

/-- The rest of a scalar in double quotes and what follows it. -/
def doubleQuoted : DoubleQuotedState → List Mark → Reading Text
  | _, [] => .error .malformed
  | .text gap, m :: rest =>
    if m.char = '"' then .ok (gap.text, rest)
    else if isBreak m.char then
      if atBoundary rest then .error .malformed
      else doubleQuoted (.text (gap.addBreak m.char)) rest
    else if m.char = ' ' ∨ m.char = '\t' then doubleQuoted (.text (gap.addBlank m.char)) rest
    else if m.char = '\\' then (doubleQuoted .backslash rest).map fun text => gap.text ++ text
    else (doubleQuoted (.text Gap.empty) rest).map fun text => gap.text ++ m.char :: text
  | .backslash, m :: rest =>
    if isBreak m.char then
      if atBoundary rest then .error .malformed else doubleQuoted (.text (.breaks none [])) rest
    else
      match escaped? m.char, escapeDigits? m.char with
      | some c, _ => (doubleQuoted (.text Gap.empty) rest).map fun text => c :: text
      | none, some count => doubleQuoted (.number count 0) rest
      | none, none => .error .malformed
  | .number left value, m :: rest =>
    if isHexDigit m.char then
      let value := value * 16 + Text.digitValue m.char
      if left ≤ 1 then
        match characterOf value with
        | .error fault => .error fault
        | .ok c => (doubleQuoted (.text Gap.empty) rest).map fun text => c :: text
      else doubleQuoted (.number (left - 1) value) rest
    else .error .malformed

end PathRights.Yaml
