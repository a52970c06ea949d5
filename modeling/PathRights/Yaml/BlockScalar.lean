import PathRights.Yaml.Mark

/-!
Scalars in blocks: the lines below a bar are taken as they are, and those below a sign of folding
are joined with spaces. The lines are those that are as far in as the first, and what ends the last
of them is kept or not, as the header says.
-/

namespace PathRights.Yaml

/-- The bar of a scalar or its sign of folding follows. -/
def atBlockScalar (marks : List Mark) : Bool :=
  marks.head?.any fun m => m.char == '|' || m.char == '>'

/-- What becomes of the ends of lines at the end of a block. -/
inductive Chomping where
  /-- The first is kept. -/
  | clip
  /-- None is kept. -/
  | strip
  /-- All are kept. -/
  | keep
deriving DecidableEq, Repr

/-- The chomping that a character asks for. -/
def Chomping.ofChar? : Char → Option Chomping
  | '-' => some .strip
  | '+' => some .keep
  | _ => none

/-- A character of a line break as it stands in a scalar. -/
def breakText (c : Char) : Char := if c = '\u0085' ∨ c = '\r' then '\n' else c

/-- The number of columns that a digit other than zero adds. -/
def indentDigit? (c : Char) : Option Nat :=
  if '1' ≤ c ∧ c ≤ '9' then some (c.toNat - '0'.toNat) else none

/-- What the header of a block asks for: chomping and indentation, each given at most once, in any
order. -/
def blockHeader : List Mark → (Chomping × Option Nat) × List Mark
  | [] => ((.clip, none), [])
  | m :: rest =>
    match Chomping.ofChar? m.char, indentDigit? m.char with
    | some chomping, _ =>
      match rest with
      | n :: more =>
        match indentDigit? n.char with
        | some indent => ((chomping, some indent), more)
        | none => ((chomping, none), n :: more)
      | [] => ((chomping, none), [])
    | none, some indent =>
      match rest with
      | n :: more =>
        match Chomping.ofChar? n.char with
        | some chomping => ((chomping, some indent), more)
        | none => ((.clip, some indent), n :: more)
      | [] => ((.clip, some indent), [])
    | none, none => ((.clip, none), m :: rest)

/-- Nothing follows in the line but spaces and a comment; what comes behind the line. -/
def restOfLine : (comment : Bool) → List Mark → Except Fault (List Mark)
  | _, [] => .ok []
  | comment, m :: rest =>
    if isBreak m.char then .ok rest
    else if comment then restOfLine true rest
    else if m.char = ' ' then restOfLine false rest
    else if m.char = '#' then restOfLine true rest
    else .error .malformed

/-- The ends of lines and the spaces in front of the first line of a block: those ends, and how far
in the spaces go. -/
def blockIndent : List Mark → (Text × Nat) × List Mark
  | [] => (([], 0), [])
  | m :: rest =>
    if isBreak m.char then
      let ((breaks, column), after) := blockIndent rest
      ((breakText m.char :: breaks, column), after)
    else if m.char = ' ' then
      let ((breaks, column), after) := blockIndent rest
      ((breaks, max column (m.column + 1)), after)
    else (([], 0), m :: rest)

/-- The ends of empty lines, and what follows them and the spaces up to a column. -/
def blockBreaks (indent : Nat) : List Mark → Text × List Mark
  | [] => ([], [])
  | m :: rest =>
    if isBreak m.char then
      let (breaks, after) := blockBreaks indent rest
      (breakText m.char :: breaks, after)
    else if m.char = ' ' ∧ m.column < indent then blockBreaks indent rest
    else ([], m :: rest)

/-- The text up to the end of the line, that end, and what follows. -/
def lineOf : List Mark → (Text × Text) × List Mark
  | [] => (([], []), [])
  | m :: rest =>
    if isBreak m.char then (([], [breakText m.char]), rest)
    else
      let ((text, ending), after) := lineOf rest
      ((m.char :: text, ending), after)

/-- The line starts with a blank. -/
def startsBlank (marks : List Mark) : Bool :=
  marks.head?.any fun m => m.char == ' ' || m.char == '\t'

/-- A line of the block follows. -/
def isBlockLine (indent : Nat) (marks : List Mark) : Bool :=
  marks.head?.any fun m => m.column == indent

/-- What joins a line with the next: the end of the line and the ends of the empty lines behind it.
Where lines are folded, a line feed between two lines that start with no blank is a space if no
empty line follows, and nothing otherwise. -/
def joint (folded blank : Bool) (ending breaks : Text) (next : List Mark) : Text :=
  if folded ∧ ending = "\n" ∧ !blank ∧ !startsBlank next then
    if breaks.isEmpty then " " else breaks
  else ending ++ breaks

/-- The lines of a block: their text, the end of the last of them, the ends of the empty lines
behind it, and what follows. `fuel` bounds the number of lines. -/
def blockLines (folded : Bool) (indent : Nat) : (fuel : Nat) → List Mark →
    (Text × Text × Text) × List Mark
  | 0, marks => (([], [], []), marks)
  | fuel + 1, marks =>
    let ((line, ending), rest) := lineOf marks
    let (breaks, next) := blockBreaks indent rest
    if isBlockLine indent next then
      let ((text, tail), after) := blockLines folded indent fuel next
      ((line ++ joint folded (startsBlank marks) ending breaks next ++ text, tail), after)
    else ((line, ending, breaks), next)

/-- A scalar in a block further in than `indent`, read behind the bar or the sign of folding. -/
def blockScalar (folded : Bool) (indent : Int) (marks : List Mark) : Reading Text :=
  let ((chomping, given), rest) := blockHeader marks
  if !atBlank rest ∨ rest.head?.any (·.char == '\t') then .error .malformed
  else
    match restOfLine false rest with
    | .error fault => .error fault
    | .ok body =>
      let least := (max (indent + 1) 1).toNat
      let (indent, breaks, first) := match given with
        | some columns =>
          let indent := least + columns - 1
          let (breaks, first) := blockBreaks indent body
          (indent, breaks, first)
        | none =>
          let ((breaks, column), first) := blockIndent body
          (max least column, breaks, first)
      let ((text, ending, last), after) :=
        if isBlockLine indent first then
          let ((text, tail), after) := blockLines folded indent first.length first
          ((breaks ++ text, tail), after)
        else (([], [], breaks), first)
      .ok (text ++ (match chomping with
        | .strip => []
        | .clip => ending
        | .keep => ending ++ last), after)

end PathRights.Yaml
