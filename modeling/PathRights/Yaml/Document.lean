import PathRights.Yaml.BlockScalar
import PathRights.Yaml.Directive
import PathRights.Yaml.Scalar
import PathRights.Yaml.Written

/-!
Documents: nested mappings, sequences and scalars. Blocks are nested by how far their lines are in
from the margin, and brackets and braces nest inside a line or over lines. Every part is read from a
list of marks and leaves what follows it.

The readers call each other along the text. Their first argument bounds the depth of these calls;
`read` starts with a bound that no document reaches, since only few of them follow each other
without a character between them.
-/

namespace PathRights.Yaml

/-- The longest key, with the blanks behind it, in characters. -/
def keyLimit : Nat := 1024

/-- What was read from the mark `start` on is a key if `colon`, which comes next, is in the same
line and not too far away. -/
def isKeyBefore (start colon : Mark) : Bool :=
  start.line == colon.line && colon.column - start.column ≤ keyLimit

/-- A scalar or a reference, read from its first mark. -/
def scalar (flow : Bool) (indent : Int) : List Mark → Reading Written
  | [] => .error .malformed
  | m :: rest =>
    if m.char = '\'' then (singleQuoted Gap.empty rest).map (.scalar .none false)
    else if m.char = '"' then (doubleQuoted (.text Gap.empty) rest).map (.scalar .none false)
    else if m.char = '*' then (anchorName rest).map .reference
    else if !flow ∧ atBlockScalar (m :: rest) then
      (blockScalar (m.char == '>') indent rest).map (.scalar .none false)
    else if startsPlain flow (m :: rest) then
      .ok ((plainRest flow indent Gap.empty (m :: rest)).map (.scalar .none true) id)
    else .error .malformed

/-! ### Brackets and braces -/

/-- The next character leaves the value of a pair empty. -/
def endsPair (marks : List Mark) : Bool :=
  marks.head?.any fun m => m.char == ',' || m.char == ']' || m.char == '\x7d'

/-- The next character leaves what is in front of it empty. -/
def endsNode (marks : List Mark) : Bool :=
  endsPair marks || marks.head?.any fun m => m.char == ':' || m.char == '?'

mutual

/-- A node inside brackets or at their start. -/
def flowNode : Nat → List Mark → Except Fault (Written × List Mark)
  | 0, _ | _, [] => .error .malformed
  | fuel + 1, m :: rest =>
    if atBoundary (m :: rest) then .error .malformed
    else if m.char = '[' then
      (flowItems fuel (skip rest)).map fun (items, after) => (.sequence .none items, after)
    else if m.char = '\x7b' then
      (flowEntries fuel (skip rest)).map fun (entries, after) => (.mapping .none entries, after)
    else if atProperty (m :: rest) then do
      let (properties, after) ← property (m :: rest)
      let next := skip after
      if endsNode next then return (.emptyWith properties, next)
      let (node, after) ← flowNode fuel next
      return (← node.add properties, after)
    else scalar true 0 (m :: rest)

/-- The value behind the colon of a pair. There may be none. -/
def flowValue : Nat → List Mark → Except Fault (Written × List Mark)
  | 0, _ => .error .malformed
  | fuel + 1, marks => if endsPair marks then .ok (.empty, marks) else flowNode fuel marks

/-- The key behind a question mark. There may be none. -/
def flowKey : Nat → List Mark → Except Fault (Written × List Mark)
  | 0, _ => .error .malformed
  | fuel + 1, marks =>
    if endsPair marks ∨ marks.head?.any (·.char == ':') then .ok (.empty, marks)
    else flowNode fuel marks

/-- A node inside brackets, and the value behind it if it is a key. -/
def flowPair : Nat → List Mark → Except Fault ((Written × Option Written) × List Mark)
  | 0, _ | _, [] => .error .malformed
  | fuel + 1, start :: rest => do
    let marked := start.char = '?'
    let (node, after) ← if marked then flowKey fuel (skip rest) else flowNode fuel (start :: rest)
    match skip after with
    | [] => .error .malformed
    | m :: more =>
      if m.char = ':' ∧ (marked ∨ isKeyBefore start m) then
        let (value, after) ← flowValue fuel (skip more)
        return ((node, some value), skip after)
      else return ((node, if marked then some .empty else none), m :: more)

/-- The items up to the closing bracket. A pair among them is a mapping of its own. -/
def flowItems : Nat → List Mark → Except Fault (List Written × List Mark)
  | 0, _ | _, [] => .error .malformed
  | fuel + 1, m :: rest => do
    if m.char = ']' then return ([], rest)
    let ((node, value), after) ← flowPair fuel (m :: rest)
    let item := match value with
      | none => node
      | some value => .mapping .none [(node, value)]
    match after with
    | [] => .error .malformed
    | m :: rest =>
      if m.char = ']' then return ([item], rest)
      else if m.char = ',' then
        let (items, after) ← flowItems fuel (skip rest)
        return (item :: items, after)
      else .error .malformed

/-- The entries up to the closing brace. A key may stand alone. -/
def flowEntries : Nat → List Mark → Except Fault (List (Written × Written) × List Mark)
  | 0, _ | _, [] => .error .malformed
  | fuel + 1, m :: rest => do
    if m.char = '\x7d' then return ([], rest)
    let ((key, value), after) ← flowPair fuel (m :: rest)
    let entry := (key, value.getD .empty)
    match after with
    | [] => .error .malformed
    | m :: rest =>
      if m.char = '\x7d' then return ([entry], rest)
      else if m.char = ',' then
        let (entries, after) ← flowEntries fuel (skip rest)
        return (entry :: entries, after)
      else .error .malformed

end

/-! ### Blocks -/

/-- A node that is no block: a scalar, a reference, brackets or braces. What follows it is skipped
to. -/
def inlineNode (fuel : Nat) (indent : Int) : List Mark → Except Fault (Written × List Mark)
  | [] => .error .malformed
  | m :: rest =>
    let reading :=
      if m.char = '[' ∨ m.char = '\x7b' then flowNode fuel (m :: rest)
      else scalar false indent (m :: rest)
    reading.map fun (node, after) => (node, skip after)

/-- What stands at the start of a node in its first line: properties alone, or a node with its
properties. Behind properties, the node is empty if it is a key. -/
inductive Lead where
  | properties (properties : Properties)
  | node (node : Written)

/-- What stands at the start of a node in its first line. -/
def lead (fuel : Nat) (indent : Int) : List Mark → Except Fault (Lead × List Mark)
  | [] => .error .malformed
  | m :: rest => do
    if !atProperty (m :: rest) then
      let (node, after) ← inlineNode fuel indent (m :: rest)
      return (.node node, after)
    let (given, next) ← properties (m :: rest)
    if !inLine m.line next then return (.properties given, next)
    if atIndicator ':' next then return (.node (.emptyWith given), next)
    let (node, after) ← inlineNode fuel indent next
    return (.node (← node.add given), after)

mutual

/-- A node that is further in than `indent`. Only at a `fresh` place, with nothing but dashes in
front of it in its line, may it be a block. With `dashes`, the dashes of a sequence may be only as
far in as `indent`. -/
def blockNode : Nat → (indent : Int) → (fresh dashes : Bool) → List Mark →
    Except Fault (Written × List Mark)
  | 0, _, _, _, _ | _, _, _, _, [] => .error .malformed
  | fuel + 1, indent, fresh, dashes, m :: rest => do
    if atIndicator '-' (m :: rest) then
      if !fresh then .error .malformed
      let (items, after) ← blockItems fuel m.column (m :: rest)
      return (.sequence .none items, after)
    if atIndicator '?' (m :: rest) then
      if !fresh then .error .malformed
      let (entries, after) ← blockEntries fuel m.column (m :: rest)
      return (.mapping .none entries, after)
    let (start, after) ← lead fuel indent (m :: rest)
    match start with
    | .properties properties =>
      let (node, after) ← blockContent fuel indent true dashes after
      return (← node.add properties, after)
    | .node node =>
      match after with
      | [] => return (node, [])
      | colon :: more =>
        if atIndicator ':' (colon :: more) ∧ indent < colon.column then
          if !fresh ∨ !isKeyBefore m colon then .error .malformed
          let (value, after) ←
            blockContent fuel m.column (!inLine colon.line (skip more)) true (skip more)
          let (entries, after) ← blockEntries fuel m.column after
          return (.mapping .none ((node, value) :: entries), after)
        else return (node, colon :: more)

/-- A node that is further in than `indent`, if there is one. The bar of a scalar and its sign of
folding may be only as far in as `indent`. -/
def blockContent : Nat → (indent : Int) → (fresh dashes : Bool) → List Mark →
    Except Fault (Written × List Mark)
  | 0, _, _, _, _ => .error .malformed
  | fuel + 1, indent, fresh, dashes, marks =>
    if indent < level marks then blockNode fuel indent fresh dashes marks
    else if dashes ∧ level marks = indent ∧ atIndicator '-' marks then
      (blockItems fuel indent.toNat marks).map fun (items, after) => (.sequence .none items, after)
    else if level marks = indent ∧ atBlockScalar marks then inlineNode fuel indent marks
    else .ok (.empty, marks)

/-- The further entries of a mapping whose keys are `column` in. A key behind a question mark may be
a block, and its value stands behind a colon as far in as the question mark. -/
def blockEntries : Nat → (column : Nat) → List Mark →
    Except Fault (List (Written × Written) × List Mark)
  | 0, _, _ => .error .malformed
  | _, _, [] => .ok ([], [])
  | fuel + 1, column, m :: rest => do
    if level (m :: rest) < column then return ([], m :: rest)
    if (column : Int) < level (m :: rest) then .error .malformed
    if atIndicator '?' (m :: rest) then
      let (key, after) ← blockContent fuel column true true (skip rest)
      let (value, after) ←
        if level after = column ∧ atIndicator ':' after then
          blockContent fuel column true true (skip (after.drop 1))
        else .ok (.empty, after)
      let (entries, after) ← blockEntries fuel column after
      return ((key, value) :: entries, after)
    match ← lead fuel column (m :: rest) with
    | (.node key, colon :: more) =>
      if !atIndicator ':' (colon :: more) ∨ !isKeyBefore m colon then .error .malformed
      let (value, after) ←
        blockContent fuel column (!inLine colon.line (skip more)) true (skip more)
      let (entries, after) ← blockEntries fuel column after
      return ((key, value) :: entries, after)
    | _ => .error .malformed

/-- The items of a sequence whose dashes are `column` in. -/
def blockItems : Nat → (column : Nat) → List Mark → Except Fault (List Written × List Mark)
  | 0, _, _ => .error .malformed
  | _, _, [] => .ok ([], [])
  | fuel + 1, column, m :: rest => do
    if level (m :: rest) = column ∧ atIndicator '-' (m :: rest) then
      let (item, after) ← blockContent fuel column true false (skip rest)
      let (items, after) ← blockItems fuel column after
      return (item :: items, after)
    else return ([], m :: rest)

end

/-! ### Whole documents -/

/-- Nothing follows but ends of the document, which start with three dots. -/
def isOver : Nat → List Mark → Bool
  | _, [] => true
  | 0, _ => false
  | fuel + 1, marks => atTriple '.' marks && isOver fuel (skip (marks.drop 3))

/-- The only document in marks, read behind its directives, with what follows it. Three dashes start
it, and must do so behind directives. -/
def document (fuel : Nat) (directives : Directives) (marks : List Mark) :
    Except Fault (Written × List Mark) :=
  let line := (marks.head?.map (·.line)).getD 0
  let next := skip (marks.drop 3)
  if atTriple '-' marks then blockContent fuel (-1) (!inLine line next) false next
  else if 0 < directives.lines ∨ atBoundary marks then .error .malformed
  else blockNode fuel (-1) true false marks

/-- The only document of a text. A text without a document holds the empty scalar. -/
def Written.read (text : Text) : Except Fault Written := do
  if !text.all isAllowed then .error .malformed
  let fuel := 8 * text.length + 8
  let start := skip (marks text)
  let (directives, body) ← Directives.read text.length .none start
  if start.isEmpty then return .empty
  let (node, after) ← document fuel directives body
  if isOver text.length after then return node else .error .malformed

end PathRights.Yaml
