import PathRights.Text.Utf8
import PathRights.Yaml.Mark
import PathRights.Yaml.Tag

/-!
Properties of the parts of a document: an anchor, under which a part is known further on, and a tag.
Both are written in front of the part, in any order.
-/

namespace PathRights.Yaml

/-- The tag in front of a part. -/
inductive TagMark where
  /-- The part gets its tag by its form, as if it was plain. -/
  | byForm
  | named (tag : Tag)
  /-- The tag has a handle that is not declared. -/
  | undeclared
deriving DecidableEq, Repr

/-- The properties of a part. -/
structure Properties where
  anchor : Option Text
  tag : Option TagMark
deriving DecidableEq, Repr

namespace Properties

/-- No properties. -/
def none : Properties := ⟨.none, .none⟩

/-- The properties of both together. A part has no more than one anchor and one tag. -/
def add (a b : Properties) : Except Fault Properties :=
  if (a.anchor.isSome && b.anchor.isSome) || (a.tag.isSome && b.tag.isSome) then .error .malformed
  else .ok ⟨a.anchor.or b.anchor, a.tag.or b.tag⟩

end Properties

/-- The character may stand in the name of an anchor. -/
def isNameChar (c : Char) : Bool :=
  Text.isDigit c || ('a' ≤ c && c ≤ 'z') || ('A' ≤ c && c ≤ 'Z') || c == '-' || c == '_'

/-- Characters that may follow the name of an anchor, besides blanks. -/
def nameEnds : Text := "?:,]\x7d%@`"

/-- The name of an anchor. -/
def anchorName (marks : List Mark) : Reading Text :=
  let name := (marks.takeWhile fun m => isNameChar m.char).map (·.char)
  let after := marks.dropWhile fun m => isNameChar m.char
  if name.isEmpty then .error .malformed
  else if atBlank after ∨ after.head?.any (fun m => nameEnds.contains m.char) then .ok (name, after)
  else .error .malformed

/-- The character may stand in the address of a tag. -/
def isAddressChar (c : Char) : Bool :=
  isNameChar c || ("-;/?:@&=+$,_.!~*'()[]" : Text).contains c

/-- The characters that escaped bytes make, if they make any. -/
def ofEscaped (bytes : List UInt8) : Except Fault Text :=
  match Text.ofUtf8 bytes with
  | .error _ => .error .malformed
  | .ok text => .ok text

/-- The address of a tag. A percent sign and two digits are a byte of it; `bytes` are those read
just before. -/
def address (bytes : List UInt8) : List Mark → Reading Text
  | [] => (ofEscaped bytes).map fun text => (text, [])
  | [m] =>
    if m.char = '%' then .error .malformed
    else
      (ofEscaped bytes).map fun text =>
        if isAddressChar m.char then (text ++ [m.char], []) else (text, [m])
  | [m, n] =>
    if m.char = '%' then .error .malformed
    else
      match ofEscaped bytes with
      | .error fault => .error fault
      | .ok text =>
        if isAddressChar m.char then (address [] [n]).map fun more => text ++ m.char :: more
        else .ok (text, [m, n])
  | m :: n :: o :: rest =>
    if m.char = '%' then
      if isHexDigit n.char && isHexDigit o.char then
        address (bytes ++ [UInt8.ofNat (Text.valueIn 16 [n.char, o.char])]) rest
      else .error .malformed
    else
      match ofEscaped bytes with
      | .error fault => .error fault
      | .ok text =>
        if isAddressChar m.char then
          (address [] (n :: o :: rest)).map fun more => text ++ m.char :: more
        else .ok (text, m :: n :: o :: rest)

/-- A space or the end of the line follows. -/
def atSpace (marks : List Mark) : Bool := atBlank marks && !marks.head?.any (·.char == '\t')

/-- The rest of a tag: an address that is not empty and is followed by a space. -/
def tagEnd (tag : Text → TagMark) (marks : List Mark) : Reading TagMark :=
  match address [] marks with
  | .error fault => .error fault
  | .ok (name, after) =>
    if name.isEmpty ∨ !atSpace after then .error .malformed else .ok (tag name, after)

/-- A tag in angle brackets. -/
def fullTag (marks : List Mark) : Reading TagMark :=
  match address [] marks with
  | .error fault => .error fault
  | .ok (name, after) =>
    if name.isEmpty ∨ !(after.head?.any (·.char == '>')) ∨ !atSpace (after.drop 1) then
      .error .malformed
    else .ok (.named .unknown, after.drop 1)

/-- A tag, read behind its first exclamation mark. The tags of the language itself have two of
them. -/
def tagMark (marks : List Mark) : Reading TagMark :=
  let word := marks.takeWhile fun m => m.char != ' ' && !isBreak m.char
  if atBlank marks then .ok (.byForm, marks)
  else if marks.head?.any (·.char == '<') then fullTag (marks.drop 1)
  else if word.any (·.char == '!') then
    let after := marks.dropWhile fun m => isNameChar m.char
    if !(after.head?.any (·.char == '!')) then .error .malformed
    else if after.length = marks.length then
      tagEnd (fun name => .named (Tag.ofName name)) (after.drop 1)
    else tagEnd (fun _ => .undeclared) (after.drop 1)
  else tagEnd (fun _ => .named .unknown) marks

/-- A property follows. -/
def atProperty (marks : List Mark) : Bool := marks.head?.any fun m => m.char == '&' || m.char == '!'

/-- The property at the start of a list of marks. -/
def property : List Mark → Reading Properties
  | [] => .error .malformed
  | m :: rest =>
    if m.char = '&' then (anchorName rest).map fun name => ⟨some name, none⟩
    else (tagMark rest).map fun tag => ⟨none, some tag⟩

/-- The next mark is in a line. -/
def inLine (line : Nat) (marks : List Mark) : Bool := marks.head?.any (·.line == line)

/-- The properties in one line, and what follows them in this line or further on. -/
def properties (marks : List Mark) : Reading Properties :=
  let line := (marks.head?.map (·.line)).getD 0
  let more (after : List Mark) : Bool := atProperty after && inLine line after
  match property marks with
  | .error fault => .error fault
  | .ok (first, after) =>
    let after := skip after
    if !more after then .ok (first, after)
    else
      match property after with
      | .error fault => .error fault
      | .ok (second, after) =>
        let after := skip after
        if more after then .error .malformed
        else (first.add second).map fun both => (both, after)

end PathRights.Yaml
