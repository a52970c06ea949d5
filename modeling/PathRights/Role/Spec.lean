import PathRights.Role.Mode
import PathRights.Text.Blank

/-!
The specification of a role: `USER,MODES` or `USER:GROUP,MODES`, where the modes are `FILE`,
`DIRECTORY/FILE`, `DIRECTORY/` or `/FILE`. Blanks around the whole do not count.
-/

namespace PathRights.Role

/-- The parts of a specification, as they are written. -/
structure Spec where
  user : Text
  group : Option Text
  directoryMode : Option Text
  fileMode : Option Text
deriving DecidableEq, Repr

/-- Why a value is no specification. -/
inductive SpecError where
  | notText (value : Value)
  | malformed (spec : Text)
  | withoutMode (spec : Text)
deriving Repr

/-- The error in words. -/
def SpecError.message : SpecError → Text
  | .notText value => "Role spec must be string, got " ++ value.typeText
  | .malformed spec =>
    "Invalid role spec: " ++ spec.quoted ++ ". Expected user[:group],[dirmode][/filemode]"
  | .withoutMode spec => "Role spec needs at least one mode: " ++ spec.quoted

/-- The text can name a user or a group: it is not empty and has no blank, `:`, `,` or `/`. -/
def isAccount (text : Text) : Bool :=
  !text.isEmpty && text.all fun c => !Text.isBlank c && c != ':' && c != ',' && c != '/'

/-- Reads `USER` or `USER:GROUP`. -/
def parseOwner (text : Text) : Option (Text × Option Text) :=
  match text.breakAt (· == ':') with
  | none => if isAccount text then some (text, none) else none
  | some (user, _, group) =>
    if isAccount user ∧ isAccount group then some (user, some group) else none

/-- Reads a mode that may be left out. -/
def parseOptionalMode (text : Text) : Option (Option Text) :=
  if text.isEmpty then some none else if isMode text then some (some text) else none

/-- Reads the modes: the one for directories and the one for files. -/
def parseModes (text : Text) : Option (Option Text × Option Text) :=
  match text.breakAt (· == '/') with
  | none => if isMode text then some (none, some text) else none
  | some (directory, _, file) =>
    match parseOptionalMode directory, parseOptionalMode file with
    | some directoryMode, some fileMode => some (directoryMode, fileMode)
    | _, _ => none

/-- Reads a specification without the blanks around it; both modes may be missing. -/
def Spec.parse? (text : Text) : Option Spec :=
  match text.breakAt (· == ',') with
  | none => none
  | some (owner, _, modes) =>
    match parseOwner owner, parseModes modes with
    | some (user, group), some (directoryMode, fileMode) =>
      some ⟨user, group, directoryMode, fileMode⟩
    | _, _ => none

/-- Checks a text that should be a specification. -/
def Spec.ofText (spec : Text) : Except SpecError Spec :=
  match Spec.parse? spec.trim with
  | none => .error (.malformed spec)
  | some parts =>
    if parts.directoryMode.isNone ∧ parts.fileMode.isNone then .error (.withoutMode spec)
    else .ok parts

/-- Checks a value that should be a specification. -/
def Spec.ofValue (value : Value) : Except SpecError Spec :=
  match value.str? with
  | some spec => Spec.ofText spec
  | none => .error (.notText value)

end PathRights.Role
