import PathRights.Pattern.Grammar
import PathRights.Role.Registry
import PathRights.Rule.Basic
import PathRights.Text.Blank

/-!
Reading rules from lines. A line holds a pattern and, after blanks, the name of a role or `-`; with
the pattern alone it means `-`. Empty lines and lines that start with `#` are skipped. Every line is
read, so that the faults of all of them can be told at once.
-/

namespace PathRights

/-- What is wrong with a line. -/
inductive LineFault where
  | emptyPattern
  | tooManyFields
  | badPattern (error : Pattern.SyntaxError)
  | badRoleName (error : Role.NameError)
  | unknownRole (name : Text)
  | roleWithoutFileMode (name : Text)
  | uncompilable (error : Pattern.PatternError)
deriving Repr

/-- The fault in words. -/
def LineFault.message : LineFault → Text
  | .emptyPattern => "empty pattern"
  | .tooManyFields => "too many fields"
  | .badPattern error => error.message
  | .badRoleName error => error.message
  | .unknownRole name => "unknown role " ++ name.quoted
  | .roleWithoutFileMode name =>
    "role " ++ name.quoted ++ " has no file mode and cannot apply to files"
  | .uncompilable error => error.message

/-- A faulty line with its place. -/
structure LineError where
  source : Text
  lineNumber : Nat
  line : Text
  fault : LineFault
deriving Repr

/-- The error in words, with its place in front and the line behind. -/
def LineError.describe (error : LineError) : Text :=
  error.source ++ ":" ++ Text.ofNat error.lineNumber ++ ": " ++ error.fault.message ++ ": " ++
    error.line.quoted

namespace Rule

/-- The line without the blanks at its end, unless it is to be skipped. -/
def significant? (text : Text) : Option Text :=
  let line := text.trimEnd
  if line.isEmpty ∨ line.head? = some '#' then none else some line

/-- Looks up the role that a line names and checks that it has a mode for what the rule selects. -/
def readRole (registry : Registry) (name : Text) (forDirectories : Bool) :
    Except LineFault (Option Role) :=
  if name = noRole then .ok none
  else
    match Role.checkNameText name with
    | .error error => .error (.badRoleName error)
    | .ok _ =>
      match registry.get? name with
      | none => .error (.unknownRole name)
      | some role =>
        if !role.appliesToFiles && !forDirectories then .error (.roleWithoutFileMode name)
        else .ok (some role)

/-- The pattern without the `/` that marks it for directories, and whether it has one. -/
def splitMark (pattern : Text) : Text × Bool :=
  match Text.dropEnd? ['/'] pattern with
  | some rest => (rest, true)
  | none => (pattern, false)

/-- Makes a rule of the two fields of a line. -/
def ofFields (registry : Registry) (lineNumber : Nat) (rawPattern roleName : Text) :
    Except LineFault Rule :=
  match Pattern.checkText rawPattern with
  | .error error => .error (.badPattern error)
  | .ok _ =>
    let (pattern, forDirectories) := splitMark rawPattern
    match readRole registry roleName forDirectories with
    | .error fault => .error fault
    | .ok role =>
      match Pattern.compile pattern forDirectories with
      | .error error => .error (.uncompilable error)
      | .ok matcher => .ok { pattern, matcher, forDirectories, role, lineNumber }

/-- Reads a line that is not to be skipped. -/
def readLine (registry : Registry) (lineNumber : Nat) (line : Text) : Except LineFault Rule :=
  match Text.fields line with
  | [] :: _ => .error .emptyPattern
  | [pattern] => ofFields registry lineNumber pattern noRole
  | [pattern, roleName] => ofFields registry lineNumber pattern roleName
  | _ => .error .tooManyFields

/-- The rules and the faults of lines, each in the order of the lines. -/
structure Reading where
  rules : List Rule
  errors : List LineError
deriving Repr

/-- Reads lines that are numbered from `lineNumber` on. -/
def readFrom (registry : Registry) (source : Text) : (lineNumber : Nat) → List Text → Reading
  | _, [] => ⟨[], []⟩
  | lineNumber, text :: rest =>
    let ⟨rules, errors⟩ := readFrom registry source (lineNumber + 1) rest
    match significant? text with
    | none => ⟨rules, errors⟩
    | some line =>
      match readLine registry lineNumber line with
      | .ok rule => ⟨rule :: rules, errors⟩
      | .error fault => ⟨rules, ⟨source, lineNumber, line, fault⟩ :: errors⟩

/-- Reads the lines of a source. -/
def readLines (registry : Registry) (source : Text) (lines : List Text) : Reading :=
  readFrom registry source 1 lines

/-! ### The rules of lines -/

/-- The rule that a numbered line makes. -/
def ruleOf? (registry : Registry) (numbered : Text × Nat) : Option Rule :=
  (significant? numbered.1).bind fun line => (readLine registry numbered.2 line).toOption

/-- The error that a numbered line makes. -/
def errorOf? (registry : Registry) (source : Text) (numbered : Text × Nat) : Option LineError :=
  (significant? numbered.1).bind fun line =>
    match readLine registry numbered.2 line with
    | .ok _ => none
    | .error fault => some ⟨source, numbered.2, line, fault⟩

/-- Every line is read for itself. -/
theorem readFrom_eq (registry : Registry) (source : Text) (lineNumber : Nat) (lines : List Text) :
    readFrom registry source lineNumber lines =
      ⟨(lines.zipIdx lineNumber).filterMap (ruleOf? registry),
        (lines.zipIdx lineNumber).filterMap (errorOf? registry source)⟩ := by
  induction lines generalizing lineNumber with
  | nil => rfl
  | cons text lines ih =>
    rw [readFrom, ih, List.zipIdx_cons, List.filterMap_cons, List.filterMap_cons]
    unfold ruleOf? errorOf?
    dsimp only
    cases significant? text with
    | none => rfl
    | some line =>
      simp only [Option.bind_some]
      cases readLine registry lineNumber line <;> rfl

theorem readFrom_append (registry : Registry) (source : Text) (lineNumber : Nat)
    (lines more : List Text) :
    readFrom registry source lineNumber (lines ++ more) =
      ⟨(readFrom registry source lineNumber lines).rules ++
          (readFrom registry source (lineNumber + lines.length) more).rules,
        (readFrom registry source lineNumber lines).errors ++
          (readFrom registry source (lineNumber + lines.length) more).errors⟩ := by
  simp only [readFrom_eq, List.zipIdx_append, List.filterMap_append]

/-- What a line holds in the place of a role: what stands for none if it holds nothing there. -/
def writtenRole (line : Text) : Text := ((Text.fields line)[1]?).getD noRole

theorem ofFields_of_readLine {registry : Registry} {lineNumber : Nat} {line : Text} {rule : Rule}
    (h : readLine registry lineNumber line = .ok rule) :
    ∃ raw, ofFields registry lineNumber raw (writtenRole line) = .ok rule := by
  unfold readLine at h
  unfold writtenRole
  split at h
  · cases h
  · next raw _ hfields =>
    rw [hfields]
    exact ⟨raw, h⟩
  · next raw roleName _ hfields =>
    rw [hfields]
    exact ⟨raw, h⟩
  · cases h

/-- The rule of two fields has the number of its line, and the role that is looked up. -/
theorem role_of_ofFields {registry : Registry} {lineNumber : Nat} {raw roleName : Text}
    {rule : Rule}
    (h : ofFields registry lineNumber raw roleName = .ok rule) :
    rule.lineNumber = lineNumber ∧
      readRole registry roleName rule.forDirectories = .ok rule.role := by
  unfold ofFields at h
  split at h
  · cases h
  · dsimp only at h
    split at h
    · cases h
    · next role hrole =>
      split at h
      · cases h
      · cases h
        exact ⟨rfl, hrole⟩

/-- A role is looked up unless the line names none. -/
theorem readRole_ok {registry : Registry} {name : Text} {forDirectories : Bool}
    {found : Option Role}
    (h : readRole registry name forDirectories = .ok found) :
    name = noRole ∧ found = none ∨
      ∃ role, name ≠ noRole ∧ registry.get? name = some role ∧ found = some role ∧
        (forDirectories = true ∨ role.appliesToFiles = true) := by
  unfold readRole at h
  split at h
  · next hname =>
    cases h
    exact Or.inl ⟨hname, rfl⟩
  · next hname =>
    split at h
    · cases h
    · split at h
      · cases h
      · next role hget =>
        split at h
        · cases h
        · next hmode =>
          cases h
          refine Or.inr ⟨role, hname, hget, rfl, ?_⟩
          cases hfor : forDirectories with
          | true => exact Or.inl rfl
          | false => simpa [hfor] using hmode

/-- Every rule is made by the line that has its number. -/
theorem line_of_mem_rules {registry : Registry} {source : Text} {first : Nat} {lines : List Text}
    {rule : Rule} (h : rule ∈ (readFrom registry source first lines).rules) :
    ∃ index text line, rule.lineNumber = first + index ∧ lines[index]? = some text ∧
      significant? text = some line ∧ readLine registry rule.lineNumber line = .ok rule := by
  rw [readFrom_eq] at h
  obtain ⟨⟨text, lineNumber⟩, hmem, hrule⟩ := List.mem_filterMap.1 h
  obtain ⟨line, hline, hread⟩ := Option.bind_eq_some_iff.1 hrule
  have hread : readLine registry lineNumber line = .ok rule := by
    cases hresult : readLine registry lineNumber line with
    | error fault =>
      rw [hresult] at hread
      cases hread
    | ok rule' =>
      rw [hresult] at hread
      rw [Option.some.inj hread]
  obtain ⟨raw, hfields⟩ := ofFields_of_readLine hread
  obtain rfl : rule.lineNumber = lineNumber := (role_of_ofFields hfields).1
  obtain ⟨hfirst, hget⟩ := List.mk_mem_zipIdx_iff_le_and_getElem?_sub.1 hmem
  exact ⟨_, text, line, (Nat.add_sub_cancel' hfirst).symm, hget, hline, hread⟩

/-- A role that a line gives has a mode for what the line selects. -/
theorem role_of_readLine {registry : Registry} {lineNumber : Nat} {line : Text} {rule : Rule}
    {role : Role} (h : readLine registry lineNumber line = .ok rule)
    (hrole : rule.role = some role) :
    rule.forDirectories = true ∨ role.appliesToFiles = true := by
  obtain ⟨raw, hfields⟩ := ofFields_of_readLine h
  rcases readRole_ok (role_of_ofFields hfields).2 with ⟨-, hnone⟩ | ⟨found, -, -, hfound, hmode⟩
  · cases hrole.symm.trans hnone
  · obtain rfl : role = found := Option.some.inj (hrole.symm.trans hfound)
    exact hmode

end Rule

end PathRights
