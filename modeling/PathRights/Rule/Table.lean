import PathRights.Rule.Source
import PathRights.Tree.Kind

/-!
Rule tables and decisions. The rules of a table are tried in order, and the first that is for the
kind of an entry and whose pattern accepts its path decides.
-/

namespace PathRights

/-- The rules of a source, in order. -/
structure RuleTable where
  rules : List Rule
deriving DecidableEq, Repr

/-- The faulty lines of a source. -/
structure RuleTableError where
  errors : List LineError
deriving Repr

/-- The error in words: how many lines are faulty. -/
def RuleTableError.message (error : RuleTableError) : Text :=
  Text.ofNat error.errors.length ++ " rule " ++
    if error.errors.length = 1 then ("error" : Text) else "errors"

/-- An entry as the rules see it: its path below the root of the tree, which ends with `/` for a
directory and is `/` for the root itself, and its kind. -/
structure Entry where
  path : Text
  kind : EntryKind
deriving DecidableEq, Repr

/-- The entry is a directory. -/
def Entry.isDirectory (entry : Entry) : Bool := entry.kind == .directory

/-- What is to be done with an entry, and the rule that says so. -/
inductive Decision where
  | apply (role : Role) (rule : Rule)
  | leave (rule : Rule)
  | unmatched
deriving DecidableEq, Repr

/-- The rule is for the entry. -/
def Rule.selects (rule : Rule) (entry : Entry) : Bool :=
  rule.forDirectories == entry.isDirectory && rule.matcher.accepts entry.path

/-- What a rule says about an entry that it selects. -/
def Rule.decision (rule : Rule) : Decision :=
  match rule.role with
  | some role => .apply role rule
  | none => .leave rule

namespace RuleTable

/-- The table of a source; one faulty line is enough to have none. -/
def load (registry : Registry) (source : Text) (lines : List Text) :
    Except RuleTableError RuleTable :=
  let reading := Rule.readLines registry source lines
  if reading.errors.isEmpty then .ok ⟨reading.rules⟩ else .error ⟨reading.errors⟩

/-- Every role that a rule gives has a mode for what the rule selects. -/
def GivesModes (table : RuleTable) : Prop :=
  ∀ rule ∈ table.rules, ∀ role, rule.role = some role →
    ∃ mode, role.modeFor rule.forDirectories = some mode

theorem givesModes_of_load {registry : Registry} {source : Text} {lines : List Text}
    {table : RuleTable} (h : load registry source lines = .ok table) : table.GivesModes := by
  unfold load at h
  dsimp only at h
  split at h
  · cases h
    intro rule hrule role hrole
    obtain ⟨_, _, _, -, -, -, hline⟩ := Rule.line_of_mem_rules hrule
    exact Role.exists_modeFor (Rule.role_of_readLine hline hrole)
  · cases h

/-- The table of a source, with what is known of its modes. -/
def loadWithModes (registry : Registry) (source : Text) (lines : List Text) :
    Except RuleTableError {table : RuleTable // table.GivesModes} :=
  match h : load registry source lines with
  | .error error => .error error
  | .ok table => .ok ⟨table, givesModes_of_load h⟩

theorem loadWithModes_eq_ok_iff {registry : Registry} {source : Text} {lines : List Text}
    {table : {table : RuleTable // table.GivesModes}} :
    loadWithModes registry source lines = .ok table ↔ load registry source lines = .ok table.1 := by
  unfold loadWithModes
  split
  · next h => simp [h]
  · next h => simp [h, Subtype.ext_iff]

theorem loadWithModes_eq_error_iff {registry : Registry} {source : Text} {lines : List Text}
    {error : RuleTableError} :
    loadWithModes registry source lines = .error error ↔
      load registry source lines = .error error := by
  unfold loadWithModes
  split
  · next h => simp [h]
  · next h => simp [h]

/-- The number of rules. -/
def size (table : RuleTable) : Nat := table.rules.length

/-- The decision on an entry. -/
def decide (table : RuleTable) (entry : Entry) : Decision :=
  match table.rules.find? (·.selects entry) with
  | some rule => rule.decision
  | none => .unmatched

/-- A role is given by a rule of the table that selects the entry. -/
theorem rule_of_decide {table : RuleTable} {entry : Entry} {role : Role} {rule : Rule}
    (h : table.decide entry = .apply role rule) :
    rule ∈ table.rules ∧ rule.selects entry = true ∧ rule.role = some role := by
  unfold decide at h
  split at h
  · next found hfound =>
    unfold Rule.decision at h
    split at h
    · next role' hrole =>
      cases h
      have hselects : rule.selects entry = true := by simpa using List.find?_some hfound
      exact ⟨List.mem_of_find?_eq_some hfound, hselects, hrole⟩
    · cases h
  · cases h

theorem GivesModes.modeFor {table : RuleTable} (h : table.GivesModes) {entry : Entry} {role : Role}
    {rule : Rule} (hdecide : table.decide entry = .apply role rule) :
    ∃ mode, role.modeFor entry.isDirectory = some mode := by
  obtain ⟨hmem, hselects, hrole⟩ := rule_of_decide hdecide
  have hkind : rule.forDirectories = entry.isDirectory := by
    unfold Rule.selects at hselects
    rw [Bool.and_eq_true] at hselects
    exact eq_of_beq hselects.1
  exact hkind ▸ h rule hmem role hrole

end RuleTable

end PathRights
