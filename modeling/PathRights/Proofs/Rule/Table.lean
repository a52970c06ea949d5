import PathRights.Proofs.Rule.Line
import PathRights.Rule.Table

/-! Loaded tables. The rules of a table are those of its lines, in their order, and each is made
from its line alone: where the line stands gives it its number and nothing else. A role that a rule
gives has a mode for what the rule selects. -/

namespace PathRights

namespace Rule

/-! ### The rules of lines -/

/-- Where no line is faulty, every line that counts makes a rule. -/
theorem rule_of_line {registry : Registry} {source : Text} {first : Nat} {lines : List Text}
    (herrors : (readFrom registry source first lines).errors = []) {index : Nat} {text line : Text}
    (htext : lines[index]? = some text) (hline : significant? text = some line) :
    ∃ rule ∈ (readFrom registry source first lines).rules,
      readLine registry (first + index) line = .ok rule := by
  have hmem : (text, first + index) ∈ lines.zipIdx first :=
    List.mk_mem_zipIdx_iff_le_and_getElem?_sub.2 ⟨Nat.le_add_right _ _, by simpa using htext⟩
  rw [readFrom_eq] at herrors ⊢
  dsimp only at herrors ⊢
  cases hread : readLine registry (first + index) line with
  | error fault =>
    have herror : errorOf? registry source (text, first + index) =
        some ⟨source, first + index, line, fault⟩ := by
      unfold errorOf?
      rw [hline, Option.bind_some, hread]
    have hfound := List.mem_filterMap.2 ⟨_, hmem, herror⟩
    rw [herrors] at hfound
    cases hfound
  | ok rule =>
    have hrule : ruleOf? registry (text, first + index) = some rule := by
      unfold ruleOf?
      rw [hline, Option.bind_some, hread]
      rfl
    exact ⟨rule, List.mem_filterMap.2 ⟨_, hmem, hrule⟩, rfl⟩

/-! ### Line numbers -/

/-- The rule without its line number. -/
def unnumbered (rule : Rule) : Rule := { rule with lineNumber := 0 }

theorem readLine_unnumbered (registry : Registry) (lineNumber lineNumber' : Nat) (line : Text) :
    (readLine registry lineNumber line).map unnumbered =
      (readLine registry lineNumber' line).map unnumbered := by
  have hfields (raw roleName : Text) :
      (ofFields registry lineNumber raw roleName).map unnumbered =
        (ofFields registry lineNumber' raw roleName).map unnumbered := by
    unfold ofFields
    cases Pattern.checkText raw with
    | error error => rfl
    | ok _ =>
      dsimp only
      cases readRole registry roleName (splitMark raw).2 with
      | error fault => rfl
      | ok role =>
        dsimp only
        cases Pattern.compile (splitMark raw).1 (splitMark raw).2 <;> rfl
  unfold readLine
  split
  · rfl
  · exact hfields _ _
  · exact hfields _ _
  · rfl

/-- Lines that stand elsewhere make the same rules but for the numbers, and are as faulty. -/
theorem readFrom_unnumbered (registry : Registry) (source source' : Text)
    (lineNumber lineNumber' : Nat) (lines : List Text) :
    (readFrom registry source lineNumber lines).rules.map unnumbered =
        (readFrom registry source' lineNumber' lines).rules.map unnumbered ∧
      (readFrom registry source lineNumber lines).errors.length =
        (readFrom registry source' lineNumber' lines).errors.length := by
  induction lines generalizing lineNumber lineNumber' with
  | nil => exact ⟨rfl, rfl⟩
  | cons text lines ih =>
    obtain ⟨hrules, herrors⟩ := ih (lineNumber + 1) (lineNumber' + 1)
    rw [readFrom, readFrom]
    dsimp only
    cases significant? text with
    | none => exact ⟨hrules, herrors⟩
    | some line =>
      have hline := readLine_unnumbered registry lineNumber lineNumber' line
      dsimp only
      cases hread : readLine registry lineNumber line with
      | error fault =>
        cases hread' : readLine registry lineNumber' line with
        | error fault' => exact ⟨hrules, congrArg (· + 1) herrors⟩
        | ok rule' =>
          rw [hread, hread'] at hline
          cases hline
      | ok rule =>
        cases hread' : readLine registry lineNumber' line with
        | error fault' =>
          rw [hread, hread'] at hline
          cases hline
        | ok rule' =>
          rw [hread, hread'] at hline
          have hsame : rule.unnumbered = rule'.unnumbered := Except.ok.inj hline
          refine ⟨?_, herrors⟩
          rw [List.map_cons, List.map_cons, hrules, hsame]

end Rule

/-- The decision, its rule without its line number. -/
def Decision.unnumbered : Decision → Decision
  | .apply role rule => .apply role rule.unnumbered
  | .leave rule => .leave rule.unnumbered
  | .unmatched => .unmatched

namespace RuleTable

/-! ### Decisions -/

theorem decide_of_find {table : RuleTable} {entry : Entry} {rule : Rule}
    (h : table.rules.find? (·.selects entry) = some rule) : table.decide entry = rule.decision := by
  unfold decide
  rw [h]

theorem load_eq_ok {registry : Registry} {source : Text} {lines : List Text} {table : RuleTable} :
    load registry source lines = .ok table ↔
      (Rule.readFrom registry source 1 lines).errors = [] ∧
        table.rules = (Rule.readFrom registry source 1 lines).rules := by
  cases table with
  | mk rules =>
    unfold load Rule.readLines
    dsimp only
    split
    · next h => simp [List.isEmpty_iff.1 h, eq_comm]
    · next h => simpa using fun hempty => absurd (List.isEmpty_iff.2 hempty) h

/-- The name of the source is for messages: the same lines make the same table under another. -/
theorem load_ok_of_source {registry : Registry} {source : Text} {lines : List Text}
    {table : RuleTable} (h : load registry source lines = .ok table) (source' : Text) :
    load registry source' lines = .ok table := by
  obtain ⟨herrors, hrules⟩ := load_eq_ok.1 h
  obtain ⟨-, hlength⟩ := Rule.readFrom_unnumbered registry source source' 1 1 lines
  rw [herrors] at hlength
  refine load_eq_ok.2 ⟨List.length_eq_zero_iff.1 hlength.symm, ?_⟩
  rw [hrules, Rule.readFrom_eq, Rule.readFrom_eq]

/-- Rules that differ in their line numbers decide alike. -/
theorem decide_unnumbered {rules rules' : List Rule}
    (h : rules.map Rule.unnumbered = rules'.map Rule.unnumbered) (entry : Entry) :
    (decide ⟨rules⟩ entry).unnumbered = (decide ⟨rules'⟩ entry).unnumbered := by
  have hfind (rules : List Rule) : (rules.find? (·.selects entry)).map Rule.unnumbered =
      (rules.map Rule.unnumbered).find? (·.selects entry) := by
    rw [List.find?_map]
    rfl
  have hdecide (rules : List Rule) : (decide ⟨rules⟩ entry).unnumbered =
      ((rules.find? (·.selects entry)).map Rule.unnumbered).elim .unmatched Rule.decision := by
    unfold decide
    cases rules.find? (·.selects entry) with
    | none => rfl
    | some rule =>
      show rule.decision.unnumbered = rule.unnumbered.decision
      obtain ⟨pattern, matcher, forDirectories, role, lineNumber⟩ := rule
      cases role <;> rfl
  rw [hdecide, hdecide, hfind, hfind, h]

end RuleTable

end PathRights
