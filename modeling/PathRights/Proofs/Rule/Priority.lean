import PathRights.Proofs.Rule.Table

/-! The order of rules is their only priority. A table decides as its first part does, and only
where that leaves an entry unmatched as the rest does, so rules behind others change nothing but
entries that were unmatched. Rules for directories and rules for files are two tables in one: it
does not matter how they stand among each other. -/

namespace PathRights

namespace Decision

/-- The decision, or another where there is none. -/
def orElse : Decision → Decision → Decision
  | .unmatched, other => other
  | decision, _ => decision

theorem orElse_of_ne {decision : Decision} (h : decision ≠ .unmatched) (other : Decision) :
    decision.orElse other = decision := by
  cases decision with
  | apply role rule => rfl
  | leave rule => rfl
  | unmatched => exact absurd rfl h

end Decision

theorem Rule.decision_ne_unmatched (rule : Rule) : rule.decision ≠ .unmatched := by
  unfold decision
  split <;> simp

namespace RuleTable

/-! ### Parts of a table -/

section

variable (entry : Entry)

theorem decide_cons (rule : Rule) (rules : List Rule) : decide ⟨rule :: rules⟩ entry =
    if rule.selects entry then rule.decision else decide ⟨rules⟩ entry := by
  unfold decide
  dsimp only
  rw [List.find?_cons]
  cases rule.selects entry <;> rfl

theorem decide_append (first second : List Rule) :
    decide ⟨first ++ second⟩ entry = (decide ⟨first⟩ entry).orElse (decide ⟨second⟩ entry) := by
  induction first with
  | nil => rfl
  | cons rule first ih =>
    rw [List.cons_append, decide_cons, decide_cons, ih]
    split
    · exact (Decision.orElse_of_ne rule.decision_ne_unmatched _).symm
    · rfl

theorem decide_eq_unmatched_iff {rules : List Rule} :
    decide ⟨rules⟩ entry = .unmatched ↔ ∀ rule ∈ rules, rule.selects entry = false := by
  induction rules with
  | nil => exact iff_of_true rfl (by simp)
  | cons rule rules ih =>
    rw [decide_cons, List.forall_mem_cons, ← ih]
    cases rule.selects entry with
    | true => simp [rule.decision_ne_unmatched]
    | false => simp

end

/-! ### Kinds -/

/-- The rules for directories, or those for everything else. -/
def rulesFor (table : RuleTable) (directories : Bool) : List Rule :=
  table.rules.filter fun rule => rule.forDirectories == directories

theorem decide_rulesFor (table : RuleTable) (entry : Entry) :
    decide ⟨table.rulesFor entry.isDirectory⟩ entry = table.decide entry := by
  have hfind : (table.rulesFor entry.isDirectory).find? (·.selects entry) =
      table.rules.find? (·.selects entry) := by
    rw [rulesFor, List.find?_filter]
    congr 1
    funext rule
    -- a rule that selects the entry is for its kind
    simp [Rule.selects, Bool.beq_eq_decide_eq]
  unfold decide
  rw [hfind]

/-- Rules for directories and rules for files never meet. -/
theorem decide_eq_of_rulesFor {table table' : RuleTable}
    (h : ∀ directories, table.rulesFor directories = table'.rulesFor directories) (entry : Entry) :
    table.decide entry = table'.decide entry := by
  rw [← decide_rulesFor table, h, decide_rulesFor]

end RuleTable

namespace Rule

/-- The rule accepts no path of its kind that is not accepted by one of the earlier rules of that
kind. -/
def IsShadowed (earlier : List Rule) (rule : Rule) : Prop :=
  ∀ path : Text, (path.getLast? == some '/') = rule.matcher.directoryOnly →
    rule.matcher.accepts path = true →
    ∃ other ∈ earlier, other.forDirectories = rule.forDirectories ∧
      other.matcher.accepts path = true

theorem IsShadowed.selects {earlier : List Rule} {rule : Rule} (h : rule.IsShadowed earlier)
    {entry : Entry} (hselects : rule.selects entry = true) :
    ∃ other ∈ earlier, other.selects entry = true := by
  obtain ⟨hkind, haccepts⟩ := Bool.and_eq_true_iff.1 hselects
  have hpath : (entry.path.getLast? == some '/') = rule.matcher.directoryOnly :=
    eq_of_beq (Bool.and_eq_true_iff.1 haccepts).1
  obtain ⟨other, hmem, hfor, hother⟩ := h entry.path hpath haccepts
  refine ⟨other, hmem, Bool.and_eq_true_iff.2 ⟨?_, hother⟩⟩
  rw [hfor]
  exact hkind

end Rule

namespace RuleTable

theorem decide_without_shadowed {before : List Rule} {rule : Rule} (h : rule.IsShadowed before)
    (after : List Rule) (entry : Entry) :
    decide ⟨before ++ after⟩ entry = decide ⟨before ++ rule :: after⟩ entry := by
  rw [decide_append, decide_append, decide_cons]
  by_cases hbefore : decide ⟨before⟩ entry = .unmatched
  · have hnone := (decide_eq_unmatched_iff entry).1 hbefore
    have hrule : ¬ rule.selects entry = true := by
      intro hselects
      obtain ⟨other, hmem, hother⟩ := h.selects hselects
      exact Bool.noConfusion (hother.symm.trans (hnone other hmem))
    rw [if_neg hrule]
  · rw [Decision.orElse_of_ne hbefore, Decision.orElse_of_ne hbefore]

/-- What a table decides depends on the order of the rules of each kind, and there on the first that
accepts. Tables with the same directory rules and the same other rules decide alike, in whatever way
the two are mixed. A rule that is shadowed can be left out. Rules that are added behind change the
decision of unmatched entries only. All of this holds of every entry, also where its path is not one
of its kind. -/
theorem priority_is_order :
    (∀ table table' : RuleTable,
      table.rules.filter (fun rule => rule.forDirectories) =
        table'.rules.filter (fun rule => rule.forDirectories) →
      table.rules.filter (fun rule => !rule.forDirectories) =
        table'.rules.filter (fun rule => !rule.forDirectories) →
      ∀ entry, table.decide entry = table'.decide entry) ∧
    (∀ (before : List Rule) (rule : Rule) (after : List Rule), rule.IsShadowed before →
      ∀ entry, decide ⟨before ++ after⟩ entry = decide ⟨before ++ rule :: after⟩ entry) ∧
    ∀ (table : RuleTable) (more : List Rule) (entry : Entry),
      decide ⟨table.rules ++ more⟩ entry ≠ table.decide entry →
        table.decide entry = .unmatched := by
  refine ⟨fun table table' hdirectories hfiles entry => ?_,
    fun before rule after h entry => decide_without_shadowed h after entry,
    fun table more entry hchanged => ?_⟩
  · apply decide_eq_of_rulesFor
    intro directories
    cases directories with
    | true => simpa [rulesFor] using hdirectories
    | false => simpa [rulesFor] using hfiles
  · by_contra hmatched
    apply hchanged
    rw [decide_append, Decision.orElse_of_ne hmatched]

/-- A rule for all directories, one for all files, and one for some files. -/
def directoriesRule : Rule := ⟨"*", ⟨"*", true, none⟩, true, none, 1⟩

def filesRule : Rule := ⟨"**", ⟨"**", false, none⟩, false, none, 2⟩

def rootedFilesRule : Rule :=
  ⟨"/a", ⟨"/a", false, some ⟨false, [.char 'a']⟩⟩, false, none, 3⟩

theorem priority_is_order_files :
    (∀ entry, decide ⟨[directoriesRule, filesRule, rootedFilesRule]⟩ entry =
      decide ⟨[filesRule, rootedFilesRule, directoriesRule]⟩ entry) ∧
    rootedFilesRule.matcher.accepts "a" = true ∧
    (∀ entry, decide ⟨[filesRule, directoriesRule]⟩ entry =
      decide ⟨[filesRule, rootedFilesRule, directoriesRule]⟩ entry) ∧
    -- a directory with the path of a file
    decide ⟨[directoriesRule]⟩ ⟨"a", .directory⟩ = .unmatched ∧
    decide ⟨[directoriesRule]⟩ ⟨"a", .file⟩ = .unmatched := by
  obtain ⟨hmixed, hshadowed, hbehind⟩ := priority_is_order
  have hrooted : rootedFilesRule.IsShadowed [filesRule] := by
    intro path hpath _
    refine ⟨filesRule, List.mem_singleton_self _, rfl, ?_⟩
    show ((path.getLast? == some '/') == false && true) = true
    rw [hpath]
    rfl
  refine ⟨hmixed ⟨[directoriesRule, filesRule, rootedFilesRule]⟩
      ⟨[filesRule, rootedFilesRule, directoriesRule]⟩ rfl rfl, by decide,
    hshadowed [filesRule] rootedFilesRule [directoriesRule] hrooted, rfl, ?_⟩
  exact hbehind ⟨[directoriesRule]⟩ [filesRule] ⟨"a", .file⟩ (by decide)

end RuleTable

end PathRights
