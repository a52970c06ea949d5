import PathRights.Proofs.Rule.Table

/-! Lines as they are written: a pattern, one blank and what stands in the place of a role. Such a
line is cut into just these two fields. A rule describes itself by a line of this form, so that the
description of a rule that was read is read as the same rule, and a table of descriptions decides as
the table that they describe. -/

namespace PathRights

namespace Text

/-- What can stand between the blanks of a line. -/
structure IsField (text : Text) : Prop where
  nonempty : text ≠ []
  notBlank : ∀ c ∈ text, isBlank c = false

theorem fields_of_notBlank {text : Text} (h : ∀ c ∈ text, isBlank c = false) :
    fields text = [text] := by
  induction text with
  | nil => rfl
  | cons c text ih =>
    obtain ⟨hc, htext⟩ := List.forall_mem_cons.1 h
    rw [fields, if_neg (by simp [hc]), ih htext]
    rfl

theorem fields_written {front back : Text} (hfront : ∀ c ∈ front, isBlank c = false)
    (hback : IsField back) : fields (front ++ ' ' :: back) = [front, back] := by
  induction front with
  | nil =>
    obtain ⟨c, text, rfl⟩ := List.exists_cons_of_ne_nil hback.nonempty
    have hc := hback.notBlank c List.mem_cons_self
    rw [List.nil_append, fields, if_pos (by decide), List.head?_cons]
    dsimp only
    rw [if_neg (by simp [hc]), fields_of_notBlank hback.notBlank]
  | cons c front ih =>
    obtain ⟨hc, hfront⟩ := List.forall_mem_cons.1 hfront
    rw [List.cons_append, fields, if_neg (by simp [hc]), ih hfront]
    rfl

/-- A line does not start with a blank if its first field is not empty. -/
theorem head?_of_fields {line field : Text} {c : Char} {more : List Text}
    (h : fields line = (c :: field) :: more) : line.head? = some c := by
  have hc : isBlank c = false := isBlank_of_mem_fields (h ▸ List.mem_cons_self) c List.mem_cons_self
  fun_induction fields line with
  | case1 => cases h
  | case2 b rest hblank next hnext hnext' ih =>
    rw [ih h] at hnext
    obtain rfl := Option.some.inj hnext
    rw [hc] at hnext'
    cases hnext'
  | case3 => cases h
  | case4 => cases h
  | case5 b rest hblank ih =>
    cases hrest : fields rest with
    | nil =>
      rw [hrest] at h
      cases h
      rfl
    | cons first others =>
      rw [hrest] at h
      cases h
      rfl

theorem trimEnd_append {front back : Text} (hback : IsField back) :
    trimEnd (front ++ back) = front ++ back := by
  obtain ⟨init, last, rfl⟩ := (List.eq_nil_or_concat back).resolve_left hback.nonempty
  have hlast : isBlank last = false := hback.notBlank last (by simp)
  unfold trimEnd
  simp [hlast]

theorem dropEnd?_append (ending text : Text) : dropEnd? ending (text ++ ending) = some text := by
  unfold dropEnd?
  rw [if_pos (List.isSuffixOf_iff_suffix.2 (List.suffix_append text ending))]
  simp

/-- What holds of a text without its final line feed holds of what stands in front of one. -/
theorem or_dropFinalNewline_iff {p : Text → Prop} {text : Text} :
    p text ∨ p text.dropFinalNewline ↔ p text ∨ ∃ stem, p stem ∧ text = stem ++ ['\n'] := by
  unfold dropFinalNewline
  constructor
  · rintro (h | h)
    · exact Or.inl h
    · cases hstem : dropEnd? ['\n'] text with
      | none =>
        rw [hstem] at h
        exact Or.inl h
      | some stem =>
        rw [hstem] at h
        exact Or.inr ⟨stem, h, eq_of_dropEnd? hstem⟩
  · rintro (h | ⟨stem, h, rfl⟩)
    · exact Or.inl h
    · rw [dropEnd?_append]
      exact Or.inr h

end Text

namespace Rule

open Text (IsField)

theorem isField_noRole : IsField noRole := ⟨by decide, List.forall_mem_singleton.2 (by decide)⟩

theorem splitMark_append {pattern : Text} (hlast : pattern.getLast? ≠ some '/') (mark : Bool) :
    splitMark (pattern ++ if mark then ['/'] else []) = (pattern, mark) := by
  unfold splitMark
  cases mark with
  | true => rw [if_pos rfl, Text.dropEnd?_append]
  | false =>
    rw [if_neg Bool.false_ne_true, List.append_nil]
    have hnone : Text.dropEnd? ['/'] pattern = none := by
      refine if_neg fun hsuffix => ?_
      obtain ⟨before, rfl⟩ := List.isSuffixOf_iff_suffix.1 hsuffix
      exact hlast List.getLast?_concat
    rw [hnone]

/-- A checked pattern that compiles makes a rule that leaves entries alone. -/
theorem ofFields_noRole {raw pattern : Text} {mark : Bool} {m : Pattern.Matcher}
    (hcheck : Pattern.checkText raw = .ok raw) (hmark : splitMark raw = (pattern, mark))
    (hm : Pattern.compile pattern mark = .ok m) (registry : Registry) (lineNumber : Nat) :
    ofFields registry lineNumber raw noRole = .ok ⟨pattern, m, mark, none, lineNumber⟩ := by
  unfold ofFields
  rw [hcheck, hmark]
  dsimp only
  rw [show readRole registry noRole mark = .ok none from if_pos rfl, hm]

/-! ### Two fields -/

section

variable {raw roleName : Text} (hraw : IsField raw) (hrole : IsField roleName)

include hraw hrole

theorem significant?_written (hhead : raw.head? ≠ some '#') :
    significant? (raw ++ ' ' :: roleName) = some (raw ++ ' ' :: roleName) := by
  have htrim : Text.trimEnd (raw ++ ' ' :: roleName) = raw ++ ' ' :: roleName := by
    have h := @Text.trimEnd_append (raw ++ [' ']) _ hrole
    rwa [List.append_assoc] at h
  obtain ⟨c, rest, rfl⟩ := List.exists_cons_of_ne_nil hraw.nonempty
  have hc : c ≠ '#' := fun heq => hhead (congrArg some heq)
  unfold significant?
  rw [htrim]
  simp [hc]

theorem readLine_written (registry : Registry) (lineNumber : Nat) :
    readLine registry lineNumber (raw ++ ' ' :: roleName) =
      ofFields registry lineNumber raw roleName := by
  unfold readLine
  rw [Text.fields_written hraw.notBlank hrole]
  obtain ⟨c, rest, rfl⟩ := List.exists_cons_of_ne_nil hraw.nonempty
  rfl

/-- A line of two fields that make a rule adds this rule and no error. -/
theorem readFrom_written {registry : Registry} {lineNumber : Nat} {rule : Rule}
    (hhead : raw.head? ≠ some '#') (hrule : ofFields registry lineNumber raw roleName = .ok rule)
    (source : Text) (lines : List Text) :
    readFrom registry source lineNumber ((raw ++ ' ' :: roleName) :: lines) =
      ⟨rule :: (readFrom registry source (lineNumber + 1) lines).rules,
        (readFrom registry source (lineNumber + 1) lines).errors⟩ := by
  rw [readFrom, significant?_written hraw hrole hhead]
  dsimp only
  rw [readLine_written hraw hrole, hrule]

end

/-! ### Descriptions -/

/-- The number of the line goes into the rule and decides nothing. -/
theorem ofFields_renumber {registry : Registry} {lineNumber : Nat} {raw roleName : Text}
    {rule : Rule}
    (h : ofFields registry lineNumber raw roleName = .ok rule) (number : Nat) :
    ofFields registry number raw roleName = .ok { rule with lineNumber := number } := by
  unfold ofFields at h ⊢
  split at h
  · cases h
  · dsimp only at h ⊢
    split at h
    · cases h
    · split at h
      · cases h
      · cases h
        rfl

theorem target_of_readRole {registry : Registry} {roleName : Text} {rule : Rule}
    (h : readRole registry roleName rule.forDirectories = .ok rule.role) :
    rule.target = roleName := by
  unfold target
  rcases readRole_ok h with ⟨rfl, hnone⟩ | ⟨role, -, hget, hsome, -⟩
  · rw [hnone]
  · rw [hsome]
    simpa using List.find?_some hget

/-- The first field of a line that makes a rule, and what it holds in the place of a role. -/
theorem fields_of_readLine {registry : Registry} {lineNumber : Nat} {line : Text} {rule : Rule}
    (h : readLine registry lineNumber line = .ok rule) :
    ∃ c raw, (∃ more, Text.fields line = (c :: raw) :: more) ∧
      (writtenRole line = noRole ∨ writtenRole line ∈ Text.fields line) ∧
      ofFields registry lineNumber (c :: raw) (writtenRole line) = .ok rule := by
  unfold readLine at h
  unfold writtenRole
  split at h
  · cases h
  · next raw hempty hfields =>
    rw [hfields]
    obtain ⟨c, raw, rfl⟩ := List.exists_cons_of_ne_nil hempty
    exact ⟨c, raw, ⟨[], rfl⟩, Or.inl rfl, h⟩
  · next raw roleName hempty hfields =>
    rw [hfields]
    obtain ⟨c, raw, rfl⟩ := List.exists_cons_of_ne_nil hempty
    exact ⟨c, raw, ⟨[roleName], rfl⟩, Or.inr (by simp), h⟩
  · cases h

/-- A rule that was read is described by two fields that make it. -/
theorem describe_of_readLine {registry : Registry} {lineNumber : Nat} {text line : Text}
    {rule : Rule}
    (hline : significant? text = some line) (h : readLine registry lineNumber line = .ok rule) :
    ∃ raw, IsField raw ∧ raw.head? ≠ some '#' ∧ IsField rule.target ∧
      rule.describe = raw ++ ' ' :: rule.target ∧
      ofFields registry lineNumber raw rule.target = .ok rule := by
  obtain ⟨c, raw, ⟨more, hfields⟩, hwritten, hrule⟩ := fields_of_readLine h
  have hlookup := (role_of_ofFields hrule).2
  have htarget : rule.target = writtenRole line := target_of_readRole hlookup
  obtain ⟨-, hpattern, hfor, -⟩ := ofFields_ok hrule
  refine ⟨c :: raw, ⟨List.cons_ne_nil c raw, ?_⟩, fun hhead => ?_, ?_, ?_, htarget ▸ hrule⟩
  · exact Text.isBlank_of_mem_fields (hfields ▸ List.mem_cons_self)
  · have hcomment : line.head? ≠ some '#' := by
      unfold significant? at hline
      dsimp only at hline
      split at hline
      · cases hline
      · next hskip =>
        obtain rfl := Option.some.inj hline
        exact fun hline => hskip (Or.inr hline)
    exact hcomment ((Text.head?_of_fields hfields).trans hhead)
  · rw [htarget]
    rcases hwritten with hnone | hmem
    · exact hnone ▸ isField_noRole
    · refine ⟨fun hempty => ?_, Text.isBlank_of_mem_fields hmem⟩
      -- no role has the empty name
      rw [hempty] at hlookup
      cases hlookup
  · unfold describe
    rw [hpattern, hfor, ← append_splitMark]
    exact List.append_assoc _ _ _

/-- What describes a rule that was read is read as this rule, with the number of its new line. -/
theorem readFrom_describe {registry : Registry} {source : Text} {first : Nat} {lines : List Text}
    {rule : Rule} (h : rule ∈ (readFrom registry source first lines).rules) (source' : Text)
    (lineNumber : Nat) (more : List Text) :
    readFrom registry source' lineNumber (rule.describe :: more) =
      ⟨{ rule with lineNumber } :: (readFrom registry source' (lineNumber + 1) more).rules,
        (readFrom registry source' (lineNumber + 1) more).errors⟩ := by
  obtain ⟨_, text, line, -, -, hline, hread⟩ := line_of_mem_rules h
  obtain ⟨raw, hraw, hhead, htarget, hdescribe, hrule⟩ := describe_of_readLine hline hread
  rw [hdescribe]
  exact readFrom_written hraw htarget hhead (ofFields_renumber hrule lineNumber) source' more

/-- The rules, numbered anew. -/
def renumber (rules : List Rule) (first : Nat) : List Rule :=
  (rules.zipIdx first).map fun (rule, lineNumber) => { rule with lineNumber }

theorem unnumbered_renumber (rules : List Rule) (first : Nat) :
    (renumber rules first).map unnumbered = rules.map unnumbered := by
  induction rules generalizing first with
  | nil => rfl
  | cons rule rules ih =>
    show unnumbered _ :: (renumber rules (first + 1)).map unnumbered = _
    rw [ih]
    rfl

theorem readFrom_descriptions {registry : Registry} {source : Text} {first : Nat}
    {lines : List Text} {rules : List Rule}
    (h : ∀ rule ∈ rules, rule ∈ (readFrom registry source first lines).rules) (source' : Text)
    (lineNumber : Nat) :
    readFrom registry source' lineNumber (rules.map describe) =
      ⟨renumber rules lineNumber, []⟩ := by
  induction rules generalizing lineNumber with
  | nil => rfl
  | cons rule rules ih =>
    obtain ⟨hrule, hrules⟩ := List.forall_mem_cons.1 h
    rw [List.map_cons, readFrom_describe hrule, ih hrules]
    rfl

/-- The description of a rule that was read is read as the rule, wherever it stands. So the
descriptions of a table make a table of as many rules, which differ in nothing but their numbers and
so decide every entry alike. -/
theorem describe_reads_back (registry : Registry) (source : Text) (lines : List Text) :
    (∀ rule ∈ (readLines registry source lines).rules, ∀ source' lineNumber,
      readFrom registry source' lineNumber [rule.describe] = ⟨[{ rule with lineNumber }], []⟩) ∧
    ∀ table, RuleTable.load registry source lines = .ok table → ∀ source',
      ∃ again, RuleTable.load registry source' (table.rules.map describe) = .ok again ∧
        again.size = table.size ∧ again.rules = renumber table.rules 1 ∧
        ∀ entry, (again.decide entry).unnumbered = (table.decide entry).unnumbered := by
  refine ⟨fun rule hrule source' lineNumber => readFrom_describe hrule source' lineNumber [],
    fun table hload source' => ?_⟩
  have hrules := (RuleTable.load_eq_ok.1 hload).2
  have hmem : ∀ rule ∈ table.rules, rule ∈ (readFrom registry source 1 lines).rules := by
    rw [hrules]
    exact fun _ h => h
  have hread := readFrom_descriptions hmem source' 1
  refine ⟨⟨renumber table.rules 1⟩, RuleTable.load_eq_ok.2 ?_, ?_, rfl, fun entry => ?_⟩
  · rw [hread]
    exact ⟨rfl, rfl⟩
  · unfold RuleTable.size renumber
    rw [List.length_map, List.length_zipIdx]
  · exact RuleTable.decide_unnumbered (unnumbered_renumber table.rules 1) entry

/-- A role for directories and files. -/
def webRegistry : Registry := ⟨[⟨"web", "u", 1, "g", 2, 0o755, some 0o644⟩]⟩

/-- A comment, an empty line, blanks around fields, a `/` behind a backslash and a pattern alone. -/
def untidyLines : List Text := ["# text\n", "\n", "*.txt \t web  \n", "a\\/\n", "/x[!#]/**/ -"]

theorem describe_reads_back_untidyLines :
    ∃ table again, RuleTable.load webRegistry "rules" untidyLines = .ok table ∧
      table.rules.map describe =
        ["*.txt web".toList, "a\\/ -".toList, "/x[!#]/**/ -".toList] ∧
      (∃ rule ∈ (readLines webRegistry "rules" untidyLines).rules, rule.pattern = "a\\" ∧
        readFrom webRegistry "again" 7 ["a\\/ -".toList] = ⟨[{ rule with lineNumber := 7 }], []⟩) ∧
      RuleTable.load webRegistry "again"
        ["*.txt web".toList, "a\\/ -".toList, "/x[!#]/**/ -".toList] = .ok again ∧
      again.size = 3 ∧ ∀ entry, (again.decide entry).unnumbered =
      (table.decide entry).unnumbered := by
  obtain ⟨hrule, htable⟩ := describe_reads_back webRegistry "rules" untidyLines
  have hload : ∃ table, RuleTable.load webRegistry "rules" untidyLines = .ok table ∧
      table.rules.map describe =
        ["*.txt web".toList, "a\\/ -".toList, "/x[!#]/**/ -".toList] ∧
      ∃ first rule last, table.rules = [first, rule, last] ∧ rule.pattern = "a\\" ∧
        rule.describe = "a\\/ -" := by
    refine ⟨_, by with_unfolding_all rfl, by with_unfolding_all rfl, _, _, _, rfl, rfl, rfl⟩
  obtain ⟨table, hload, hdescribe, first, rule, last, hrules, hpattern, hself⟩ := hload
  obtain ⟨again, hagain, hsize, -, hdecide⟩ := htable table hload "again"
  have hread : (readLines webRegistry "rules" untidyLines).rules = table.rules :=
    (RuleTable.load_eq_ok.1 hload).2.symm
  have hmem : rule ∈ (readLines webRegistry "rules" untidyLines).rules := by
    rw [hread, hrules]
    simp
  rw [hdescribe] at hagain
  refine ⟨table, again, hload, hdescribe, ⟨rule, hmem, hpattern, ?_⟩, hagain, ?_, hdecide⟩
  · rw [← hself]
    exact hrule rule hmem "again" 7
  · rw [hsize, RuleTable.size, hrules]
    rfl

end Rule

end PathRights
