import PathRights.Proofs.Role.Declaration
import PathRights.Proofs.Rule.Written

/-! Which roles of a registry a line can refer to. A name stands between blanks in a line, so it
has to be one word. The names that are meant all are; but the check of names looks past a line feed
at the end, and a role that was declared with one is out of reach of every line:
`role_referable_iff`. -/

namespace PathRights

namespace Role

/-- What the check accepts: a name, or a name in front of a line feed. -/
theorem isName_iff {name : Text} : isName name = true ↔
    isPlainName name = true ∨ ∃ stem, isPlainName stem = true ∧ name = stem ++ ['\n'] := by
  unfold isName
  rw [Bool.or_eq_true]
  exact @Text.or_dropFinalNewline_iff (isPlainName · = true) name

theorem isBlank_of_isNameChar {c : Char} (h : isNameChar c = true) : Text.isBlank c = false := by
  have hrange : 0x2D ≤ c.toNat ∧ c.toNat ≤ 0x7A := by
    simp only [isNameChar, isNameStart, Text.isDigit, Bool.or_eq_true, Bool.and_eq_true,
      decide_eq_true_eq, beq_iff_eq] at h
    rcases h with ((⟨hlow, hhigh⟩ | rfl) | ⟨hlow, hhigh⟩) | rfl
    · have hlow : 0x61 ≤ c.toNat := UInt32.le_iff_toNat_le.mp hlow
      exact ⟨by omega, UInt32.le_iff_toNat_le.mp hhigh⟩
    · decide
    · have hlow : 0x30 ≤ c.toNat := UInt32.le_iff_toNat_le.mp hlow
      have hhigh : c.toNat ≤ 0x39 := UInt32.le_iff_toNat_le.mp hhigh
      omega
    · decide
  have hfar : c.toNat < 0x85 := by omega
  simp only [Text.isBlank, Bool.or_eq_false_iff, Bool.and_eq_false_iff, decide_eq_false_iff_not,
    beq_eq_false_iff_ne]
  omega

/-- A plain name is one word, and no line takes it for no role. -/
theorem isField_of_isPlainName {name : Text} (h : isPlainName name = true) :
    Text.IsField name ∧ name ≠ Rule.noRole := by
  cases name with
  | nil => cases h
  | cons c rest =>
    obtain ⟨hc, hrest⟩ := Bool.and_eq_true_iff.1 h
    refine ⟨⟨List.cons_ne_nil c rest, ?_⟩, ?_⟩
    · refine List.forall_mem_cons.2 ⟨isBlank_of_isNameChar ?_, fun d hd => ?_⟩
      · simp [isNameChar, hc]
      · exact isBlank_of_isNameChar (List.all_eq_true.1 hrest d hd)
    · rintro heq
      cases heq
      exact absurd hc (by decide)

theorem checkNameText_eq_ok_iff {text name : Text} :
    checkNameText text = .ok name ↔ text ≠ [] ∧ isName text = true ∧ name = text := by
  unfold checkNameText
  by_cases hempty : text = []
  · simp [hempty]
  · by_cases hname : isName text = true
    · rw [if_neg (by simpa using hempty), if_pos hname]
      exact ⟨fun h => ⟨hempty, hname, (Except.ok.inj h).symm⟩, fun h => h.2.2 ▸ rfl⟩
    · simp [hempty, hname]

theorem isName_of_parse {accounts : Accounts} {name spec : Value} {role : Role}
    (h : parse accounts name spec = .ok role) : isName role.name = true := by
  obtain ⟨text, parts, userId, groupId, hname, -, -, -, rfl⟩ := ofSpec_of_parse h
  obtain rfl := eq_of_checkName hname
  unfold checkName Value.str? Value.str at hname
  split at hname
  · cases hname
  · exact (checkNameText_eq_ok_iff.1 hname).2.1

end Role

namespace Rule

open Text (IsField)

/-! ### Names in lines -/

/-- The line is one rule, which gives the role to directories. -/
def Refers (registry : Registry) (line : Text) (role : Role) : Prop :=
  ∀ source, ∃ rule, RuleTable.load registry source [line] = .ok ⟨[rule]⟩ ∧
    rule.forDirectories = true ∧ rule.role = some role

/-- Only a role whose name is one word is ever given. -/
theorem isField_of_role {registry : Registry} {source : Text} {first : Nat} {lines : List Text}
    {rule : Rule} {role : Role} (h : rule ∈ (readFrom registry source first lines).rules)
    (hrole : rule.role = some role) : IsField role.name := by
  obtain ⟨_, text, line, -, -, hline, hread⟩ := line_of_mem_rules h
  obtain ⟨raw, -, -, htarget, -, -⟩ := describe_of_readLine hline hread
  unfold target at htarget
  rwa [hrole] at htarget

theorem isField_of_refers {registry : Registry} {line : Text} {role : Role}
    (h : Refers registry line role) : IsField role.name := by
  obtain ⟨rule, hload, -, hrole⟩ := h []
  have hrules : [rule] = (readFrom registry [] 1 [line]).rules := (RuleTable.load_eq_ok.1 hload).2
  exact isField_of_role (hrules ▸ List.mem_singleton_self rule) hrole

theorem readRole_of_plain {registry : Registry} {role : Role}
    (hget : registry.get? role.name = some role) (hplain : Role.isPlainName role.name = true) :
    readRole registry role.name true = .ok (some role) := by
  obtain ⟨hfield, hname⟩ := Role.isField_of_isPlainName hplain
  have hcheck : Role.checkNameText role.name = .ok role.name :=
    Role.checkNameText_eq_ok_iff.2 ⟨hfield.nonempty, Role.isName_iff.2 (Or.inl hplain), rfl⟩
  unfold readRole
  rw [if_neg hname, hcheck]
  dsimp only
  rw [hget]
  simp

/-- A pattern that makes a rule without a role makes the same rule with one. -/
theorem ofFields_of_readRole {registry : Registry} {lineNumber : Nat} {raw roleName : Text}
    {rule : Rule} {role : Option Role} (h : ofFields registry lineNumber raw noRole = .ok rule)
    (hrole : readRole registry roleName rule.forDirectories = .ok role) :
    ofFields registry lineNumber raw roleName = .ok { rule with role } := by
  obtain ⟨-, -, hmark, -⟩ := ofFields_ok h
  unfold ofFields at h ⊢
  split at h
  · cases h
  · dsimp only at h ⊢
    rw [← hmark, hrole]
    split at h
    · cases h
    · rw [hmark]
      split at h
      · cases h
      · cases h
        rfl

/-- The line is the rule of its two fields. -/
theorem load_written {registry : Registry} {raw roleName : Text} {rule : Rule} (hraw : IsField raw)
    (hhead : raw.head? ≠ some '#') (hrole : IsField roleName)
    (hrule : ofFields registry 1 raw roleName = .ok rule) (source : Text) :
    RuleTable.load registry source [raw ++ ' ' :: roleName] = .ok ⟨[rule]⟩ := by
  rw [RuleTable.load_eq_ok, readFrom_written hraw hrole hhead hrule]
  exact ⟨rfl, rfl⟩

/-- The pattern of the root directory makes a rule, whatever the registry. -/
theorem ofFields_root (registry : Registry) :
    ∃ rule, ofFields registry 1 ['/'] noRole = .ok rule ∧ rule.forDirectories = true := by
  have hmark : splitMark ['/'] = ([], true) := by decide
  have hm : ∃ m, Pattern.compile [] true = .ok m := ⟨_, rfl⟩
  obtain ⟨m, hm⟩ := hm
  exact ⟨_, ofFields_noRole rfl hmark hm registry 1, rfl⟩

/-- A declared role has a name or, because of how names are checked, a name with a line feed behind
it. In the first case every pattern for directories makes a rule that gives the role when the name
stands behind it; in the second no line gives the role, whatever it holds. So a line can refer to a
role just when its name is one. -/
theorem role_referable_iff {accounts : Accounts} {declarations : List (Value × Value)}
    {registry : Registry} (h : Registry.ofDeclarations accounts declarations = .ok registry)
    {role : Role} (hrole : role ∈ registry.roles) :
    (Role.isPlainName role.name = true ∨
      ∃ stem, Role.isPlainName stem = true ∧ role.name = stem ++ ['\n']) ∧
    ((∃ raw, raw.getLast? = some '/' ∧ Refers registry (raw ++ ' ' :: role.name) role) ↔
      Role.isPlainName role.name = true) ∧
    (Role.isPlainName role.name = true → ∀ raw, IsField raw → raw.head? ≠ some '#' → ∀ rule,
      ofFields registry 1 raw noRole = .ok rule → rule.forDirectories = true → ∀ source,
        RuleTable.load registry source [raw ++ ' ' :: role.name] =
          .ok ⟨[{ rule with role := some role }]⟩) ∧
    (Role.isPlainName role.name = false → ∀ source lines,
      ∀ rule ∈ (readLines registry source lines).rules, rule.role ≠ some role) := by
  obtain ⟨_, -, hparse⟩ := (Registry.registers_of_ofDeclarations h).exists_declaration hrole
  have hname := Role.isName_iff.1 (Role.isName_of_parse hparse)
  have hget : registry.get? role.name = some role :=
    (Registry.isBuilt_of_ofDeclarations h).get?_eq_some_iff.2 ⟨hrole, rfl⟩
  have hplain : Role.isPlainName role.name = true → ∀ raw, IsField raw → raw.head? ≠ some '#' →
      ∀ rule, ofFields registry 1 raw noRole = .ok rule → rule.forDirectories = true → ∀ source,
        RuleTable.load registry source [raw ++ ' ' :: role.name] =
          .ok ⟨[{ rule with role := some role }]⟩ := by
    intro hplain raw hraw hhead rule hrule hfor source
    refine load_written hraw hhead (Role.isField_of_isPlainName hplain).1 ?_ source
    exact ofFields_of_readRole hrule (hfor ▸ readRole_of_plain hget hplain)
  have hword : IsField role.name → Role.isPlainName role.name = true := by
    intro hfield
    rcases hname with hname | ⟨stem, -, hname⟩
    · exact hname
    · exact absurd (hfield.notBlank '\n' (by simp [hname])) (by decide)
  refine ⟨hname, ⟨?_, fun hname => ?_⟩, hplain, fun hunplain source lines rule hmem hgiven => ?_⟩
  · rintro ⟨raw, -, hrefers⟩
    exact hword (isField_of_refers hrefers)
  · obtain ⟨rule, hrule, hfor⟩ := ofFields_root registry
    have hroot : IsField ['/'] := ⟨by decide, List.forall_mem_singleton.2 (by decide)⟩
    exact ⟨['/'], rfl, fun source =>
      ⟨_, hplain hname ['/'] hroot (by decide) rule hrule hfor source,
      hfor, rfl⟩⟩
  · exact absurd (hword (isField_of_role hmem hgiven)) (Bool.eq_false_iff.1 hunplain)

/-- Names that differ in a line feed at the end, of two roles. -/
def nearlyAlike : List (Value × Value) :=
  [(.str "web", .str "u,644"), (.str "web\n", .str "u:g,755/")]

theorem role_referable_iff_nearlyAlike :
    ∃ registry web web',
      Registry.ofDeclarations (.ofLists [("u", 1)] [("u", 1), ("g", 2)]) nearlyAlike =
        .ok registry ∧ registry.roles = [web, web'] ∧ Role.isPlainName web.name = true ∧
      (∃ raw, raw.getLast? = some '/' ∧ Refers registry (raw ++ ' ' :: web.name) web) ∧
      web'.name = "web\n" ∧ ¬ ∃ raw, raw.getLast? = some '/' ∧
        Refers registry (raw ++ ' ' :: web'.name) web' := by
  have hregistry : ∃ registry web web', Registry.ofDeclarations
        (.ofLists [("u", 1)] [("u", 1), ("g", 2)]) nearlyAlike = .ok registry ∧
      registry.roles = [web, web'] ∧ web.name = "web" ∧ web'.name = "web\n" :=
    ⟨_, _, _, rfl, rfl, rfl, rfl⟩
  obtain ⟨registry, web, web', hok, hroles, hname, hname'⟩ := hregistry
  obtain ⟨-, hiff, -, -⟩ := @role_referable_iff _ _ _ hok web (by simp [hroles])
  obtain ⟨-, hiff', -, -⟩ := @role_referable_iff _ _ _ hok web' (by simp [hroles])
  have hplain : Role.isPlainName web.name = true := by
    rw [hname]
    decide
  refine ⟨registry, web, web', hok, hroles, hplain, hiff.2 hplain, hname', fun hrefers => ?_⟩
  have hplain' := hiff'.1 hrefers
  rw [hname'] at hplain'
  exact absurd hplain' (by decide)

/-- A name with a line feed behind it is accepted and declares a role, and no line refers to this
role. -/
theorem role_out_of_reach :
    ∃ registry role, Registry.ofDeclarations (.ofLists [("u", 1)] [("u", 1)])
        [(.str "web\n", .str "u,644")] = .ok registry ∧
      Role.parse (.ofLists [("u", 1)] [("u", 1)]) (.str "web\n") (.str "u,644") = .ok role ∧
      registry.roles = [role] ∧ registry.get? "web\n" = some role ∧
      ∀ raw, ¬ Refers registry (raw ++ ' ' :: role.name) role := by
  refine ⟨_, _, rfl, rfl, rfl, rfl, fun raw hrefers => ?_⟩
  exact absurd ((isField_of_refers hrefers).notBlank '\n' (by decide)) (by decide)

end Rule

end PathRights
