import PathRights.Proofs.Role.Form
import PathRights.Proofs.Role.Mode

/-! The canonical specification of a role: both names, and every mode in four octal digits. It is
read as the role that it is written from, so a group and a mode for directories that were left out
may be written down. -/

namespace PathRights

namespace Text

/-! ### Numerals -/

theorem digitValue_digit {n : Nat} (h : n < 16) : digitValue (digit n) = n := by
  revert n
  decide

theorem valueIn_numeral {base : Nat} (hlow : 2 ≤ base) (hhigh : base ≤ 16) (n : Nat) :
    valueIn base (numeral base n) = n := by
  fun_induction numeral base n with
  | case1 n h =>
    have hn : n < 16 := by omega
    simp [valueIn, digitValue_digit hn]
  | case2 n h ih =>
    have hlast : n % base < 16 := Nat.lt_of_lt_of_le (Nat.mod_lt n (by omega)) hhigh
    rw [valueIn_append_singleton, ih, digitValue_digit hlast, Nat.div_add_mod']

theorem length_numeral_le {base n width : Nat} (hwidth : 0 < width) (h : n < base ^ width) :
    (numeral base n).length ≤ width := by
  fun_induction numeral base n generalizing width with
  | case1 n _ => exact hwidth
  | case2 n hn ih =>
    obtain ⟨width, rfl⟩ : ∃ more, width = more + 1 := ⟨width - 1, by omega⟩
    have hmore : 0 < width := by
      rcases Nat.eq_zero_or_pos width with rfl | hpos
      · rw [Nat.pow_one] at h
        omega
      · exact hpos
    have hdiv : n / base < base ^ width :=
      Nat.div_lt_of_lt_mul (by rwa [Nat.pow_succ, Nat.mul_comm] at h)
    have hlength := ih hmore hdiv
    rw [List.length_append, List.length_singleton]
    omega

theorem mem_numeral {base n : Nat} (hbase : 2 ≤ base) :
    ∀ c ∈ numeral base n, ∃ k < base, c = digit k := by
  fun_induction numeral base n with
  | case1 n h =>
    exact List.forall_mem_singleton.2 ⟨n, h.resolve_right (by omega), rfl⟩
  | case2 n h ih =>
    exact List.forall_mem_append.2
      ⟨ih, List.forall_mem_singleton.2 ⟨n % base, Nat.mod_lt n (by omega), rfl⟩⟩

theorem mem_numeral_octal {n : Nat} : ∀ c ∈ numeral 8 n, c ∈ "01234567".toList := by
  have hdigit : ∀ k < 8, digit k ∈ "01234567".toList := by decide
  intro c hc
  obtain ⟨k, hk, rfl⟩ := mem_numeral (by decide) c hc
  exact hdigit k hk

/-! ### Modes -/

theorem valueIn_ofMode (mode : Nat) : valueIn 8 (ofMode mode) = mode := by
  show valueIn 8 (padZeros 4 (numeral 8 mode)) = mode
  rw [valueIn_padZeros, valueIn_numeral (by decide) (by decide)]

theorem length_ofMode {mode : Nat} (h : mode ≤ Role.largestMode) : (ofMode mode).length = 4 := by
  have hle : (numeral 8 mode).length ≤ 4 :=
    length_numeral_le (by decide) (Nat.lt_of_le_of_lt h (by decide))
  show (List.replicate (4 - (numeral 8 mode).length) '0' ++ numeral 8 mode).length = 4
  rw [List.length_append, List.length_replicate]
  omega

theorem mem_ofMode (mode : Nat) : ∀ c ∈ ofMode mode, c ∈ "01234567".toList := by
  have hzeros : ∀ c ∈ List.replicate (4 - (numeral 8 mode).length) '0', c ∈ "01234567".toList := by
    intro c hc
    rw [List.eq_of_mem_replicate hc]
    decide
  exact List.forall_mem_append.2 ⟨hzeros, mem_numeral_octal⟩

end Text

namespace Role

theorem isModeWord_ofMode {mode : Nat} (h : mode ≤ largestMode) : IsModeWord (Text.ofMode mode) :=
  ⟨Or.inr (Text.length_ofMode h), Text.mem_ofMode mode⟩

/-! ### The canonical specification -/

/-- The role as a specification, with nothing left out that it has. -/
def specification (role : Role) : Text :=
  role.user ++ ":" ++ role.group ++ "," ++ Text.ofMode role.directoryMode ++ "/" ++
    (match role.fileMode with
     | some mode => Text.ofMode mode
     | none => [])

def form (role : Role) : SpecForm where
  user := role.user
  group := some role.group
  modes :=
    match role.fileMode with
    | some mode => .pair (Text.ofMode role.directoryMode) (Text.ofMode mode)
    | none => .directoryOnly (Text.ofMode role.directoryMode)

theorem text_form (role : Role) : role.form.text = role.specification := by
  unfold form specification SpecForm.text SpecForm.owner
  cases role.fileMode <;> simp [ModesForm.text]

theorem ofSpec_form (role : Role) :
    ofSpec role.name role.form.spec role.userId role.group role.groupId = role := by
  obtain ⟨name, user, userId, group, groupId, directoryMode, fileMode⟩ := role
  cases fileMode <;>
    simp [ofSpec, form, SpecForm.spec, ModesForm.directoryMode, ModesForm.fileMode,
      Text.valueIn_ofMode]

theorem isAccountName_of_parse {accounts : Accounts} {name spec : Value} {role : Role}
    (h : parse accounts name spec = .ok role) : IsAccountName role.user ∧
    IsAccountName role.group := by
  obtain ⟨_, parts, _, _, -, hspec, -, -, rfl⟩ := ofSpec_of_parse h
  obtain ⟨text, -, htext⟩ := ofValue_eq_ok_iff.1 hspec
  obtain ⟨form, hlegal, -, rfl⟩ := ofText_eq_ok_iff.1 htext
  refine ⟨hlegal.user, ?_⟩
  show IsAccountName (form.group.getD form.user)
  cases hgroup : form.group with
  | none => exact hlegal.user
  | some group => exact hlegal.group group hgroup

theorem isLegal_form {accounts : Accounts} {name spec : Value} {role : Role}
    (h : parse accounts name spec = .ok role) : role.form.IsLegal := by
  obtain ⟨huser, hgroup⟩ := isAccountName_of_parse h
  have hdirectory : IsModeWord (Text.ofMode role.directoryMode) :=
    isModeWord_ofMode (@modeFor_le_of_parse _ _ _ _ h true _ rfl)
  refine ⟨huser, fun group heq => Option.some.inj heq ▸ hgroup, ?_⟩
  unfold form
  cases hfile : role.fileMode with
  | none => exact hdirectory
  | some mode =>
    exact ⟨hdirectory, isModeWord_ofMode (@modeFor_le_of_parse _ _ _ _ h false _ hfile)⟩

/-- A role that is read is read again from its canonical specification, under the same name and from
the same accounts. The modes in it are four octal digits each. -/
theorem parse_specification {accounts : Accounts} {name spec : Value} {role : Role}
    (h : parse accounts name spec = .ok role) :
    parse accounts name (.str role.specification) = .ok role ∧
      ∀ isDirectory mode, role.modeFor isDirectory = some mode →
        (Text.ofMode mode).length = 4 ∧ ∀ c ∈ Text.ofMode mode, c ∈ "01234567".toList := by
  have hspec : Spec.ofValue (.str role.specification) = .ok role.form.spec := by
    refine ofText_eq_ok_iff.2 ⟨role.form, isLegal_form h, ?_, rfl⟩
    rw [text_form]
    exact ⟨[], [], by simp, by simp, by simp⟩
  refine ⟨?_, fun isDirectory mode hmode =>
    ⟨Text.length_ofMode (modeFor_le_of_parse h hmode), Text.mem_ofMode mode⟩⟩
  obtain ⟨_, parts, userId, groupId, hname, -, huser, hgroup, hrole⟩ := ofSpec_of_parse h
  have hsame := ofSpec_form role
  subst hrole
  rw [parse_of_spec hname hspec huser hgroup]
  exact congrArg Except.ok hsame

/-- Neither the group nor the mode for directories is written here. -/
theorem parse_specification_defaults :
    let accounts : Accounts := .ofLists [("u", 1)] [("u", 2)]
    let role : Role := ⟨"web", "u", 1, "u", 2, 0o755, some 0o644⟩
    parse accounts (.str "web") (.str " u,644") = .ok role ∧
      parse accounts (.str "web") (.str "u:u,0755/0644") = .ok role ∧
      (Text.ofMode 0o644).length = 4 := by
  intro accounts role
  have hparse : parse accounts (.str "web") (.str " u,644") = .ok role := rfl
  obtain ⟨hagain, hmodes⟩ := parse_specification hparse
  have hwritten : role.specification = "u:u,0755/0644" := by decide +kernel
  rw [hwritten] at hagain
  exact ⟨hparse, hagain, (hmodes false 0o644 rfl).1⟩

end Role

end PathRights
