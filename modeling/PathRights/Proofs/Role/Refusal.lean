import PathRights.Proofs.Role.Canonical
import PathRights.Proofs.Rule.Written
import PathRights.Proofs.Value.Attempt
import PathRights.Proofs.Value.Shown
import PathRights.Role.Name

/-! What the checks of names, specifications and modes do with values of any type. Each check is
written out as the operations that it carries out, in their order, and agrees with the check that
runs. The checks of names and specifications look at the type of a value before they use it. A mode
is looked at as text, which is right for all values but one kind: a number may read like a mode, and
then it is used as the text that it is not. -/

namespace PathRights.Role

open Attempt (IsAnswered refuse refuseIf refuseIf_true_bind refuseIf_false_bind ok_bind)

/-- The check of the name of a role, step by step. -/
def attemptName (name : Value) : Attempt Unit := do
  refuseIf name.isEmpty (.ok "Role name cannot be empty")
  refuseIf (!name.isText) (.ok ("Role name must be string, got " ++ name.typeText))
  let text ← name.asText
  refuseIf (!isName text) do
    return "Invalid role name: " ++ (← name.shownInside) ++
      ": must start with a lowercase letter or underscore " ++
      "and contain only lowercase letters, digits, underscore, and hyphen"

/-- The check of a specification, step by step. -/
def attemptSpec (spec : Value) : Attempt Spec := do
  refuseIf (!spec.isText) (.ok ("Role spec must be string, got " ++ spec.typeText))
  let text ← spec.asText
  match Spec.parse? text.trim with
  | none =>
    refuse do
      return "Invalid role spec: " ++ (← spec.shownInside) ++
        ". Expected user[:group],[dirmode][/filemode]"
  | some parts =>
    refuseIf (parts.fileMode.isNone && parts.directoryMode.isNone) do
      return "Role spec needs at least one mode: " ++ (← spec.shownInside)
    return parts

theorem attemptName_eq (name : Value) :
    attemptName name = ((checkName name).map fun _ => ()).mapError (.refused ·.message) := by
  unfold attemptName checkName
  cases hempty : name.isEmpty with
  | true => exact refuseIf_true_bind _ _
  | false =>
    rw [refuseIf_false_bind]
    rcases name.text_cases with ⟨hother, hnone⟩ | ⟨text, rfl⟩
    · rw [hother, hnone]
      exact refuseIf_true_bind _ _
    · have hcheck : checkNameText text = if isName text then .ok text
          else .error (.malformed text) := by
        unfold checkNameText
        exact if_neg (Bool.eq_false_iff.1 hempty)
      show (refuseIf (!isName text) _ : Attempt Unit) = ((checkNameText text).map _).mapError _
      rw [hcheck]
      cases isName text <;> rfl

theorem attemptSpec_eq (spec : Value) :
    attemptSpec spec = (Spec.ofValue spec).mapError (.refused ·.message) := by
  unfold attemptSpec
  rcases spec.text_cases with ⟨hother, hnone⟩ | ⟨text, rfl⟩
  · unfold Spec.ofValue
    rw [hother, hnone]
    exact refuseIf_true_bind _ _
  · show _ = (Spec.ofText text).mapError _
    unfold Spec.ofText
    show (match Spec.parse? text.trim with | none => _ | some parts => _) = _
    cases Spec.parse? text.trim with
    | none => rfl
    | some parts =>
      obtain ⟨user, group, directoryMode, fileMode⟩ := parts
      cases directoryMode <;> cases fileMode <;> rfl

/-! ### Modes -/

/-- The reading of a mode, step by step. -/
def attemptMode (mode : Value) : Attempt Int := do
  let text ← mode.shown
  refuseIf (!(isMode text || isMode text.dropFinalNewline)) do
    return "Invalid permission mode (must be 3-4 octal digits): " ++ (← mode.shown)
  mode.readIn 8

/-- The digits of a mode are read as they are: they are no signs, no margins and no marks of a
base. -/
theorem IsModeWord.read {digits : Text} (h : IsModeWord digits) : ∀ c ∈ digits,
    Yaml.commonDigit c = c ∧ Yaml.isMargin c = false ∧ Yaml.isDigitIn 8 c = true ∧
      c ∉ "+-".toList ∧ c ∉ Yaml.baseMarks 8 := by
  have hall : "01234567".toList.all (fun c => Yaml.commonDigit c == c && !Yaml.isMargin c &&
      Yaml.isDigitIn 8 c && !"+-".toList.contains c && !(Yaml.baseMarks 8).contains c) = true := by
    decide +kernel
  intro c hc
  simpa [and_assoc] using List.all_eq_true.1 hall c (h.digits c hc)

theorem openLoose_mode {digits margin : Text} (h : IsModeWord digits)
    (hmargin : ∀ c ∈ margin, c = '\n') : Yaml.openLoose (digits ++ margin) = (false, digits) := by
  have hlineFeed : Yaml.commonDigit '\n' = '\n' ∧ Yaml.isMargin '\n' = true := by decide +kernel
  have hcommon : (digits ++ margin).map Yaml.commonDigit = digits ++ margin := by
    refine (List.map_congr_left fun c hc => ?_).trans (List.map_id _)
    rcases List.mem_append.1 hc with hc | hc
    · exact (h.read c hc).1
    · exact hmargin c hc ▸ hlineFeed.1
  have hstrip : Yaml.dropMargins (digits ++ margin) = digits :=
    @Text.rdropWhile_dropWhile _ [] digits margin (List.forall_mem_nil _)
      (fun c hc => hmargin c hc ▸ hlineFeed.2) fun c hc => (h.read c hc).2.1
  unfold Yaml.openLoose
  rw [hcommon, hstrip]
  obtain ⟨c, rest, rfl⟩ := List.exists_cons_of_ne_nil h.nonempty
  obtain ⟨-, -, -, hsign, -⟩ := h.read c List.mem_cons_self
  unfold Yaml.takeSign
  split
  · next heq =>
    cases heq
    exact absurd (by decide) hsign
  · next heq =>
    cases heq
    exact absurd (by decide) hsign
  · rfl

theorem dropBaseMark_mode {digits : Text} (h : IsModeWord digits) :
    Yaml.dropBaseMark 8 digits = digits := by
  unfold Yaml.dropBaseMark
  split
  · next mark rest =>
    obtain ⟨-, -, -, -, hmark⟩ := h.read mark (by simp)
    exact if_neg fun hmem => hmark (List.contains_iff_mem.1 hmem)
  · rfl

/-- The digits of a mode are read as a number, with a line feed behind them or without. -/
theorem looseInteger_mode {digits margin : Text} (h : IsModeWord digits)
    (hmargin : ∀ c ∈ margin, c = '\n') :
    Yaml.looseInteger 8 (digits ++ margin) = .ok (Text.valueIn 8 digits) := by
  have hall : digits.takeWhile (Yaml.isDigitIn 8) = digits :=
    List.takeWhile_eq_self_iff.2 fun c hc => (h.read c hc).2.2.1
  unfold Yaml.looseInteger
  rw [openLoose_mode h hmargin]
  dsimp only
  rw [dropBaseMark_mode h, hall, if_neg (by simp), if_neg (by simpa using h.nonempty)]
  rfl

/-- A text that is taken for a mode is the digits of one, and perhaps a line feed. -/
theorem isModeWord_dropFinalNewline {text : Text}
    (h : isMode text = true ∨ isMode text.dropFinalNewline = true) :
    IsModeWord text.dropFinalNewline ∧
      ∃ margin, (∀ c ∈ margin, c = '\n') ∧ text = text.dropFinalNewline ++ margin := by
  rcases (@Text.or_dropFinalNewline_iff (isMode · = true) text).1 h with hmode | ⟨stem, hmode, rfl⟩
  · have hword := isMode_iff.1 hmode
    rw [Pattern.dropFinalNewline_of_not_blank fun c hc => hword.isBlank hc]
    exact ⟨hword, [], List.forall_mem_nil _, (List.append_nil text).symm⟩
  · rw [Text.dropFinalNewline, Text.dropEnd?_append]
    exact ⟨isMode_iff.1 hmode, ['\n'], List.forall_mem_singleton.2 rfl, rfl⟩

/-- The character can stand in a text that is taken for a mode. -/
def isModeChar (c : Char) : Bool := Text.isOctalDigit c || c == '\n'

theorem all_isModeChar {text : Text}
    (h : isMode text = true ∨ isMode text.dropFinalNewline = true) :
    text.all isModeChar = true := by
  obtain ⟨hword, margin, hmargin, htext⟩ := isModeWord_dropFinalNewline h
  rw [htext, List.all_append, Bool.and_eq_true, List.all_eq_true, List.all_eq_true]
  refine ⟨fun c hc => ?_, fun c hc => ?_⟩
  · exact Bool.or_eq_true_iff.2 (Or.inl (Text.isOctalDigit_iff.2 (hword.digits c hc)))
  · exact hmargin c hc ▸ rfl

/-- Only texts and numbers read like a mode, and the digits of such a number are one. -/
theorem mode_cases {value : Value}
    (h : isMode value.text = true ∨ isMode value.text.dropFinalNewline = true) :
    (∃ text, value = .str text) ∨ ∃ n : Nat, value = .int n ∧ isMode (Text.ofNat n) = true := by
  have hall := all_isModeChar h
  have hnot : ∀ c ∈ value.text, isModeChar c ≠ false := fun c hc =>
    ne_false_of_eq_true (List.all_eq_true.1 hall c hc)
  rcases value.shown_cases with htext | ⟨n, rfl⟩ | hword | ⟨c, hmark, hmem⟩
  · exact Or.inl htext
  · cases n with
    | ofNat n =>
      have hblank : ∀ c ∈ Text.ofNat n, Text.isBlank c = false := by
        intro c hc
        obtain ⟨k, hk, rfl⟩ := Text.mem_numeral (by decide) c hc
        have hdigits : ∀ k < 10, Text.isBlank (Text.digit k) = false := by decide
        exact hdigits k hk
      have htext : (Value.int (.ofNat n)).text = Text.ofNat n := rfl
      rw [htext, Pattern.dropFinalNewline_of_not_blank hblank, or_self] at h
      exact Or.inr ⟨n, rfl, h⟩
    | negSucc n => exact absurd rfl (hnot '-' List.mem_cons_self)
  · have hwords : ∀ text ∈ Value.words,
        ¬ (isMode text = true ∨ isMode text.dropFinalNewline = true) := by decide
    exact absurd h (hwords value.text hword)
  · have hmarks : (".-+".toList ++ Foreign.marks).all (fun c => !isModeChar c) = true := by decide
    exact absurd (by simpa using List.all_eq_true.1 hmarks c hmark) (hnot c hmem)

theorem lt_pow_of_length_le {n limit : Nat} (h : (Text.ofNat n).length ≤ limit) :
    n < Nat.pow 10 limit := by
  have hdigit : ∀ c ∈ Text.ofNat n, Text.digitValue c < 10 := by
    intro c hc
    obtain ⟨k, hk, rfl⟩ := Text.mem_numeral (by decide) c hc
    rwa [Text.digitValue_digit (by omega)]
  calc n = Text.valueIn 10 (Text.ofNat n) := (Text.valueIn_numeral (by decide) (by decide) n).symm
    _ < 10 ^ (Text.ofNat n).length := Text.valueIn_lt hdigit
    _ ≤ 10 ^ limit := Nat.pow_le_pow_right (by decide) h

/-- The digits of a mode are few enough to be shown. -/
theorem isShowable_of_isMode {n : Nat} (h : isMode (Text.ofNat n) = true) :
    (Value.int n).isShowable = true := by
  have hlength : (Text.ofNat n).length ≤ Text.digitLimit := by
    rcases (isMode_iff.1 h).length with h | h <;> rw [h] <;> decide
  exact Value.isShowable_natCast.2 (lt_pow_of_length_le hlength)

/-- How an error of a mode shows where values are used. -/
def ModeError.trouble (mode : Value) : ModeError → Trouble
  | .malformed value => .refused (ModeError.malformed value).message
  | .notText => .misused mode
  | .overlong => .overlong

theorem attemptMode_eq (mode : Value) :
    attemptMode mode = ((parseMode mode).map Int.ofNat).mapError (ModeError.trouble mode) := by
  unfold attemptMode parseMode Value.shown
  cases hshow : mode.isShowable with
  | false => rfl
  | true =>
    rw [if_pos rfl, ok_bind]
    by_cases hmode : isMode mode.text = true ∨ isMode mode.text.dropFinalNewline = true
    · have hcond : (isMode mode.text || isMode mode.text.dropFinalNewline) = true :=
        Bool.or_eq_true_iff.2 hmode
      rw [hcond, if_neg (by decide), if_pos hmode]
      show mode.readIn 8 = _
      rcases mode.text_cases with ⟨-, hnone⟩ | ⟨text, rfl⟩
      · unfold Value.readIn Value.asText
        rw [hnone]
        rfl
      · obtain ⟨hword, margin, hmargin, htext⟩ := isModeWord_dropFinalNewline hmode
        exact Value.readIn_str ((congrArg _ htext).trans (looseInteger_mode hword hmargin))
    · have hcond : (isMode mode.text || isMode mode.text.dropFinalNewline) = false :=
        Bool.eq_false_iff.2 fun h => hmode (Bool.or_eq_true_iff.1 h)
      rw [hcond, if_neg (by decide), if_neg hmode]
      rfl

/-- The value is a number that reads like a mode. -/
def IsModeNumber (value : Value) : Prop := ∃ n : Nat, value = .int n ∧ isMode (Text.ofNat n) = true

theorem attemptMode_cases (mode : Value) :
    (mode.isShowable = false ∧ attemptMode mode = .error .overlong) ∨
      (mode.isShowable = true ∧ IsModeNumber mode ∧ attemptMode mode = .error (.misused mode)) ∨
      (mode.isShowable = true ∧ ¬ IsModeNumber mode ∧ IsAnswered (attemptMode mode)) := by
  rw [attemptMode_eq]
  unfold parseMode
  cases hshow : mode.isShowable with
  | false => exact Or.inl ⟨rfl, rfl⟩
  | true =>
    refine Or.inr ?_
    rw [if_neg (by decide)]
    by_cases hmode : isMode mode.text = true ∨ isMode mode.text.dropFinalNewline = true
    · rw [if_pos hmode]
      rcases mode_cases hmode with ⟨text, rfl⟩ | ⟨n, rfl, hdigits⟩
      · exact Or.inr ⟨rfl, fun ⟨_, h, _⟩ => (by cases h), Or.inl ⟨_, rfl⟩⟩
      · exact Or.inl ⟨rfl, ⟨n, rfl, hdigits⟩, rfl⟩
    · rw [if_neg hmode]
      refine Or.inr ⟨rfl, ?_, Or.inr ⟨_, rfl⟩⟩
      rintro ⟨n, rfl, hdigits⟩
      exact hmode (Or.inl hdigits)

/-- How the reading of a mode ends: with an answer, but for numbers that read like a mode and for
what cannot be shown. -/
theorem attemptMode_ends (mode : Value) :
    (IsAnswered (attemptMode mode) ↔ mode.isShowable = true ∧ ¬ IsModeNumber mode) ∧
      (attemptMode mode = .error (.misused mode) ↔ IsModeNumber mode) ∧
      (attemptMode mode = .error .overlong ↔ mode.isShowable = false) := by
  have hnumber : IsModeNumber mode → mode.isShowable = true := by
    rintro ⟨n, rfl, hdigits⟩
    exact isShowable_of_isMode hdigits
  unfold IsAnswered
  rcases attemptMode_cases mode with ⟨hshow, hends⟩ | ⟨hshow, hmode, hends⟩ | ⟨hshow, hmode, hends⟩
  · rw [hends]
    simp_all
  · rw [hends]
    simp_all
  · rcases hends with ⟨result, hends⟩ | ⟨message, hends⟩ <;> rw [hends] <;> simp_all

end PathRights.Role
