import PathRights.Config.Check
import PathRights.Pattern.Grammar
import PathRights.Proofs.Role.Declaration
import PathRights.Proofs.Role.Refusal
import PathRights.Proofs.Run.JournalLevel

/-! What all checks do with values of any type, wherever they stand in a configuration. The checks
of patterns and of configurations are written out as the operations that they carry out, in their
order, and agree with the checks that run. No value of a wrong type is used in them; what may fail
is the telling of what is wrong, if a number is too long for it. `checks_answer_iff` says of every
check when it gives an answer. -/

namespace PathRights

open Attempt
  (IsAnswered refuse refuseIf refuseIf_true_bind refuseIf_false_bind ok_bind mapError_bind)

namespace Pattern

/-- The check of a pattern, step by step. -/
def attempt (pattern : Value) : Attempt Unit := do
  refuseIf pattern.isEmpty (.ok "Pattern cannot be empty")
  refuseIf (!pattern.isText) (.ok ("Pattern must be string, got " ++ pattern.typeText))
  let text ← pattern.asText
  refuseIf (text.contains '\x00') (.ok "Invalid pattern: contains null bytes")
  refuseIf (!(isGrammatical text || isGrammatical text.dropFinalNewline)) do
    return "Invalid pattern syntax: " ++ (← pattern.shown)

theorem attempt_eq (pattern : Value) :
    attempt pattern = ((check pattern).map fun _ => ()).mapError (.refused ·.message) := by
  unfold attempt check
  cases hempty : pattern.isEmpty with
  | true => exact refuseIf_true_bind _ _
  | false =>
    rw [refuseIf_false_bind]
    rcases pattern.text_cases with ⟨hother, hnone⟩ | ⟨text, rfl⟩
    · rw [hother, hnone]
      exact refuseIf_true_bind _ _
    · have hnonempty : text.isEmpty = false := hempty
      show (refuseIf (text.contains '\x00') _ >>= fun _ => _ : Attempt Unit) =
        ((checkText text).map _).mapError _
      unfold checkText
      rw [hnonempty]
      cases text.contains '\x00' with
      | true => exact refuseIf_true_bind _ _
      | false =>
        rw [refuseIf_false_bind]
        cases isGrammatical text <;> cases isGrammatical text.dropFinalNewline <;> rfl

end Pattern

namespace Config

/-! ### The steps -/

/-- The check of one role, step by step. -/
def attemptRole (name : Scalar) (spec : Value) : Attempt Unit := do
  Role.attemptName (.scalar name)
  refuseIf (!spec.isText) do
    return "Spec for role " ++ (← (Value.scalar name).shownInside) ++ " must be string, got " ++
      spec.typeText

/-- The check of the roles, step by step. -/
def attemptRoles (section_ : Value) : Attempt Unit := do
  let roles := ((← section_.lookUp "roles").getD .null).orEmpty
  refuseIf (!roles.isMapping) (.ok "Roles must be a mapping of role name to spec")
  (← roles.asMapping).forM fun (name, spec) => attemptRole name spec

/-- The check of the file that rules are read from, step by step. -/
def attemptRulesFile (section_ : Value) : Attempt Unit := do
  let file := (← section_.lookUp "rules_file").getD .null
  refuseIf (!file.isNull && !file.isText) do return "Rules file must be string: " ++ (← file.shown)

/-- The check of a part that is true or false, step by step. -/
def attemptFlag (section_ : Value) (flag : Text) : Attempt Unit := do
  if ← section_.holds flag then
    refuseIf (!(← section_.member flag).isBool) do
      return "'" ++ flag ++ "' must be boolean: " ++ (← (← section_.member flag).shown)

/-- The check of a level, step by step. -/
def attemptLevel (level : Value) : Attempt Unit := do
  if !level.isNull then
    refuseIf (Log.Level.ofName? (← level.shown).upper).isNone do
      return "Invalid log level: " ++ (← level.shown) ++ ". Must be one of " ++ levelNames.text

/-- The check of what is set for the log, step by step. -/
def attemptLogging (section_ : Value) : Attempt Unit := do
  let logging := ((← section_.lookUp "logging").getD .null).orEmpty
  refuseIf (!logging.isMapping) (.ok "Logging configuration must be a dictionary")
  attemptLevel ((← logging.lookUp "level").getD .null)

/-- The check of a configuration, step by step. -/
def attempt (config : Value) : Attempt Unit := do
  refuseIf (!config.isMapping) (.ok "Configuration must be a dictionary")
  let section_ := (← config.lookUp sectionKey).getD (.map [])
  refuseIf (!section_.isMapping) (.ok ("'" ++ sectionKey ++ "' section must be a dictionary"))
  attemptRoles section_
  attemptRulesFile section_
  attemptFlag section_ "dry_run"
  attemptFlag section_ "verbose"
  attemptLogging section_

/-! ### The check that runs -/

/-- How an error of the form shows where values are used. -/
def FormError.trouble (error : FormError) : Trouble :=
  if error.isForeseen then .refused error.message else .overlong

/-- A refusal that shows a value, as an error of the form. -/
theorem refuseIf_shown {value : Value} {error : FormError} (fine : Bool) (tell : Text → Text)
    (hforeseen : error.isForeseen = true) (hmessage : error.message = tell value.text) :
    refuseIf (!fine) (do return tell (← value.shown)) =
      Except.mapError FormError.trouble
        (if fine then .ok () else .error (.showing value error)) := by
  unfold Value.shown FormError.showing
  cases fine with
  | true => rfl
  | false =>
    cases value.isShowable with
    | true =>
      show Except.error (Trouble.refused (tell value.text)) = .error (FormError.trouble error)
      unfold FormError.trouble
      rw [hforeseen, ← hmessage]
      rfl
    | false => rfl

theorem entries?_part (section_ : Mapping) (key : Text) :
    part? section_ key = ((section_.getText? key).getD .null).orEmpty.entries? := by
  unfold part?
  cases section_.getText? key with
  | none => rfl
  | some value =>
    show (if value.isEmpty = true then some [] else value.entries?) = value.orEmpty.entries?
    unfold Value.orEmpty
    cases value.isEmpty <;> rfl

theorem forM_attemptRole (roles : Mapping) :
    roles.forM (fun (name, spec) => attemptRole name spec) =
      (checkRoles roles).mapError FormError.trouble := by
  induction roles with
  | nil => rfl
  | cons entry rest ih =>
    obtain ⟨name, spec⟩ := entry
    show (attemptRole name spec >>= fun _ =>
      rest.forM fun (name, spec) => attemptRole name spec) = _
    unfold attemptRole checkRoles
    rw [Role.attemptName_eq]
    cases hname : Role.checkName (.scalar name) with
    | error error => rfl
    | ok text =>
      rw [Role.eq_of_checkName hname]
      rcases spec.text_cases with ⟨hother, hnone⟩ | ⟨spec, rfl⟩
      · rw [hother, hnone]
        rfl
      · exact ih

theorem attemptRoles_eq (section_ : Mapping) :
    attemptRoles (.map section_) = Except.mapError FormError.trouble
      (match part? section_ "roles" with
        | none => .error .rolesNotMapping
        | some roles => checkRoles roles) := by
  rw [entries?_part]
  show (refuseIf (!((section_.getText? "roles").getD .null).orEmpty.isMapping) _ >>= fun _ =>
    ((section_.getText? "roles").getD .null).orEmpty.asMapping >>= _) = _
  generalize ((section_.getText? "roles").getD .null).orEmpty = roles
  rcases roles.mapping_cases with ⟨hother, hnone⟩ | ⟨entries, rfl⟩
  · rw [hother, hnone]
    rfl
  · exact forM_attemptRole entries

theorem checkRulesFile_eq (section_ : Mapping) : checkRulesFile section_ =
    (let file := (section_.getText? "rules_file").getD .null
     if file.isNull || file.isText then .ok ()
     else .error (.showing file (.rulesFileNotText file))) := by
  unfold checkRulesFile
  cases section_.getText? "rules_file" with
  | none => rfl
  | some file =>
    cases file with
    | scalar s => cases s <;> rfl
    | list _ | map _ => rfl

theorem attemptRulesFile_eq (section_ : Mapping) :
    attemptRulesFile (.map section_) = (checkRulesFile section_).mapError FormError.trouble := by
  rw [checkRulesFile_eq]
  unfold attemptRulesFile
  rw [Value.lookUp_map, ok_bind]
  dsimp only
  rw [← Bool.not_or]
  exact refuseIf_shown _ _ rfl rfl

theorem attemptFlag_eq (section_ : Mapping) (flag : Text) :
    attemptFlag (.map section_) flag = (checkFlag section_ flag).mapError FormError.trouble := by
  unfold attemptFlag checkFlag
  rw [Value.holds_map, ok_bind]
  cases hvalue : section_.getText? flag with
  | none => rfl
  | some value =>
    rw [Option.isSome_some, if_pos rfl, Value.member_map section_ flag hvalue, ok_bind, ok_bind,
      @refuseIf_shown value (.flagNotBoolean flag value) _ _ rfl rfl]
    cases value with
    | scalar s => cases s <;> rfl
    | list _ | map _ => rfl

theorem attemptLevel_eq (level : Value) (h : level.isNull = false) : attemptLevel level =
    Except.mapError FormError.trouble
      (if isLevel level then .ok () else .error (.showing level (.badLevel level))) := by
  unfold attemptLevel
  rw [h, Bool.not_false, if_pos rfl]
  cases hshow : level.isShowable with
  | true =>
    have hshown : level.shown = .ok level.text := if_pos hshow
    rw [hshown, ok_bind, ← Option.not_isSome, ← hshown]
    exact refuseIf_shown (isLevel level) _ rfl rfl
  | false =>
    have hlevel : isLevel level = false := by
      refine Bool.eq_false_iff.2 fun h => ?_
      obtain ⟨text, rfl⟩ := str_of_isLevel h
      cases hshow
    have hshown : level.shown = .error .overlong := if_neg (Bool.eq_false_iff.1 hshow)
    have hoverlong : FormError.showing level (.badLevel level) = .overlong :=
      if_neg (Bool.eq_false_iff.1 hshow)
    rw [hshown, hlevel, hoverlong]
    rfl

theorem attemptLogging_eq (section_ : Mapping) :
    attemptLogging (.map section_) = (checkLogging section_).mapError FormError.trouble := by
  unfold attemptLogging checkLogging
  rw [entries?_part, Value.lookUp_map, ok_bind]
  dsimp only
  generalize ((section_.getText? "logging").getD .null).orEmpty = logging
  rcases logging.mapping_cases with ⟨hother, hnone⟩ | ⟨entries, rfl⟩
  · rw [hother, hnone]
    rfl
  · rw [Value.unlessMapping_map, Value.lookUp_map, ok_bind]
    dsimp only [Value.entries?]
    cases Mapping.getText? entries "level" with
    | none => rfl
    | some level =>
      rcases level.null_cases with hnull | rfl
      · refine (attemptLevel_eq level hnull).trans (congrArg _ ?_)
        cases level with
        | scalar s =>
          cases s with
          | null => cases hnull
          | bool | int | float | date | moment | str | foreign => rfl
        | list _ | map _ => rfl
      · rfl

theorem attempt_eq (config : Value) :
    attempt config = (check config).mapError FormError.trouble := by
  unfold attempt check
  rcases config.mapping_cases with ⟨hother, hnone⟩ | ⟨entries, rfl⟩
  · rw [hother, hnone]
    rfl
  · rw [Value.unlessMapping_map, Value.lookUp_map, ok_bind]
    dsimp only [Value.entries?]
    cases Mapping.getText? entries sectionKey with
    | none => rfl
    | some value =>
      dsimp only [Option.getD]
      rcases value.mapping_cases with ⟨hother, hnone⟩ | ⟨section_, rfl⟩
      · rw [hother]
        show _ = Except.mapError FormError.trouble
          (match value.entries? with | none => _ | some s => _)
        rw [hnone]
        rfl
      · rw [Value.unlessMapping_map, attemptRoles_eq, attemptRulesFile_eq, attemptFlag_eq,
          attemptFlag_eq, attemptLogging_eq]
        show _ = Except.mapError FormError.trouble (checkSection section_)
        unfold checkSection
        cases part? section_ "roles" with
        | none => rfl
        | some roles => simp only [mapError_bind]

/-! ### What cannot be told -/

/-- The value stands in a place of the section that a message may show: it is the file of rules, one
of the parts that are true or false, or the level. -/
def IsShownIn (section_ : Mapping) (value : Value) : Prop :=
  (∃ key ∈ ["rules_file".toList, "dry_run", "verbose"], section_.getText? key = some value) ∨
    ∃ logging, section_.getText? "logging" = some (.map logging) ∧
      Mapping.getText? logging "level" = some value

/-- The value stands in such a place of the section of a configuration. -/
def IsShownPart (config value : Value) : Prop :=
  ∃ entries section_, config = .map entries ∧
    Mapping.getText? entries sectionKey = some (.map section_) ∧ IsShownIn section_ value

theorem isShowable_of_showing {value : Value} {error : FormError}
    (hforeseen : error.isForeseen = true)
    (h : FormError.showing value error = .overlong) : value.isShowable = false := by
  unfold FormError.showing at h
  split at h
  · rw [h] at hforeseen
    cases hforeseen
  · next hshow => exact Bool.eq_false_iff.2 hshow

theorem overlong_of_seq {first rest : Except FormError Unit}
    (h : (first >>= fun _ => rest) = .error .overlong) :
    first = .error .overlong ∨ rest = .error .overlong := by
  cases first with
  | error error => exact Or.inl h
  | ok _ => exact Or.inr h

/-- No message on roles shows a value that is no text. -/
theorem checkRoles_ne_overlong (roles : Mapping) : checkRoles roles ≠ .error .overlong := by
  fun_induction checkRoles roles with
  | case1 => exact nofun
  | case2 => exact nofun
  | case3 => exact nofun
  | case4 _ _ _ _ _ _ _ ih => exact ih

theorem shown_of_checkFlag {section_ : Mapping} {flag : Text}
    (h : checkFlag section_ flag = .error .overlong) :
    ∃ value, section_.getText? flag = some value ∧ value.isShowable = false := by
  unfold checkFlag at h
  split at h
  · cases h
  · cases h
  · next value _ hvalue => exact ⟨value, hvalue, isShowable_of_showing rfl (Except.error.inj h)⟩

theorem shown_of_checkRulesFile {section_ : Mapping}
    (h : checkRulesFile section_ = .error .overlong) :
    ∃ value, section_.getText? "rules_file" = some value ∧ value.isShowable = false := by
  unfold checkRulesFile at h
  split at h
  · cases h
  · cases h
  · cases h
  · next value _ _ hvalue => exact ⟨value, hvalue, isShowable_of_showing rfl (Except.error.inj h)⟩

theorem getText?_of_part {section_ entries : Mapping} {key : Text}
    (h : part? section_ key = some entries) (hentries : entries ≠ []) :
    section_.getText? key = some (.map entries) := by
  unfold part? at h
  cases hvalue : section_.getText? key with
  | none =>
    rw [hvalue] at h
    exact absurd (Option.some.inj h).symm hentries
  | some value =>
    rw [hvalue] at h
    dsimp only at h
    split at h
    · exact absurd (Option.some.inj h).symm hentries
    · rcases value.mapping_cases with ⟨-, hnone⟩ | ⟨written, rfl⟩
      · cases hnone.symm.trans h
      · exact congrArg (fun entries => some (Value.map entries)) (Option.some.inj h)

theorem shown_of_checkLogging {section_ : Mapping} (h : checkLogging section_ = .error .overlong) :
    ∃ logging value, section_.getText? "logging" = some (.map logging) ∧
      Mapping.getText? logging "level" = some value ∧ value.isShowable = false := by
  unfold checkLogging at h
  split at h
  · cases h
  · next logging hpart =>
    split at h
    · cases h
    · cases h
    · next value _ hvalue =>
      have hentries : logging ≠ [] := by
        rintro rfl
        cases hvalue
      split at h
      · cases h
      · exact ⟨logging, value, getText?_of_part hpart hentries, hvalue,
          isShowable_of_showing rfl (Except.error.inj h)⟩

theorem shown_of_checkSection {section_ : Mapping} (h : checkSection section_ = .error .overlong) :
    ∃ value, IsShownIn section_ value ∧ value.isShowable = false := by
  have hshown : ∀ {key : Text}, key ∈ ["rules_file".toList, "dry_run", "verbose"] →
      (∃ value, section_.getText? key = some value ∧ value.isShowable = false) →
      ∃ value, IsShownIn section_ value ∧ value.isShowable = false :=
    fun hkey ⟨value, hvalue, hshow⟩ => ⟨value, Or.inl ⟨_, hkey, hvalue⟩, hshow⟩
  unfold checkSection at h
  split at h
  · cases h
  · next roles _ =>
    rcases overlong_of_seq h with hroles | h
    · exact absurd hroles (checkRoles_ne_overlong roles)
    rcases overlong_of_seq h with hrules | h
    · exact hshown (by simp) (shown_of_checkRulesFile hrules)
    rcases overlong_of_seq h with hdryRun | h
    · exact hshown (by simp) (shown_of_checkFlag hdryRun)
    rcases overlong_of_seq h with hverbose | h
    · exact hshown (by simp) (shown_of_checkFlag hverbose)
    obtain ⟨logging, value, hlogging, hlevel, hshow⟩ := shown_of_checkLogging h
    exact ⟨value, Or.inr ⟨logging, hlogging, hlevel⟩, hshow⟩

/-- Where the check cannot tell what is wrong, it is in a part that its message would show. -/
theorem shownPart_of_overlong {config : Value} (h : check config = .error .overlong) :
    ∃ value, IsShownPart config value ∧ value.isShowable = false := by
  unfold check at h
  rcases config.mapping_cases with ⟨-, hnone⟩ | ⟨entries, rfl⟩
  · rw [hnone] at h
    cases h
  · dsimp only [Value.entries?] at h
    split at h
    · cases h
    · next written hwritten =>
      rcases written.mapping_cases with ⟨-, hnone⟩ | ⟨section_, rfl⟩
      · change (match written.entries? with | none => _ | some section_ => _) = _ at h
        rw [hnone] at h
        cases h
      · obtain ⟨value, hvalue, hshow⟩ := shown_of_checkSection h
        exact ⟨value, ⟨entries, section_, rfl, hwritten, hvalue⟩, hshow⟩

theorem attempt_ends (config : Value) :
    (IsAnswered (attempt config) ↔ check config ≠ .error .overlong) ∧
      (IsAnswered (attempt config) ∨ attempt config = .error .overlong ∧
        ∃ value, IsShownPart config value ∧ value.isShowable = false) := by
  rw [attempt_eq]
  unfold IsAnswered
  cases hcheck : check config with
  | ok _ => exact ⟨⟨fun _ => nofun, fun _ => Or.inl ⟨(), rfl⟩⟩, Or.inl (Or.inl ⟨(), rfl⟩)⟩
  | error error =>
    by_cases hforeseen : error.isForeseen = true
    · have hrefused : error.trouble = .refused error.message := if_pos hforeseen
      have hanswered : ∃ message, Except.mapError FormError.trouble (.error error : Except _ Unit) =
          .error (.refused message) := ⟨_, congrArg _ hrefused⟩
      refine ⟨⟨fun _ h => ?_, fun _ => Or.inr hanswered⟩, Or.inl (Or.inr hanswered)⟩
      cases h
      cases hforeseen
    · obtain rfl : error = .overlong := by
        cases error with
        | overlong => rfl
        | _ => exact absurd rfl hforeseen
      refine ⟨⟨?_, fun h => absurd rfl h⟩, Or.inr ⟨rfl, shownPart_of_overlong hcheck⟩⟩
      rintro (⟨_, h⟩ | ⟨_, h⟩) <;> cases h

end Config

/-- What the checks do with a value of any type. Each is written out in its operations and agrees
with the check that runs. The checks of a name, of a specification and of a pattern always answer:
they give their result or refuse the value. So does the reading of a mode, but for two kinds of
values: a number that reads like a mode is used as the text that it is not, and what holds a number
with too many digits cannot be shown. And so does the check of a configuration, unless a part that
its message would show cannot be shown. -/
theorem checks_answer_iff (value : Value) :
    (IsAnswered (Role.attemptName value) ∧ Role.attemptName value =
      ((Role.checkName value).map fun _ => ()).mapError (.refused ·.message)) ∧
    (IsAnswered (Role.attemptSpec value) ∧ Role.attemptSpec value =
      (Role.Spec.ofValue value).mapError (.refused ·.message)) ∧
    (IsAnswered (Pattern.attempt value) ∧ Pattern.attempt value =
      ((Pattern.check value).map fun _ => ()).mapError (.refused ·.message)) ∧
    (Role.attemptMode value =
        ((Role.parseMode value).map Int.ofNat).mapError (Role.ModeError.trouble value) ∧
      (IsAnswered (Role.attemptMode value) ↔ value.isShowable = true ∧ ¬ Role.IsModeNumber value) ∧
      (Role.attemptMode value = .error (.misused value) ↔ Role.IsModeNumber value) ∧
      (Role.attemptMode value = .error .overlong ↔ value.isShowable = false)) ∧
    Config.attempt value = (Config.check value).mapError Config.FormError.trouble ∧
      (IsAnswered (Config.attempt value) ↔ Config.check value ≠ .error .overlong) ∧
      (IsAnswered (Config.attempt value) ∨ Config.attempt value = .error .overlong ∧
        ∃ part, Config.IsShownPart value part ∧ part.isShowable = false) := by
  refine ⟨?_, ?_, ?_, ⟨Role.attemptMode_eq value, Role.attemptMode_ends value⟩,
    Config.attempt_eq value, Config.attempt_ends value⟩
  · rw [Role.attemptName_eq]
    exact ⟨Attempt.isAnswered_mapError_refused _ _, rfl⟩
  · rw [Role.attemptSpec_eq]
    exact ⟨Attempt.isAnswered_mapError_refused _ _, rfl⟩
  · rw [Pattern.attempt_eq]
    exact ⟨Attempt.isAnswered_mapError_refused _ _, rfl⟩

/-- A configuration of the file of rules only. -/
def rulesFileConfig (file : Value) : Value :=
  .map [(.str Config.sectionKey, .map [(.str "rules_file", file)])]

theorem check_rulesFileConfig (n : Int) : Config.check (rulesFileConfig (.int n)) =
    .error (.showing (.int n) (.rulesFileNotText (.int n))) := rfl

/-- A list with a mode in it, a mode with a line feed behind it, a number for a name, and a number
with too many digits. -/
theorem checks_answer_iff_wrong_types :
    IsAnswered (Role.attemptMode (.list [.int 644])) ∧
      IsAnswered (Role.attemptMode (.str "644\n")) ∧
      IsAnswered (Role.attemptName (.int 7)) ∧
      ∃ n : Nat, Role.attemptMode (.int n) = .error .overlong ∧
        ¬ IsAnswered (Config.attempt (rulesFileConfig (.int n))) := by
  have hlist : (Value.list [.int 644]).isShowable = true := by
    have hnumber : (Value.int 644).isShowable = true :=
      @Role.isShowable_of_isMode 644 (by decide +kernel)
    rw [Value.isShowable, Value.areShowable, Value.areShowable, hnumber]
    rfl
  obtain ⟨-, -, -, ⟨-, hlistAnswered, -⟩, -⟩ := checks_answer_iff (.list [.int 644])
  obtain ⟨-, -, -, ⟨-, htextAnswered, -⟩, -⟩ := checks_answer_iff (.str "644\n")
  obtain ⟨⟨hname, -⟩, -⟩ := checks_answer_iff (.int 7)
  obtain ⟨n, hlong⟩ := Value.exists_not_isShowable
  obtain ⟨-, -, -, ⟨-, -, -, hoverlong⟩, -⟩ := checks_answer_iff (.int n)
  obtain ⟨-, -, -, -, -, hconfig, -⟩ := checks_answer_iff (rulesFileConfig (.int n))
  refine ⟨hlistAnswered.2 ⟨hlist, ?_⟩, htextAnswered.2 ⟨rfl, ?_⟩, hname, n, hoverlong.2 hlong,
    fun hanswered => hconfig.1 hanswered ?_⟩
  · rintro ⟨n, h, -⟩
    cases h
  · rintro ⟨n, h, -⟩
    cases h
  · rw [check_rulesFileConfig]
    exact congrArg _ (if_neg (Bool.eq_false_iff.1 hlong))

/-- A number that reads like a mode is used as the text that it is not. -/
theorem attemptMode_misuses_number :
    Role.attemptMode (.int 644) = .error (.misused (.int 644)) ∧
      ¬ IsAnswered (Role.attemptMode (.int 644)) ∧ Role.parseMode (.int 644) = .error .notText := by
  have hdigits : Role.isMode (Text.ofNat 644) = true := by decide +kernel
  have hshow : (Value.int 644).isShowable = true := Role.isShowable_of_isMode hdigits
  have hparse : Role.parseMode (.int 644) = .error .notText := by
    unfold Role.parseMode
    rw [hshow, if_neg (by decide)]
    exact if_pos (Or.inl hdigits)
  have hattempt : Role.attemptMode (.int 644) = .error (.misused (.int 644)) := by
    rw [Role.attemptMode_eq, hparse]
    rfl
  refine ⟨hattempt, ?_, hparse⟩
  rw [hattempt]
  rintro (⟨_, h⟩ | ⟨_, h⟩) <;> cases h

end PathRights
