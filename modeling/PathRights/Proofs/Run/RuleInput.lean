import PathRights.Proofs.Rule.LineEnd
import PathRights.Proofs.Run.ExitCode

/-! Rules from the standard input and rules from a file. A run goes on from the lines alike
whichever way they come, and they are alike as long as no return stands within a line. Bytes that
are no text are a fault that the program foresees only for a file. -/

namespace PathRights.Run

open CommandLine

/-! ### What a run comes to -/

/-- What a run comes to, apart from what it tells: its exit code, its calls, and the counters of its
walk, if it comes to one. -/
structure Effects where
  code : Nat
  calls : List Call
  stats : Option Stats
deriving DecidableEq

/-- The session of a walk, unless the run only checks or does not find the root. -/
def sessionAt (walk : Walk) (check : Bool) (site : Option Site) : Option Session :=
  if check then none
  else
    match Site.entry? site walk.rootPath with
    | .error _ => none
    | .ok tree => some (walk.traverse tree).2

theorem calls_walkOver (walk : Walk) (site : Option Site) :
    (walkOver walk site).calls =
      ((sessionAt walk false site).map Session.calls).getD [] := by
  unfold walkOver sessionAt
  cases Site.entry? site walk.rootPath <;> rfl

section

variable (journal : Log.Journal) (config : Mapping) (accounts : Accounts) (input : Input)
  (site : Option Site) (root : Text) (check : Bool) (output : Log.Output)

/-- The session of the walk of a run. -/
def session? : Option Session :=
  let settings := Settings.ofConfig config
  match (prepare journal accounts input settings).run output with
  | (.error _, _) => none
  | (.ok prepared, output) =>
    sessionAt (walkOf journal settings root (output.disk.absolute root) prepared) check site

/-- What a run comes to. -/
def effects : Effects :=
  let result := run journal config accounts input site root check output
  let session := session? journal config accounts input site root check output
  ⟨result.code, result.calls, session.map Session.stats⟩

end

/-- What a run comes to with its walk, or without it. -/
def effectsAt (walk : Walk) (check : Bool) (site : Option Site) : Effects :=
  let code := if check then Status.success.code
    else outcomeCode (walkOver walk site).outcome
  let session := sessionAt walk check site
  ⟨code, (session.map Session.calls).getD [], session.map Session.stats⟩

section

variable {journal : Log.Journal} {config : Mapping} {accounts : Accounts} {input : Input}
  {output : Log.Output}

/-- The roles and rules of a run that is prepared decide what it comes to. -/
theorem Prepares.effects_eq {prepared : Prepared}
    (h : Prepares journal accounts input (Settings.ofConfig config) output prepared)
    (site : Option Site) (root : Text) (check : Bool) :
    effects journal config accounts input site root check output =
      effectsAt
        (walkOf journal (Settings.ofConfig config) root (output.disk.absolute root) prepared)
        check site := by
  obtain ⟨output', hprepare, hsame⟩ := h.run_prepare
  have hroot : output'.disk.absolute root = output.disk.absolute root :=
    Disk.absolute_congr hsame root
  unfold effects effectsAt session? run
  dsimp only
  rw [hprepare]
  dsimp only
  rw [hroot]
  cases check with
  | true => rfl
  | false =>
    rw [if_neg Bool.false_ne_true, if_neg Bool.false_ne_true, code_normalize, calls_normalize,
      hroot, ← calls_walkOver]

/-- A run that is hindered comes to the code of the fault and to nothing else. -/
theorem Hinders.effects_eq {fault : Fault}
    (h : Hinders journal accounts input (Settings.ofConfig config) output fault)
    (site : Option Site) (root : Text) (check : Bool) :
    effects journal config accounts input site root check output =
      ⟨fault.course.code, [], none⟩ := by
  obtain ⟨output', hprepare⟩ := h.run_prepare
  unfold effects session? run
  dsimp only
  rw [hprepare]
  rfl

end

/-- What a run comes to that has read its lines. -/
def effectsOfLines (journal : Log.Journal) (settings : Settings) (registry : Registry)
    (lines : List Text) (root rootPath : Text) (check : Bool) (site : Option Site) : Effects :=
  match RuleTable.loadWithModes registry [] lines with
  | .ok ⟨table, givesModes⟩ =>
    effectsAt (walkOf journal settings root rootPath ⟨registry, table, givesModes⟩) check site
  | .error _ => ⟨Status.invalidInput.code, [], none⟩

theorem effectsOfLines_eq {registry : Registry} {lines : List Text} {table : RuleTable}
    (h : RuleTable.load registry [] lines = .ok table) (journal : Log.Journal) (settings : Settings)
    (root rootPath : Text) (check : Bool) (site : Option Site) :
    effectsOfLines journal settings registry lines root rootPath check site =
      effectsAt (walkOf journal settings root rootPath
        ⟨registry, table, RuleTable.givesModes_of_load h⟩) check site := by
  have hload : RuleTable.loadWithModes registry [] lines =
      .ok ⟨table, RuleTable.givesModes_of_load h⟩ := RuleTable.loadWithModes_eq_ok_iff.2 h
  unfold effectsOfLines
  rw [hload]

/-! ### Sources -/

section

variable {journal : Log.Journal} {config : Mapping} {settings : Settings} {source : Text}
  (hconfig : Settings.ofConfig config = { settings with rulesFile := source })
  {accounts : Accounts} {input : Input} (site : Option Site) (root : Text) (check : Bool)
  {output : Log.Output}

include hconfig

theorem effects_of_roleError {error : RoleError}
    (hroles : Registry.ofMapping accounts settings.roles = .error error) :
    effects journal config accounts input site root check output =
      ⟨(Fault.role error).course.code, [], none⟩ := by
  have hinders :
      Hinders journal accounts input (Settings.ofConfig config) output (.role error) := by
    rw [hconfig]
    exact .role hroles
  exact hinders.effects_eq site root check

variable {registry : Registry} (hroles : Registry.ofMapping accounts settings.roles = .ok registry)

include hroles

theorem effects_of_inputError {error : RuleInputError}
    (hlines : ruleLines (announced journal registry source output).disk input source =
      .error error) :
    effects journal config accounts input site root check output =
      ⟨(Fault.input error).course.code, [], none⟩ := by
  have hinders :
      Hinders journal accounts input (Settings.ofConfig config) output (.input error) := by
    rw [hconfig]
    exact .input hroles hlines
  exact hinders.effects_eq site root check

/-- Once the lines are read, it does not matter where they come from. -/
theorem effects_of_lines {lines : List Text}
    (hlines : ruleLines (announced journal registry source output).disk input source = .ok lines) :
    effects journal config accounts input site root check output =
      effectsOfLines journal settings registry lines root (output.disk.absolute root)
        check site := by
  -- the source gives its name to messages, and these are no part of what is compared
  cases hload : RuleTable.loadWithModes registry [] lines with
  | ok table =>
    obtain ⟨table, hmodes⟩ := table
    have hnamed := RuleTable.load_ok_of_source (RuleTable.loadWithModes_eq_ok_iff.1 hload)
      (sourceName source)
    have hprepares : Prepares journal accounts input (Settings.ofConfig config) output
        ⟨registry, table, hmodes⟩ := by
      rw [hconfig]
      exact ⟨hroles, lines, hlines, hnamed⟩
    rw [hprepares.effects_eq, hconfig, effectsOfLines, hload]
    rfl
  | error error =>
    cases hnamed : RuleTable.load registry (sourceName source) lines with
    | ok table =>
      have hunnamed := RuleTable.load_ok_of_source hnamed []
      cases (RuleTable.loadWithModes_eq_error_iff.1 hload).symm.trans hunnamed
    | error error' =>
      have hinders :
          Hinders journal accounts input (Settings.ofConfig config) output (.table error') := by
        rw [hconfig]
        exact .table hroles hlines hnamed
      rw [hinders.effects_eq, effectsOfLines, hload]
      rfl

end

/-- Returns that end lines make no difference to what the lines come to. -/
theorem effectsOfLines_normalizeNewlines {text : Text} (h : text.ReturnsEndLines)
    (journal : Log.Journal) (settings : Settings) (registry : Registry) (root rootPath : Text)
    (check : Bool) (site : Option Site) :
    effectsOfLines journal settings registry text.normalizeNewlines.lines root rootPath check site =
      effectsOfLines journal settings registry text.lines root rootPath check site := by
  unfold effectsOfLines
  rw [RuleTable.loadWithModes_normalizeNewlines h]

section

variable {disk : Disk} {path : Text} {bytes : List UInt8}

/-- The text that the lines of the standard input are taken from. -/
def pipedText (universal : Bool) (text : Text) : Text :=
  if universal then text.normalizeNewlines else text

theorem ruleLines_input (h : path = standardInput) (universal : Bool) :
    ruleLines disk ⟨.ok bytes, universal⟩ path =
      match Text.ofUtf8 bytes with
      | .ok text => .ok (pipedText universal text).lines
      | .error fault => .error (.undecodable fault) := by
  unfold ruleLines inputLines
  rw [if_pos h]
  dsimp only
  cases Text.ofUtf8 bytes <;> rfl

theorem ruleLines_file (h : path ≠ standardInput) (hread : disk.readBytes path = .ok bytes)
    (input : Input) :
    ruleLines disk input path =
      match Text.ofUtf8 bytes with
      | .ok text => .ok text.normalizeNewlines.lines
      | .error fault => .error (.unreadable path (.undecodable fault)) := by
  unfold ruleLines fileLines Disk.readText
  rw [if_neg h, hread]
  dsimp only [Disk.textOfBytes]
  cases Text.ofUtf8 bytes <;> rfl

end

section

variable {journal : Log.Journal} {config : Mapping} {settings : Settings} {path : Text}
  {accounts : Accounts} {registry : Registry}
  (hroles : Registry.ofMapping accounts settings.roles = .ok registry) {bytes : List UInt8}
  (site : Option Site) (root : Text) (check : Bool) {output : Log.Output}

include hroles

/-- Bytes from the standard input that are no text are not foreseen. -/
theorem effects_piped
    (hconfig : Settings.ofConfig config = { settings with rulesFile := standardInput })
    (universal : Bool) :
    effects journal config accounts ⟨.ok bytes, universal⟩ site root check output =
      match Text.ofUtf8 bytes with
      | .ok text => effectsOfLines journal settings registry (pipedText universal text).lines root
        (output.disk.absolute root) check site
      | .error _ => ⟨Status.internalError.code, [], none⟩ := by
  have hlines (disk : Disk) := @ruleLines_input disk standardInput bytes rfl universal
  cases hdecode : Text.ofUtf8 bytes with
  | ok text =>
    rw [hdecode] at hlines
    exact effects_of_lines hconfig site root check hroles (hlines _)
  | error fault =>
    rw [hdecode] at hlines
    exact effects_of_inputError hconfig site root check hroles (hlines _)

/-- Bytes of a file that are no text are foreseen. -/
theorem effects_filed (hconfig : Settings.ofConfig config = { settings with rulesFile := path })
    (hpath : path ≠ standardInput)
    (hread : (announced journal registry path output).disk.readBytes path = .ok bytes)
    (input : Input) :
    effects journal config accounts input site root check output =
      match Text.ofUtf8 bytes with
      | .ok text => effectsOfLines journal settings registry text.normalizeNewlines.lines root
        (output.disk.absolute root) check site
      | .error _ => ⟨Status.permissionDenied.code, [], none⟩ := by
  have hlines := ruleLines_file hpath hread input
  cases hdecode : Text.ofUtf8 bytes with
  | ok text =>
    rw [hdecode] at hlines
    exact effects_of_lines hconfig site root check hroles hlines
  | error fault =>
    rw [hdecode] at hlines
    exact effects_of_inputError hconfig site root check hroles hlines

end

/-- Whether the rules are piped or in a file, a run comes to the same if the roles end it before, or
if they are text whose lines come to the same with every form of the end of a line and with those
that count in the pipe. They do where no return stands within a line. Bytes that are no text are one
of two faults, and only the one of the file is foreseen. -/
theorem effects_agree_iff (journal : Log.Journal) (config config' : Mapping) (accounts : Accounts)
    (universal : Bool) (input : Input) (path : Text) (bytes : List UInt8) (site : Option Site)
    (root : Text) (check : Bool) (output : Log.Output)
    (hpiped : (Settings.ofConfig config).rulesFile = standardInput)
    (hfiled : Settings.ofConfig config' = { Settings.ofConfig config with rulesFile := path })
    (hpath : path ≠ standardInput)
    (hread : ∀ registry,
      Registry.ofMapping accounts (Settings.ofConfig config).roles = .ok registry →
        (announced journal registry path output).disk.readBytes path = .ok bytes) :
    let settings := Settings.ofConfig config
    let piped := effects journal config accounts ⟨.ok bytes, universal⟩ site root check output
    let filed := effects journal config' accounts input site root check output
    let rolesFail := ∃ error, Registry.ofMapping accounts settings.roles = .error error
    let ofText := fun registry (text : Text) =>
      effectsOfLines journal settings registry text.lines root
        (output.disk.absolute root) check site
    (piped = filed ↔ rolesFail ∨ ∃ text registry, Text.ofUtf8 bytes = .ok text ∧
      Registry.ofMapping accounts settings.roles = .ok registry ∧
      ofText registry (pipedText universal text) = ofText registry text.normalizeNewlines) ∧
    (∀ text, Text.ofUtf8 bytes = .ok text → universal = true ∨ text.ReturnsEndLines →
      piped = filed) ∧
    (∀ text registry, Text.ofUtf8 bytes = .ok text →
      Registry.ofMapping accounts settings.roles = .ok registry →
      piped = ofText registry (pipedText universal text) ∧
        filed = ofText registry text.normalizeNewlines) ∧
    ((∀ text, Text.ofUtf8 bytes ≠ .ok text) → ¬ rolesFail →
      piped = ⟨Status.internalError.code, [], none⟩ ∧
        filed = ⟨Status.permissionDenied.code, [], none⟩) := by
  intro settings piped filed rolesFail ofText
  have hinput : settings = { settings with rulesFile := standardInput } := by rw [← hpiped]
  cases hroles : Registry.ofMapping accounts settings.roles with
  | error error =>
    have hagree : piped = filed := (effects_of_roleError hinput site root check hroles).trans
      (effects_of_roleError hfiled site root check hroles).symm
    have hfail : rolesFail := ⟨error, hroles⟩
    refine ⟨iff_of_true hagree (Or.inl hfail), fun _ _ _ => hagree, fun _ _ _ h => ?_,
      fun _ h => absurd hfail h⟩
    cases h
  | ok registry =>
    have hnofail : ¬ rolesFail := by
      rintro ⟨error, herror⟩
      cases hroles.symm.trans herror
    have hpipes : piped = _ := effects_piped hroles site root check hinput universal
    have hfiles : filed = _ :=
      effects_filed hroles site root check hfiled hpath (hread registry hroles) input
    cases hdecode : Text.ofUtf8 bytes with
    | ok text =>
      rw [hdecode] at hpipes hfiles
      have hpipedText : piped = ofText registry (pipedText universal text) := hpipes
      have hfiledText : filed = ofText registry text.normalizeNewlines := hfiles
      refine ⟨⟨fun hagree => ?_, ?_⟩, ?_, ?_, fun h => absurd rfl (h text)⟩
      · rw [hpipedText, hfiledText] at hagree
        exact Or.inr ⟨text, registry, rfl, rfl, hagree⟩
      · rintro (hfail | ⟨_, _, hsame, hregistry, hagree⟩)
        · exact absurd hfail hnofail
        · cases hsame
          cases hregistry
          rw [hpipedText, hfiledText, hagree]
      · intro _ hsame hreturns
        cases hsame
        rw [hpipedText, hfiledText]
        unfold pipedText
        cases universal with
        | true => rfl
        | false =>
          have hends := hreturns.resolve_left Bool.false_ne_true
          exact (effectsOfLines_normalizeNewlines hends _ _ _ _ _ _ _).symm
      · intro _ _ hsame hregistry
        cases hsame
        cases hregistry
        exact ⟨hpipedText, hfiledText⟩
    | error fault =>
      rw [hdecode] at hpipes hfiles
      have hpipedFault : piped = ⟨Status.internalError.code, [], none⟩ := hpipes
      have hfiledFault : filed = ⟨Status.permissionDenied.code, [], none⟩ := hfiles
      refine ⟨iff_of_false (fun hagree => ?_) ?_, fun _ h => ?_, fun _ _ h => ?_,
        fun _ _ => ⟨hpipedFault, hfiledFault⟩⟩
      · rw [hpipedFault, hfiledFault] at hagree
        exact absurd hagree (by decide)
      · rintro (hfail | ⟨_, _, h, -⟩)
        · exact hnofail hfail
        · cases h
      · cases h
      · cases h

/-- The configuration with one role for directories, and with the rules in a file. -/
def openingFileConfig : Mapping :=
  [(.str Config.sectionKey, .map [(.str "roles", .map [(.str "open", .str "u:g,755/")]),
    (.str "rules_file", .str "rules")])]

/-- A run that reads its rules from the standard input or, on a disk that holds them, from a
file. -/
def ruleEffects (config : Mapping) (bytes : List UInt8) (check : Bool) : Effects :=
  effects (.start "treerights" "now" (.ofLevel .info)) config openingAccounts ⟨.ok bytes, false⟩
    (some ⟨"/srv", faultyTree⟩) "srv" check
    (.ofLines [] ⟨[], [], [(["rules".toList], .file bytes)]⟩)

theorem settings_openingFileConfig :
    Settings.ofConfig openingFileConfig =
      { Settings.ofConfig openingConfig with rulesFile := "rules" } := by
  cbv

theorem rulesFile_openingConfig : (Settings.ofConfig openingConfig).rulesFile = standardInput := by
  cbv

theorem input_openingConfig : Settings.ofConfig openingConfig =
    { Settings.ofConfig openingConfig with rulesFile := standardInput } := by
  rw [← rulesFile_openingConfig]

theorem roles_openingConfig :
    Registry.ofMapping openingAccounts (Settings.ofConfig openingConfig).roles =
      .ok ⟨[⟨"open", "u", 1, "g", 2, 0o755, none⟩]⟩ :=
  (prepares_openingConfig (.start "treerights" "now" (.ofLevel .info))
    (.ofLines [] ⟨[], [], []⟩)).roles

theorem readBytes_rules (bytes : List UInt8) (registry : Registry)
    (h : Registry.ofMapping openingAccounts (Settings.ofConfig openingConfig).roles =
      .ok registry) :
    (announced (.start "treerights" "now" (.ofLevel .info)) registry "rules"
      (.ofLines [] ⟨[], [], [(["rules".toList], .file bytes)]⟩)).disk.readBytes "rules" =
        .ok bytes := by
  cases roles_openingConfig.symm.trans h
  with_unfolding_all rfl

theorem effects_agree_iff_openingRules :
    ruleEffects openingConfig (Text.toUtf8 "**/ open") false =
        ruleEffects openingFileConfig (Text.toUtf8 "**/ open") false ∧
      (ruleEffects openingConfig (Text.toUtf8 "**/ open") false).stats =
        some ⟨2, 2, 0, 0, 1, 1, 1⟩ := by
  have htext : Text.ofUtf8 (Text.toUtf8 "**/ open") = .ok "**/ open".toList := by cbv
  obtain ⟨-, hagree, -⟩ := effects_agree_iff (.start "treerights" "now" (.ofLevel .info))
    openingConfig openingFileConfig openingAccounts false openingInput "rules"
    (Text.toUtf8 "**/ open") (some ⟨"/srv", faultyTree⟩) "srv" false _ rulesFile_openingConfig
    settings_openingFileConfig (by decide) (readBytes_rules _)
  refine ⟨hagree _ htext (Or.inr (Text.returnsEndLines_of_not_mem (by decide))), ?_⟩
  have hprepares := prepares_openingConfig (.start "treerights" "now" (.ofLevel .info))
    (.ofLines [] ⟨[], [], [(["rules".toList], .file (Text.toUtf8 "**/ open"))]⟩)
  have heffects := hprepares.effects_eq (some ⟨"/srv", faultyTree⟩) "srv" false
  refine (congrArg Effects.stats heffects).trans ?_
  cbv

/-- A byte that is no text. -/
theorem effects_differ_undecodable :
    ruleEffects openingConfig [0xFF] false = ⟨Status.internalError.code, [], none⟩ ∧
      ruleEffects openingFileConfig [0xFF] false = ⟨Status.permissionDenied.code, [], none⟩ := by
  have hfault : ∃ fault, Text.ofUtf8 [0xFF] = .error fault := ⟨_, by with_unfolding_all rfl⟩
  obtain ⟨fault, hfault⟩ := hfault
  unfold ruleEffects
  rw [effects_piped roles_openingConfig _ _ _ input_openingConfig,
    effects_filed roles_openingConfig _ _ _ settings_openingFileConfig (by decide)
      (readBytes_rules [0xFF] _ roles_openingConfig), hfault]
  exact ⟨rfl, rfl⟩

/-- Two lines that end with returns. -/
def returnRules : List UInt8 := Text.toUtf8 "a -\rb -\r"

/-- Returns that end the lines of a file stand within one line of the standard input. -/
theorem effects_differ_return :
    (ruleEffects openingConfig returnRules true).code = Status.invalidInput.code ∧
      (ruleEffects openingFileConfig returnRules true).code = Status.success.code := by
  have htext : Text.ofUtf8 returnRules = .ok "a -\rb -\r".toList := by cbv
  obtain ⟨table, hload⟩ : ∃ table, RuleTable.load ⟨[⟨"open", "u", 1, "g", 2, 0o755, none⟩]⟩ []
      (Text.normalizeNewlines "a -\rb -\r").lines = .ok table := ⟨_, by with_unfolding_all rfl⟩
  unfold ruleEffects
  rw [effects_piped roles_openingConfig _ _ _ input_openingConfig,
    effects_filed roles_openingConfig _ _ _ settings_openingFileConfig (by decide)
      (readBytes_rules returnRules _ roles_openingConfig), htext]
  constructor
  · cbv
  · exact congrArg Effects.code (effectsOfLines_eq hload _ _ _ _ _ _)

end PathRights.Run
