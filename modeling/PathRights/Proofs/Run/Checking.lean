import PathRights.Proofs.Run.ExitCode

/-! Checking runs. A run prepares before it touches anything, so what hinders it does so whether it
is to check or to walk: a run that only checks meets the same faults, and tells the same of them.
Once it finds everything in order, only the walk itself can fail. -/

namespace PathRights.Run

open CommandLine Log

/-- Every declared role resolves to one of the prepared ones, and every line that counts makes a
rule. -/
structure Prepared.Complete (accounts : Accounts) (roles : Mapping) (lines : List Text)
    (prepared : Prepared) : Prop where
  roles : ∀ declaration ∈ roles, ∃ role ∈ prepared.registry.roles,
    Role.parse accounts (.scalar declaration.1) declaration.2 = .ok role
  lines : ∀ index text line, lines[index]? = some text → Rule.significant? text = some line →
    ∃ rule ∈ prepared.table.rules, Rule.readLine prepared.registry (1 + index) line = .ok rule

variable {journal : Journal} {accounts : Accounts} {input : Input} {settings : Settings}
  {output : Output}

theorem Prepares.complete {prepared : Prepared}
    (h : Prepares journal accounts input settings output prepared) :
    ∃ lines, ruleLines (announced journal prepared.registry settings.rulesFile output).disk input
        settings.rulesFile = .ok lines ∧
      prepared.Complete accounts settings.roles lines := by
  obtain ⟨lines, hlines, hload⟩ := h.rules
  obtain ⟨herrors, hrules⟩ := RuleTable.load_eq_ok.1 hload
  have hregisters := Registry.registers_of_ofDeclarations h.roles
  refine ⟨lines, hlines, fun declaration hmem => ?_, fun index text line htext hline => ?_⟩
  · exact hregisters.exists_role (List.mem_map_of_mem hmem)
  · rw [hrules]
    exact Rule.rule_of_line herrors htext hline

/-- A fault of a preparation is no success. -/
theorem Hinders.code_ne_zero {fault : Fault}
    (h : Hinders journal accounts input settings output fault) : fault.course.code ≠ 0 := by
  cases h with
  | @role error h => cases error <;> exact Nat.succ_ne_zero _
  | @input registry error hroles h => cases error <;> exact Nat.succ_ne_zero _
  | table hroles hlines h => exact Nat.succ_ne_zero _

/-! ### Faulty lines -/

/-- What is told before the rules are read, each message at its level. -/
def openingEntries (registry : Registry) (source : Text) : List (Level × Text) :=
  let roles : List (Level × Text) := registry.roles.map fun role =>
    (.debug, "Role " ++ role.name ++ ": " ++ role.describe)
  let last : Level × Text := (.debug, "Loading rules from " ++ source)
  (.debug, "Creating RoleRegistry") :: (roles ++ [last])

theorem filter_openingEntries (hdebug : journal.admits .debug = false) (registry : Registry)
    (source : Text) :
    (openingEntries registry source).filter (fun entry => journal.admits entry.1) = [] := by
  refine List.filter_eq_nil_iff.2 fun entry hentry => ?_
  have hlevel : entry.1 = .debug := by
    rcases List.mem_cons.1 hentry with rfl | hentry
    · rfl
    · rcases List.mem_append.1 hentry with hentry | hentry
      · obtain ⟨role, -, rfl⟩ := List.mem_map.1 hentry
        rfl
      · rw [List.mem_singleton.1 hentry]
  rw [hlevel, hdebug]
  exact Bool.false_ne_true

/-- What is told of faulty lines: one error each, and the fatal one. -/
def faultEntries (errors : List LineError) : List (Level × Text) :=
  let lines : List (Level × Text) := errors.map fun error => (.error, error.describe)
  let last : Level × Text := (.error, "Fatal error: " ++ (RuleTableError.mk errors).message)
  lines ++ [last]

theorem announced_eq_logAll (journal : Journal) (registry : Registry) (source : Text)
    (output : Output) : announced journal registry source output =
      journal.logAll (openingEntries registry source) output := by
  unfold announced registered
  rw [Journal.foldl_log]
  show journal.logAll [(.debug, _)] (journal.logAll _ (journal.logAll [(.debug, _)] output)) = _
  rw [← Journal.logAll_append, ← Journal.logAll_append]
  rfl

/-- A run whose rules have faulty lines tells of each, and then ends. -/
theorem run_of_faulty {config : Mapping} {registry : Registry} {lines : List Text}
    {error : RuleTableError} {source : Text}
    (hsource : (Settings.ofConfig config).rulesFile = source)
    (hroles : Registry.ofMapping accounts (Settings.ofConfig config).roles = .ok registry)
    (hlines : ruleLines (announced journal registry source output).disk input source = .ok lines)
    (hload : RuleTable.load registry (sourceName source) lines = .error error)
    (site : Option Site) (root : Text) (check : Bool) :
    run journal config accounts input site root check output =
      ⟨Status.invalidInput.code,
        journal.logAll (openingEntries registry source ++ faultEntries error.errors) output,
        []⟩ := by
  have hannounced : journal.log .debug ("Loading rules from " ++ source) []
      (registered journal registry output) = announced journal registry source output := rfl
  have hprepare : (prepare journal accounts input (Settings.ofConfig config)).run output =
      (.error (.table error), journal.logAll (error.errors.map fun e => (.error, e.describe))
        (announced journal registry source output)) := by
    unfold prepare
    rw [Reporting.run_bind, run_register, hroles]
    dsimp only
    rw [Reporting.run_bind, run_readRules, hsource]
    dsimp only
    rw [hannounced, hlines]
    dsimp only
    rw [RuleTable.loadWithModes_eq_error_iff.2 hload]
    dsimp only
    rw [Journal.foldl_log]
  unfold run
  dsimp only
  rw [hprepare]
  show Result.mk _ (journal.logAll [(.error, _)] _) [] = _
  rw [announced_eq_logAll, ← Journal.logAll_append, ← Journal.logAll_append]
  rfl

/-- A run that only checks makes no call and does not look at the tree. If it meets a fault, the run
that walks ends just like it, whatever the tree is. If it meets none, every role resolves and every
line is valid, and the run that walks fails only where its walk does. Faulty lines are told as
errors, all of them and in their order, and then comes the fatal one. -/
theorem check_foretells_faults (journal : Journal) (config : Mapping) (accounts : Accounts)
    (input : Input) (site : Option Site) (root : Text) (output : Output) :
    let settings := Settings.ofConfig config
    let source := settings.rulesFile
    let linesFor := fun registry =>
      ruleLines (announced journal registry source output).disk input source
    let checked := run journal config accounts input site root true output
    let real := run journal config accounts input site root false output
    (checked.calls = [] ∧
      ∀ site', run journal config accounts input site' root true output = checked) ∧
    (checked.code ≠ 0 → real = checked ∧
      ∀ site', run journal config accounts input site' root false output = checked) ∧
    (checked.code = 0 → ∃ prepared lines, linesFor prepared.registry = .ok lines ∧
      prepared.Complete accounts settings.roles lines ∧
      (real.code ≠ 0 → ∃ abort,
        let walk := walkOf journal settings root (output.disk.absolute root) prepared
        (walkOver walk site).outcome = .error abort ∧
          real.code = (Fault.walk abort).course.code)) ∧
    (∀ registry lines errors, Registry.ofMapping accounts settings.roles = .ok registry →
      linesFor registry = .ok lines →
      (lines.zipIdx 1).filterMap (Rule.errorOf? registry (sourceName source)) = errors →
      errors ≠ [] → ∀ check,
        let ended := run journal config accounts input site root check output
        let told := openingEntries registry source ++ faultEntries errors
        ended.code = Status.invalidInput.code ∧ ended.output = journal.logAll told output ∧
          ended.output.console =
            output.console ++ (told.filter fun entry => journal.admits entry.1).map journal.line) ∧
    (Config.check (.map config) = .ok () → SettingsAsWritten config) := by
  intro settings source linesFor checked real
  -- whether the run is hindered decides the first three parts, and the others are apart from it
  refine and_assoc.1 (and_assoc.1
    ⟨?_, fun registry lines errors hroles hlines herrors hsome check => ?_,
    settingsAsWritten_of_check⟩)
  · obtain ⟨output', hsame, ⟨fault, hinders, hrun⟩ | ⟨prepared, hprepares, hrun⟩⟩ :=
      run_cases journal config accounts input root output
    · have hchecked : checked = Result.ofFault journal fault [] output' := hrun site true
      have hcode : checked.code ≠ 0 := by
        rw [hchecked]
        exact hinders.code_ne_zero
      rw [hchecked] at hcode ⊢
      refine ⟨⟨⟨rfl, fun site' => hrun site' true⟩, fun _ => ?_⟩, fun hzero => absurd hzero hcode⟩
      exact ⟨hrun site false, fun site' => hrun site' false⟩
    · have hchecked : checked = confirm journal prepared output' := (hrun site).1
      rw [hchecked]
      refine ⟨⟨⟨rfl, fun site' => (hrun site').1⟩, fun hcode => absurd rfl hcode⟩, fun _ => ?_⟩
      obtain ⟨lines, hlines, hcomplete⟩ := hprepares.complete
      refine ⟨prepared, lines, hlines, hcomplete, fun hcode => ?_⟩
      let walk := walkOf journal settings root (output.disk.absolute root) prepared
      have hreal : real.code = outcomeCode (walkOver walk site).outcome := by
        show (run journal config accounts input site root false output).code = _
        rw [(hrun site).2, code_normalize, Disk.absolute_congr hsame]
      rw [hreal] at hcode ⊢
      cases houtcome : (walkOver walk site).outcome with
      | ok _ =>
        rw [houtcome] at hcode
        exact absurd rfl hcode
      | error abort => exact ⟨abort, houtcome, rfl⟩
  · have hload : RuleTable.load registry (sourceName source) lines = .error ⟨errors⟩ := by
      unfold RuleTable.load Rule.readLines
      rw [Rule.readFrom_eq, herrors]
      exact if_neg (by simpa using hsome)
    intro ended told
    have hended : ended = _ := run_of_faulty rfl hroles hlines hload site root check
    rw [hended]
    exact ⟨rfl, rfl, journal.console_logAll told output⟩

/-- Three lines, of which the first and the last are faulty. -/
def faultyRules : Input := ⟨.ok (Text.toUtf8 "** nobody\n**/ open\na b c"), false⟩

/-- A run with faulty lines that only checks, or that would walk. -/
def faultyRun (check : Bool) : Result :=
  run (.start "treerights" "now" (.ofLevel .info)) openingConfig openingAccounts faultyRules
    (some ⟨"/srv", faultyTree⟩) "srv" check (.ofLines [] ⟨[], [], []⟩)

theorem check_foretells_faults_faultyRun :
    (faultyRun true).code = 1 ∧ faultyRun false = faultyRun true ∧ (faultyRun true).calls = [] ∧
      (faultyRun true).output.console =
        ["now - treerights - ERROR - <stdin>:1: unknown role 'nobody': '** nobody'".toList,
          "now - treerights - ERROR - <stdin>:3: too many fields: 'a b c'".toList,
          "now - treerights - ERROR - Fatal error: 2 rule errors".toList] := by
  unfold faultyRun
  obtain ⟨⟨hcalls, -⟩, hfails, -, htold, -⟩ := check_foretells_faults
    (.start "treerights" "now" (.ofLevel .info)) openingConfig openingAccounts faultyRules
    (some ⟨"/srv", faultyTree⟩) "srv" (.ofLines [] ⟨[], [], []⟩)
  obtain ⟨hcode, -, hconsole⟩ := htold ⟨[⟨"open", "u", 1, "g", 2, 0o755, none⟩]⟩
    ["** nobody\n".toList, "**/ open\n".toList, "a b c".toList]
    [⟨"<stdin>", 1, "** nobody", .unknownRole "nobody"⟩, ⟨"<stdin>", 3, "a b c", .tooManyFields⟩]
    (by cbv) (by cbv) (by with_unfolding_all rfl) (List.cons_ne_nil _ _) true
  refine ⟨hcode, (hfails ?_).1, hcalls, hconsole.trans ?_⟩
  · rw [hcode]
    decide
  · rw [List.filter_append, filter_openingEntries (by decide)]
    decide +kernel

end PathRights.Run
