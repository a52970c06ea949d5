import PathRights.Proofs.Log.Frame
import PathRights.Run.Normalize

/-! The preparation of a run. Messages are written all the while, and a log file may be the very
file that holds the rules; so the rules are those that are read once the roles are registered and
told. `Prepares` says what a preparation that succeeds leads to, and `Hinders` what ends one that
fails. -/

namespace PathRights.Run

open CommandLine

namespace Reporting

variable {α β : Type}

theorem run_bind (work : Reporting α) (next : α → Reporting β) (output : Log.Output) :
    (work >>= next).run output =
      match work.run output with
      | (.ok a, output') => (next a).run output'
      | (.error fault, output') => (.error fault, output') := by
  show StateT.run (ExceptT.run (work >>= next)) output = _
  rw [ExceptT.run_bind, StateT.run_bind]
  show _ = match StateT.run (ExceptT.run work) output with
    | (.ok a, output') => _
    | (.error fault, output') => _
  rcases StateT.run (ExceptT.run work) output with ⟨result, output'⟩
  cases result <;> rfl

theorem run_say (journal : Log.Journal) (level : Log.Level) (message : Text)
    (output : Log.Output) :
    (say journal level message).run output = (.ok (), journal.log level message [] output) := rfl

theorem run_require {ε : Type} (fault : ε → Fault) (answer : Except ε α) (output : Log.Output) :
    (require fault answer).run output = (answer.mapError fault, output) := by
  cases answer <;> rfl

/-- Messages are written one after the other. -/
theorem run_forM_say (journal : Log.Journal) (level : Log.Level) (message : α → Text)
    (items : List α) (output : Log.Output) :
    (items.forM fun item => say journal level (message item)).run output =
      (.ok (),
        items.foldl (fun output item => journal.log level (message item) [] output) output) := by
  induction items generalizing output with
  | nil => rfl
  | cons item items ih =>
    show (say journal level (message item) >>= fun _ => _ : Reporting PUnit).run output = _
    rw [run_bind, run_say]
    exact ih _

end Reporting

/-- What is written once the roles are registered. -/
def registered (journal : Log.Journal) (registry : Registry) (output : Log.Output) : Log.Output :=
  registry.roles.foldl
    (fun output role =>
      journal.log .debug ("Role " ++ role.name ++ ": " ++ role.describe) [] output)
    (journal.log .debug "Creating RoleRegistry" [] output)

/-- What is written by the time the rules are read. -/
def announced (journal : Log.Journal) (registry : Registry) (source : Text)
    (output : Log.Output) : Log.Output :=
  journal.log .debug ("Loading rules from " ++ source) [] (registered journal registry output)

theorem sameStart_announced (journal : Log.Journal) (registry : Registry) (source : Text)
    (output : Log.Output) : (announced journal registry source output).SameStart output := by
  have hroles : (registered journal registry output).SameStart _ :=
    journal.sameStart_foldl_log _ _ _ _
  exact (journal.sameStart_log _ _ _ _).trans (hroles.trans (journal.sameStart_log _ _ _ _))

theorem run_register (journal : Log.Journal) (accounts : Accounts) (roles : Mapping)
    (output : Log.Output) :
    (register journal accounts roles).run output =
      match Registry.ofMapping accounts roles with
      | .error error => (.error (.role error), journal.log .debug "Creating RoleRegistry" [] output)
      | .ok registry => (.ok registry, registered journal registry output) := by
  unfold register
  rw [Reporting.run_bind, Reporting.run_say]
  dsimp only
  rw [Reporting.run_bind, Reporting.run_require]
  cases Registry.ofMapping accounts roles with
  | error error => rfl
  | ok registry =>
    show (registry.roles.forM _ >>= _ : Reporting Registry).run _ = _
    rw [Reporting.run_bind, Reporting.run_forM_say]
    rfl

theorem run_readRules (journal : Log.Journal) (registry : Registry) (input : Input) (source : Text)
    (output : Log.Output) :
    (readRules journal registry input source).run output =
      let output := journal.log .debug ("Loading rules from " ++ source) [] output
      match ruleLines output.disk input source with
      | .error error => (.error (.input error), output)
      | .ok lines =>
        match RuleTable.loadWithModes registry (sourceName source) lines with
        | .error error =>
          (.error (.table error), error.errors.foldl
            (fun output lineError => journal.log .error lineError.describe [] output) output)
        | .ok table =>
          (.ok table,
            journal.log .debug ("Loaded " ++ Text.ofNat table.1.size ++ " rules") [] output) := by
  unfold readRules
  rw [Reporting.run_bind, Reporting.run_say]
  dsimp only
  generalize journal.log .debug ("Loading rules from " ++ source) [] output = output
  show (Reporting.require .input (ruleLines output.disk input source) >>= _ :
    Reporting {table : RuleTable // table.GivesModes}).run _ = _
  rw [Reporting.run_bind, Reporting.run_require]
  cases ruleLines output.disk input source with
  | error error => rfl
  | ok lines =>
    dsimp only [Except.mapError]
    cases RuleTable.loadWithModes registry (sourceName source) lines with
    | error error =>
      show (error.errors.forM _ >>= _ : Reporting {table : RuleTable // table.GivesModes}).run _ = _
      rw [Reporting.run_bind, Reporting.run_forM_say]
      rfl
    | ok table => rfl

section

variable (journal : Log.Journal) (accounts : Accounts) (input : Input) (settings : Settings)
  (output : Log.Output)

/-- The roles resolve, and the rules are read and hold no faulty line. -/
structure Prepares (prepared : Prepared) : Prop where
  roles : Registry.ofMapping accounts settings.roles = .ok prepared.registry
  rules : ∃ lines,
    ruleLines (announced journal prepared.registry settings.rulesFile output).disk input
        settings.rulesFile = .ok lines ∧
      RuleTable.load prepared.registry (sourceName settings.rulesFile) lines = .ok prepared.table

/-- What ends a preparation that fails. -/
inductive Hinders : Fault → Prop where
  | role {error : RoleError} (h : Registry.ofMapping accounts settings.roles = .error error) :
    Hinders (.role error)
  | input {registry : Registry} {error : RuleInputError}
    (hroles : Registry.ofMapping accounts settings.roles = .ok registry)
    (h : ruleLines (announced journal registry settings.rulesFile output).disk input
      settings.rulesFile = .error error) :
    Hinders (.input error)
  | table {registry : Registry} {lines : List Text} {error : RuleTableError}
    (hroles : Registry.ofMapping accounts settings.roles = .ok registry)
    (hlines : ruleLines (announced journal registry settings.rulesFile output).disk input
      settings.rulesFile = .ok lines)
    (h : RuleTable.load registry (sourceName settings.rulesFile) lines = .error error) :
    Hinders (.table error)

end

variable {journal : Log.Journal} {accounts : Accounts} {input : Input} {settings : Settings}
  {output : Log.Output}

theorem Prepares.unique {prepared prepared' : Prepared}
    (h : Prepares journal accounts input settings output prepared)
    (h' : Prepares journal accounts input settings output prepared') : prepared = prepared' := by
  obtain ⟨registry, table, _⟩ := prepared
  obtain ⟨registry', table', _⟩ := prepared'
  obtain rfl : registry = registry' := Except.ok.inj (h.roles.symm.trans h'.roles)
  obtain ⟨lines, hlines, htable⟩ := h.rules
  obtain ⟨lines', hlines', htable'⟩ := h'.rules
  obtain rfl : lines = lines' := Except.ok.inj (hlines.symm.trans hlines')
  obtain rfl : table = table' := Except.ok.inj (htable.symm.trans htable')
  rfl

theorem Hinders.not_prepares {fault : Fault}
    (h : Hinders journal accounts input settings output fault)
    (prepared : Prepared) : ¬ Prepares journal accounts input settings output prepared := by
  intro hprepares
  obtain ⟨lines, hlines, htable⟩ := hprepares.rules
  cases h with
  | role h => cases h.symm.trans hprepares.roles
  | input hroles h =>
    cases hroles.symm.trans hprepares.roles
    cases h.symm.trans hlines
  | table hroles hlines' h =>
    cases hroles.symm.trans hprepares.roles
    cases hlines'.symm.trans hlines
    cases h.symm.trans htable

theorem Hinders.unique {fault fault' : Fault}
    (h : Hinders journal accounts input settings output fault)
    (h' : Hinders journal accounts input settings output fault') : fault = fault' := by
  cases h with
  | role h =>
    cases h' with
    | role h' =>
      cases h.symm.trans h'
      rfl
    | input hroles' _ => cases h.symm.trans hroles'
    | table hroles' _ _ => cases h.symm.trans hroles'
  | input hroles h =>
    cases h' with
    | role h' => cases hroles.symm.trans h'
    | input hroles' h' =>
      cases hroles.symm.trans hroles'
      cases h.symm.trans h'
      rfl
    | table hroles' hlines' _ =>
      cases hroles.symm.trans hroles'
      cases h.symm.trans hlines'
  | table hroles hlines h =>
    cases h' with
    | role h' => cases hroles.symm.trans h'
    | input hroles' h' =>
      cases hroles.symm.trans hroles'
      cases hlines.symm.trans h'
    | table hroles' hlines' h' =>
      cases hroles.symm.trans hroles'
      cases hlines.symm.trans hlines'
      cases h.symm.trans h'
      rfl

/-- A preparation succeeds with what `Prepares` says, or fails with what `Hinders` says. -/
theorem prepare_cases (journal : Log.Journal) (accounts : Accounts) (input : Input)
    (settings : Settings) (output : Log.Output) :
    ∃ result output', (prepare journal accounts input settings).run output = (result, output') ∧
      output'.SameStart output ∧
      match result with
      | .ok prepared => Prepares journal accounts input settings output prepared
      | .error fault => Hinders journal accounts input settings output fault := by
  unfold prepare
  rw [Reporting.run_bind, run_register]
  cases hroles : Registry.ofMapping accounts settings.roles with
  | error error => exact ⟨_, _, rfl, journal.sameStart_log _ _ _ _, .role hroles⟩
  | ok registry =>
    have hstart := sameStart_announced journal registry settings.rulesFile output
    dsimp only
    rw [Reporting.run_bind, run_readRules]
    have hannounced : journal.log .debug ("Loading rules from " ++ settings.rulesFile) []
        (registered journal registry output) =
      announced journal registry settings.rulesFile output := rfl
    dsimp only
    rw [hannounced]
    cases hlines : ruleLines (announced journal registry settings.rulesFile output).disk input
        settings.rulesFile with
    | error error => exact ⟨_, _, rfl, hstart, .input hroles hlines⟩
    | ok lines =>
      dsimp only
      cases htable : RuleTable.loadWithModes registry (sourceName settings.rulesFile) lines with
      | error error =>
        have hsame := journal.sameStart_foldl_log .error LineError.describe error.errors
          (announced journal registry settings.rulesFile output)
        have hload := RuleTable.loadWithModes_eq_error_iff.1 htable
        exact ⟨_, _, rfl, hsame.trans hstart, .table hroles hlines hload⟩
      | ok table =>
        refine ⟨_, _, rfl, (journal.sameStart_log _ _ _ _).trans hstart, ?_⟩
        exact ⟨hroles, lines, hlines, RuleTable.loadWithModes_eq_ok_iff.1 htable⟩

theorem Prepares.run_prepare {prepared : Prepared}
    (h : Prepares journal accounts input settings output prepared) :
    ∃ output', (prepare journal accounts input settings).run output = (.ok prepared, output') ∧
      output'.SameStart output := by
  obtain ⟨result, output', hrun, hsame, hresult⟩ :=
    prepare_cases journal accounts input settings output
  cases result with
  | error fault => exact absurd h (hresult.not_prepares prepared)
  | ok prepared' =>
    rw [hresult.unique h] at hrun
    exact ⟨output', hrun, hsame⟩

theorem Hinders.run_prepare {fault : Fault}
    (h : Hinders journal accounts input settings output fault) :
    ∃ output', (prepare journal accounts input settings).run output = (.error fault, output') := by
  obtain ⟨result, output', hrun, -, hresult⟩ :=
    prepare_cases journal accounts input settings output
  cases result with
  | error fault' =>
    rw [hresult.unique h] at hrun
    exact ⟨output', hrun⟩
  | ok prepared => exact absurd hresult (h.not_prepares prepared)

/-- A run is hindered, and then neither the tree nor whether it was to check matters, or it is
prepared and then only confirms or walks over the tree. -/
theorem run_cases (journal : Log.Journal) (config : Mapping) (accounts : Accounts) (input : Input)
    (root : Text) (output : Log.Output) :
    let settings := Settings.ofConfig config
    ∃ output', output'.SameStart output ∧
      ((∃ fault, Hinders journal accounts input settings output fault ∧
        ∀ site check, run journal config accounts input site root check output =
          Result.ofFault journal fault [] output') ∨
      ∃ prepared, Prepares journal accounts input settings output prepared ∧
        ∀ site, run journal config accounts input site root true output =
            confirm journal prepared output' ∧
          run journal config accounts input site root false output =
            normalize journal settings prepared site root output') := by
  intro settings
  obtain ⟨result, output', hrun, hsame, hresult⟩ :=
    prepare_cases journal accounts input settings output
  refine ⟨output', hsame, ?_⟩
  cases result with
  | error fault =>
    refine Or.inl ⟨fault, hresult, fun site check => ?_⟩
    unfold run
    dsimp only
    rw [hrun]
  | ok prepared =>
    refine Or.inr ⟨prepared, hresult, fun site => ?_⟩
    unfold run
    dsimp only
    rw [hrun]
    exact ⟨rfl, rfl⟩

theorem calls_normalize (journal : Log.Journal) (settings : Settings) (prepared : Prepared)
    (site : Option Site) (root : Text) (output : Log.Output) :
    (normalize journal settings prepared site root output).calls =
      (walkOver
        (walkOf journal settings root (output.disk.absolute root) prepared) site).calls := by
  unfold normalize
  dsimp only
  split <;> rfl

/-- The calls of a run are those of a walk over a tree, by the table that the run prepared. -/
theorem exists_walk_of_mem_calls {journal : Log.Journal} {config : Mapping} {accounts : Accounts}
    {input : Input} {site : Option Site} {root : Text} {check : Bool} {output : Log.Output}
    {call : Call} (h : call ∈ (run journal config accounts input site root check output).calls) :
    ∃ prepared walk tree,
      Prepares journal accounts input (Settings.ofConfig config) output prepared ∧
        walk.table = prepared.table ∧ call ∈ (Walk.traverse walk tree).2.calls := by
  obtain ⟨output', -, ⟨fault, -, hrun⟩ | ⟨prepared, hprepares, hrun⟩⟩ :=
    run_cases journal config accounts input root output
  · rw [hrun site check] at h
    cases h
  · cases check with
    | true =>
      rw [(hrun site).1] at h
      cases h
    | false =>
      rw [(hrun site).2, calls_normalize] at h
      unfold walkOver at h
      split at h
      · cases h
      · next tree _ => exact ⟨prepared, _, tree, hprepares, rfl, h⟩

end PathRights.Run
