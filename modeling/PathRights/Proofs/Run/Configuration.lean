import Mathlib
import PathRights.Proofs.CommandLine.Layer
import PathRights.Proofs.Config.Loading
import PathRights.Proofs.Config.Refusal
import PathRights.Proofs.Run.JournalLevel
import PathRights.Proofs.Run.Preparation
import PathRights.Run.Program
import PathRights.Yaml.Node

/-! How a run comes to its configuration, or ends without one. Whatever a file of configuration
holds, the run ends with a status of its own, or it has a configuration that passes its check and in
which the section is a mapping. What is left is named case by case: `Config.Upsets` for a file,
`Upset` for the whole configuration and `JournalOpens` for the journal, and `configuration_ends` is
the theorem that nothing is missing from them. -/

namespace PathRights

namespace Run

open CommandLine

/-! ### The configuration -/

section

variable (reader : Reader) (disk : Disk) (environment : List (Text × Text))
  (systemFile file : Option Text) (layer : Mapping)

/-- What the file of the user is not loaded for, without a status. -/
def UpsetByUser (error : Config.LoadError) : Prop :=
  ∃ path, file = some path ∧ path ≠ [] ∧ Config.Upsets reader disk path error

/-- What the file of the system is not loaded for, without a status. -/
def UpsetBySystem (error : Config.LoadError) : Prop :=
  ∃ path, systemFile = some path ∧ disk.isFile path = true ∧ Config.Upsets reader disk path error

/-- The file of the user gives a layer, or a mapping that contains itself, so that the file of the
system is loaded next. -/
def UserLoads : Prop :=
  (∃ started, Config.Layers.start reader disk file (some environment) = .ok started) ∨
    UpsetByUser reader disk file .endless

/-- What a run has no configuration for, without a status: the file of the user upsets it, or that
of the system, which is loaded after it, or a part that the check would show holds a number with too
many digits. A mapping of the user that contains itself upsets it only when all else is loaded. -/
inductive Upset : ConfigurationError → Prop where
  | user {error : Config.LoadError} (h : UpsetByUser reader disk file error)
    (hends : error ≠ .endless) : Upset (.load error)
  | system {error : Config.LoadError} (hloads : UserLoads reader disk environment file)
    (h : UpsetBySystem reader disk systemFile error) : Upset (.load error)
  | endless {below : Config.Layers} (h : UpsetByUser reader disk file .endless)
    (hsystem : lowerLayers reader disk environment systemFile none = .ok below) :
    Upset (.load .endless)
  | overlong {merged : Config.Layers} {part : Value}
    (hlayers : layers reader disk environment systemFile file layer = .ok merged)
    (hpart : Config.IsShownPart (.map merged.merged) part) (hshow : part.isShowable = false)
    (h : Config.check (.map merged.merged) = .error .overlong) : Upset (.form .overlong)

end

variable {reader : Reader} {disk : Disk} {environment : List (Text × Text)}
  {systemFile file : Option Text} {layer : Mapping} {error : ConfigurationError}

theorem withSystemFile_eq_error_iff {below : Config.Layers} {loadError : Config.LoadError} :
    withSystemFile reader below disk systemFile = .error loadError ↔
      ∃ path, systemFile = some path ∧ disk.isFile path = true ∧
        Config.ofFile reader disk path = .error loadError := by
  unfold withSystemFile
  cases systemFile with
  | none => simp
  | some path =>
    dsimp only
    split
    · next hthere => simp [hthere, Config.loadFile_eq_error_iff]
    · next hthere => simp [hthere]

theorem withSystemFile_unforeseen_iff {below : Config.Layers} {loadError : Config.LoadError} :
    withSystemFile reader below disk systemFile = .error loadError ∧ loadError.status? = none ↔
      UpsetBySystem reader disk systemFile loadError := by
  rw [withSystemFile_eq_error_iff]
  simp only [UpsetBySystem, ← Config.ofFile_unforeseen_iff]
  grind

section

variable (henvironment : Config.SetsNothing environment)

include henvironment

theorem start_unforeseen_iff {loadError : Config.LoadError} :
    Config.Layers.start reader disk file (some environment) = .error (.file loadError) ∧
      loadError.status? = none ↔ UpsetByUser reader disk file loadError := by
  rw [Config.start_eq_error_iff henvironment]
  simp only [UpsetByUser, ← Config.ofFile_unforeseen_iff]
  grind

theorem start_none_eq_ok : ∃ started,
    Config.Layers.start reader disk none (some environment) = .ok started := by
  cases hstart : Config.Layers.start reader disk none (some environment) with
  | ok started => exact ⟨started, rfl⟩
  | error error =>
    obtain ⟨_, _, hnone, -⟩ := (Config.start_eq_error_iff henvironment).1 hstart
    cases hnone

/-- The layers below the command line cannot be loaded because of the file of the user, or because
of that of the system once the first is loaded. -/
theorem lowerLayers_unforeseen_iff :
    lowerLayers reader disk environment systemFile file = .error error ∧ error.status? = none ↔
      ∃ loadError, error = .load loadError ∧ (UpsetByUser reader disk file loadError ∨
        (∃ started, Config.Layers.start reader disk file (some environment) = .ok started) ∧
          UpsetBySystem reader disk systemFile loadError) := by
  constructor
  · rintro ⟨h, hstatus⟩
    unfold lowerLayers at h
    split at h
    · next hstart =>
      cases h
      exact ⟨_, rfl, Or.inl ((start_unforeseen_iff henvironment).1 ⟨hstart, hstatus⟩)⟩
    · next hstart =>
      obtain ⟨_, _, -, -, -, heq⟩ := (Config.start_eq_error_iff henvironment).1 hstart
      cases heq
    · next started hstart =>
      split at h
      · next hsystem =>
        cases h
        exact ⟨_, rfl, Or.inr ⟨⟨started, hstart⟩,
          withSystemFile_unforeseen_iff.1 ⟨hsystem, hstatus⟩⟩⟩
      · cases h
  · rintro ⟨loadError, rfl, h | ⟨⟨started, hstart⟩, h⟩⟩
    · obtain ⟨hstart, hstatus⟩ := (start_unforeseen_iff henvironment).2 h
      unfold lowerLayers
      rw [hstart]
      exact ⟨rfl, hstatus⟩
    · obtain ⟨hsystem, hstatus⟩ := (@withSystemFile_unforeseen_iff _ _ _ started _).2 h
      unfold lowerLayers
      rw [hstart]
      dsimp only
      rw [hsystem]
      exact ⟨rfl, hstatus⟩

theorem upset_of_layers (h : layers reader disk environment systemFile file layer = .error error)
    (hstatus : error.status? = none) :
    Upset reader disk environment systemFile file layer error := by
  unfold layers at h
  split at h
  · next hlower =>
    obtain ⟨_, heq, hcause⟩ := (lowerLayers_unforeseen_iff henvironment).1 ⟨hlower, rfl⟩
    cases heq
    cases hnone : lowerLayers reader disk environment systemFile none with
    | ok below =>
      rw [hnone] at h
      cases h
      rcases hcause with huser | ⟨hstarted, hsystem⟩
      · exact .endless huser hnone
      · exact .system (Or.inl hstarted) hsystem
    | error error' =>
      rw [hnone] at h
      cases h
      obtain ⟨loadError, rfl, ⟨path, hpath, -⟩ | ⟨-, hsystem⟩⟩ :=
        (lowerLayers_unforeseen_iff henvironment).1 ⟨hnone, hstatus⟩
      · cases hpath
      · exact .system (hcause.symm.imp And.left id) hsystem
  · next hends hlower =>
    cases h
    obtain ⟨loadError, rfl, huser | ⟨hstarted, hsystem⟩⟩ :=
      (lowerLayers_unforeseen_iff henvironment).1 ⟨hlower, hstatus⟩
    · exact .user huser fun heq => hends (heq ▸ rfl)
    · exact .system (Or.inl hstarted) hsystem
  · cases h

end

theorem layers_of_lowerLayers (hends : error ≠ .load .endless)
    (h : lowerLayers reader disk environment systemFile file = .error error) :
    layers reader disk environment systemFile file layer = .error error := by
  unfold layers
  rw [h]
  split
  · next heq =>
    cases heq
    exact absurd rfl hends
  · next heq =>
    cases heq
    rfl
  · next heq => cases heq

/-- Behind a mapping that contains itself, the rest is loaded as if there were no file of the
user. -/
theorem layers_of_endless
    (h : lowerLayers reader disk environment systemFile file = .error (.load .endless)) :
    layers reader disk environment systemFile file layer =
      match lowerLayers reader disk environment systemFile none with
      | .error error => .error error
      | .ok _ => .error (.load .endless) := by
  cases hnone : lowerLayers reader disk environment systemFile none with
  | error error => simp only [layers, h, hnone]
  | ok below => simp only [layers, h, hnone]

section

variable (henvironment : Config.SetsNothing environment)

include henvironment

theorem Upset.layers_eq {loadError : Config.LoadError}
    (h : Upset reader disk environment systemFile file layer (.load loadError)) :
    layers reader disk environment systemFile file layer = .error (.load loadError) ∧
      loadError.status? = none := by
  have hlower (file : Option Text) := @lowerLayers_unforeseen_iff reader disk environment systemFile
    file (.load loadError) henvironment
  have hendless (huser : UpsetByUser reader disk file .endless) :
      lowerLayers reader disk environment systemFile file = .error (.load .endless) :=
    ((lowerLayers_unforeseen_iff henvironment).2 ⟨_, rfl, Or.inl huser⟩).1
  cases h with
  | user huser hends =>
    obtain ⟨hlower, hstatus⟩ := (hlower file).2 ⟨_, rfl, Or.inl huser⟩
    exact ⟨layers_of_lowerLayers (by simpa using hends) hlower, hstatus⟩
  | system hloads hsystem =>
    -- the file of the system upsets the run with the file of the user and without it
    obtain ⟨hnone, hstatus⟩ :=
      (hlower none).2 ⟨_, rfl, Or.inr ⟨start_none_eq_ok henvironment, hsystem⟩⟩
    refine ⟨?_, hstatus⟩
    rcases hloads with hstarted | huser
    · obtain ⟨hfile, -⟩ := (hlower file).2 ⟨_, rfl, Or.inr ⟨hstarted, hsystem⟩⟩
      by_cases hends : loadError = .endless
      · subst hends
        rw [layers_of_endless hfile, hnone]
      · exact layers_of_lowerLayers (by simpa using hends) hfile
    · rw [layers_of_endless (hendless huser), hnone]
  | endless huser hsystem =>
    rw [layers_of_endless (hendless huser), hsystem]
    exact ⟨rfl, rfl⟩

theorem upset_of_configuration
    (h : configuration reader disk environment systemFile file layer = .error error)
    (hstatus : error.status? = none) :
    Upset reader disk environment systemFile file layer error := by
  unfold configuration at h
  split at h
  · next hlayers =>
    cases h
    exact upset_of_layers henvironment hlayers hstatus
  · next merged hlayers =>
    split at h
    · next formError hcheck =>
      cases h
      obtain rfl : formError = .overlong := by
        cases formError with
        | overlong => rfl
        | _ => cases hstatus
      obtain ⟨part, hpart, hshow⟩ := Config.shownPart_of_overlong hcheck
      exact .overlong hlayers hpart hshow hcheck
    · cases h

theorem Upset.configuration_eq (h : Upset reader disk environment systemFile file layer error) :
    configuration reader disk environment systemFile file layer = .error error ∧
      error.status? = none := by
  unfold configuration
  cases error with
  | load loadError =>
    obtain ⟨hlayers, hstatus⟩ := h.layers_eq henvironment
    rw [hlayers]
    exact ⟨rfl, hstatus⟩
  | environment environmentError => cases h
  | form formError =>
    cases h with
    | overlong hlayers _ _ hcheck =>
      rw [hlayers]
      dsimp only
      rw [hcheck]
      exact ⟨rfl, rfl⟩

theorem configuration_unforeseen_iff :
    configuration reader disk environment systemFile file layer = .error error ∧
      error.status? = none ↔ Upset reader disk environment systemFile file layer error :=
  ⟨fun ⟨h, hstatus⟩ => upset_of_configuration henvironment h hstatus,
    fun h => h.configuration_eq henvironment⟩

end

/-- With a reader that answers, the contents of files upset a run by bytes that are no text, by
mappings that contain themselves and by numbers with too many digits. -/
theorem Upset.of_answers (hreader : reader.Answers)
    (h : Upset reader disk environment systemFile file layer error) :
    error = .load .endless ∨ error = .form .overlong ∨
      ∃ fileError, error = .load (.unavailable fileError) := by
  have hload {loadError : Config.LoadError} {path : Text}
      (h : Config.Upsets reader disk path loadError) :
      ConfigurationError.load loadError = .load .endless ∨
        ConfigurationError.load loadError = .form .overlong ∨
        ∃ fileError, ConfigurationError.load loadError = .load (.unavailable fileError) := by
    rcases h.of_answers hreader with rfl | ⟨fileError, rfl⟩
    · exact Or.inl rfl
    · exact Or.inr (Or.inr ⟨fileError, rfl⟩)
  cases h with
  | user h =>
    obtain ⟨path, -, -, h⟩ := h
    exact hload h
  | system _ h =>
    obtain ⟨path, -, -, h⟩ := h
    exact hload h
  | endless => exact Or.inl rfl
  | overlong => exact Or.inr (Or.inl rfl)

theorem status_mem {status : Status} (h : error.status? = some status) :
    status ∈ [Status.invalidInput, .notFound, .permissionDenied] := by
  cases error with
  | load loadError => cases loadError <;> cases h <;> decide
  | environment environmentError => cases h
  | form formError => cases formError <;> cases h <;> decide

theorem configuration_of_layers {merged : Config.Layers}
    (h : layers reader disk environment systemFile file layer = .ok merged) :
    configuration reader disk environment systemFile file layer =
      ((Config.check (.map merged.merged)).mapError .form).map fun _ => merged.merged := by
  unfold configuration
  rw [h]
  dsimp only
  cases Config.check (.map merged.merged) <;> rfl

theorem check_of_configuration {config : Mapping}
    (h : configuration reader disk environment systemFile file layer = .ok config) :
    Config.check (.map config) = .ok () := by
  unfold configuration at h
  split at h
  · cases h
  · split at h
    · cases h
    · next hcheck =>
      cases h
      exact hcheck

/-- A part that the upper mapping has as a mapping is one after merging, whatever the lower has
there. -/
theorem exists_mapping_merge {entries given : Mapping} {key : Text} (distinct : entries.Distinct)
    (h : entries.getText? key = some (.map given)) (base : Mapping) :
    ∃ merged, (Config.merge base entries).getText? key = some (.map merged) := by
  have hget : (Config.merge base entries).getText? key =
      some (Config.overlay (base.getText? key) (.map given)) := by
    unfold Mapping.getText? at h ⊢
    rw [Config.get?_merge distinct, h]
  rw [hget, Config.overlay_map]
  exact ⟨_, rfl⟩

/-- The layer of a command line has a section even where nothing is given, so that every
configuration that is merged with it has one that is a mapping. -/
theorem section_of_configuration {arguments : Arguments} {config : Mapping}
    (hlayer : arguments.config? = .ok layer)
    (h : configuration reader disk environment systemFile file layer = .ok config) :
    ∃ section_, config.getText? Config.sectionKey = some (.map section_) := by
  obtain ⟨named, hnamed⟩ : ∃ named, rolesOfValues (arguments.roles.getD []) = .ok named := by
    unfold Arguments.config? at hlayer
    split at hlayer
    · cases hlayer
    · next named hnamed => exact ⟨named, hnamed⟩
  obtain rfl : arguments.layer named = layer :=
    Except.ok.inj ((arguments.config?_eq_ok hnamed).symm.trans hlayer)
  obtain ⟨below, ⟨hcommandLine, hruntime⟩, rfl⟩ := layers_of_configuration h
  have nodup : ([(Config.sectionKey,
      some (Value.map (Mapping.ofGiven (arguments.settings named))))].map (·.1)).Nodup :=
    List.nodup_singleton _
  have hgiven : (arguments.layer named).getText? Config.sectionKey = some (.map _) :=
    Mapping.getText?_ofGiven nodup List.mem_cons_self
  -- the layer is copied, and the copy is merged
  obtain ⟨copied, hcopied⟩ :=
    exists_mapping_merge (Mapping.distinct_ofGiven nodup) hgiven []
  rw [merged_set_commandLine hcommandLine hruntime]
  have hdistinct : (Config.merge [] (arguments.layer named)).Distinct :=
    Config.distinct_merge (show Mapping.Distinct [] from .nil) _
  exact exists_mapping_merge hdistinct hcopied _

/-! ### The journal -/

/-- What the journal needs of a configuration that passes its check: a level that is not there and
null, unless the arguments ask for the lowest, and for a log file a value with a path that can be
opened. -/
structure JournalOpens (arguments : Arguments) (config : Mapping) (output : Log.Output) : Prop where
  level : arguments.debug = true ∨ (loggingOf config).getText? "level" ≠ some .null
  file : ∀ value, logFileOf arguments config = some value → ∃ path opened,
    value.path? = some path ∧ output.openFile path logFileLimit logFileBackups = .ok opened

theorem openLogFile_ok_iff {journal : Log.Journal} {value : Value} {output : Log.Output} :
    (∃ opened, openLogFile journal value output = .ok opened) ↔ ∃ path opened,
      value.path? = some path ∧
        output.openFile path logFileLimit logFileBackups = .ok opened := by
  unfold openLogFile
  cases value.path? with
  | none => simp
  | some path =>
    dsimp only
    cases hopened : output.openFile path logFileLimit logFileBackups with
    | error error => simp [hopened]
    | ok opened => simp [hopened]

theorem openJournal_ok_iff {arguments : Arguments} {config : Mapping}
    (hcheck : Config.check (.map config) = .ok ()) (time : Text) (output : Log.Output) :
    (∃ opened, openJournal arguments config time output = .ok opened) ↔
      JournalOpens arguments config output := by
  obtain ⟨level, -, hknown, hunknown⟩ := threshold_levelOf arguments (loggingOf_of_check hcheck).2
  by_cases hlevel : arguments.debug = true ∨ (loggingOf config).getText? "level" ≠ some .null
  · unfold openJournal
    rw [hknown hlevel]
    dsimp only
    cases hfile : logFileOf arguments config with
    | none =>
      refine ⟨fun _ => ⟨hlevel, fun value h => ?_⟩, fun _ => ⟨_, rfl⟩⟩
      cases hfile.symm.trans h
    | some value =>
      dsimp only
      generalize Log.Journal.start journalName time (.ofLevel level) = journal
      have hmap : (∃ opened, (openLogFile journal value output).map (journal, ·) = .ok opened) ↔
          ∃ opened, openLogFile journal value output = .ok opened := by
        cases openLogFile journal value output <;> simp [Except.map]
      rw [hmap, openLogFile_ok_iff]
      refine ⟨fun h => ⟨hlevel, fun value' h' => ?_⟩, fun h => h.file value hfile⟩
      cases hfile.symm.trans h'
      exact h
  · refine ⟨?_, fun h => absurd h.level hlevel⟩
    rintro ⟨opened, h⟩
    obtain ⟨hdebug, hnull⟩ := not_or.1 hlevel
    rw [openJournal_of_error (hunknown (Bool.eq_false_iff.2 hdebug) (not_not.1 hnull))] at h
    cases h

/-! ### The whole run -/

section

variable (world : World) (arguments : Arguments) (layer : Mapping)

/-- The configuration of a run with arguments, of which `layer` is the layer. -/
def World.configuration : Except ConfigurationError Mapping :=
  Run.configuration world.reader world.disk world.environment world.systemFile
    (SwitchValue.given? arguments.config) layer

/-- What upsets this configuration. -/
def World.Upset : ConfigurationError → Prop :=
  Run.Upset world.reader world.disk world.environment world.systemFile
    (SwitchValue.given? arguments.config) layer

theorem runArguments_eq : world.runArguments arguments layer =
    if world.interrupted then world.stop (.exit interruptedCode) ["\nInterrupted by user"]
    else
      match world.configuration arguments layer with
      | .error error =>
        match error.status? with
        | some status => world.fail status error.message
        | none => world.stop (.escape (.configuration error)) []
      | .ok config => world.runWith arguments config := rfl

end

/-- The code is that of a status, or that of an interrupted run. -/
def IsDocumented (code : Nat) : Prop :=
  code = interruptedCode ∨ ∃ status : Status, code = status.code

/-- The program ends with such a code. -/
def Report.EndsAsDocumented (report : Report) : Prop :=
  ∃ code, report.ending = .exit code ∧ IsDocumented code

theorem isDocumented_course (course : Fault.Course) : IsDocumented course.code := by
  cases course with
  | foreseen status => exact Or.inr ⟨status, rfl⟩
  | interrupted => exact Or.inl rfl
  | unforeseen _ => exact Or.inr ⟨.internalError, rfl⟩

theorem isDocumented_run (journal : Log.Journal) (config : Mapping) (accounts : Accounts)
    (input : Input) (site : Option Site) (root : Text) (check : Bool) (output : Log.Output) :
    IsDocumented (run journal config accounts input site root check output).code := by
  obtain ⟨output', -, ⟨fault, -, hrun⟩ | ⟨prepared, -, hrun⟩⟩ :=
    run_cases journal config accounts input root output
  · rw [hrun site check]
    exact isDocumented_course fault.course
  · cases check with
    | true =>
      rw [(hrun site).1]
      exact Or.inr ⟨.success, rfl⟩
    | false =>
      rw [(hrun site).2]
      unfold normalize
      dsimp only
      split
      · exact Or.inr ⟨.success, rfl⟩
      · exact isDocumented_course _

variable {world : World} {arguments : Arguments}

theorem endsAsDocumented_fail (status : Status) (message : Text) :
    (world.fail status message).EndsAsDocumented := ⟨_, rfl, Or.inr ⟨status, rfl⟩⟩

theorem not_endsAsDocumented_of_escape {report : Report} {escape : Escape}
    (h : report.ending = .escape escape) : ¬ report.EndsAsDocumented := by
  rintro ⟨code, hcode, -⟩
  cases h.symm.trans hcode

/-- With a configuration that passes its check, only the journal is left to be opened. -/
theorem runWith_ends {config : Mapping} (hcheck : Config.check (.map config) = .ok ()) :
    JournalOpens arguments config world.output ∧ (world.runWith arguments config).EndsAsDocumented ∨
      ¬ JournalOpens arguments config world.output ∧
        ∃ error, (world.runWith arguments config).ending = .escape (.journal error) := by
  rw [← openJournal_ok_iff hcheck world.time world.output]
  unfold World.runWith
  cases openJournal arguments config world.time world.output with
  | error error => exact Or.inr ⟨fun ⟨_, h⟩ => (by cases h), error, rfl⟩
  | ok opened => exact Or.inl ⟨⟨opened, rfl⟩, _, rfl, isDocumented_run ..⟩

/-- The run is interrupted, or upset, or ended by an error with a status, or it has its
configuration. -/
theorem runArguments_cases (henvironment : Config.SetsNothing world.environment) (layer : Mapping) :
    let report := world.runArguments arguments layer
    world.interrupted = true ∧ report.EndsAsDocumented ∨ world.interrupted = false ∧
      ((∃ error, world.Upset arguments layer error ∧
        report.ending = .escape (.configuration error)) ∨
        (∃ error status, world.configuration arguments layer = .error error ∧
          error.status? = some status ∧ report = world.fail status error.message) ∨
        ∃ config, world.configuration arguments layer = .ok config ∧
          report = world.runWith arguments config) := by
  intro report
  unfold report
  rw [runArguments_eq]
  cases world.interrupted with
  | true => exact Or.inl ⟨rfl, _, rfl, Or.inl rfl⟩
  | false =>
    refine Or.inr ⟨rfl, ?_⟩
    rw [if_neg Bool.false_ne_true]
    cases hresult : world.configuration arguments layer with
    | ok config => exact Or.inr (Or.inr ⟨config, rfl, rfl⟩)
    | error error =>
      dsimp only
      cases hstatus : error.status? with
      | none => exact Or.inl ⟨error, upset_of_configuration henvironment hresult hstatus, rfl⟩
      | some status => exact Or.inr (Or.inl ⟨error, status, rfl, hstatus, rfl⟩)

theorem runArguments_ends (henvironment : Config.SetsNothing world.environment) (layer : Mapping) :
    let report := world.runArguments arguments layer
    (report.EndsAsDocumented ↔ world.interrupted = true ∨
      (∀ error, ¬ world.Upset arguments layer error) ∧
        ∀ config, world.configuration arguments layer = .ok config →
          JournalOpens arguments config world.output) ∧
    (report.EndsAsDocumented ∨ ∃ escape, report.ending = .escape escape) := by
  intro report
  rcases runArguments_cases henvironment layer with ⟨hinterrupted, hends⟩ | ⟨hrunning, hcases⟩
  · exact ⟨⟨fun _ => Or.inl hinterrupted, fun _ => hends⟩, Or.inl hends⟩
  have hnot : world.interrupted ≠ true := Bool.eq_false_iff.1 hrunning
  rcases hcases with ⟨error, hupset, hescape⟩ | ⟨error, status, hresult, hstatus, hreport⟩ |
    ⟨config, hresult, hreport⟩
  · refine ⟨⟨fun h => absurd h (not_endsAsDocumented_of_escape hescape), ?_⟩, Or.inr ⟨_, hescape⟩⟩
    rintro (h | ⟨hfine, -⟩)
    · exact absurd h hnot
    · exact absurd hupset (hfine error)
  · have hends : report.EndsAsDocumented := by
      unfold report
      rw [hreport]
      exact endsAsDocumented_fail status error.message
    refine ⟨⟨fun _ => Or.inr ⟨fun error' hupset => ?_, fun config h => ?_⟩,
      fun _ => hends⟩, Or.inl hends⟩
    · obtain ⟨hresult', hstatus'⟩ := hupset.configuration_eq henvironment
      cases hresult.symm.trans hresult'
      cases hstatus.symm.trans hstatus'
    · cases hresult.symm.trans h
  · have hfine (error : ConfigurationError) : ¬ world.Upset arguments layer error := by
      intro hupset
      cases hresult.symm.trans (hupset.configuration_eq henvironment).1
    have hwith := @runWith_ends world arguments config (check_of_configuration hresult)
    rw [← hreport] at hwith
    rcases hwith with ⟨hopens, hends⟩ | ⟨hcloses, error, hescape⟩
    · refine ⟨⟨fun _ => Or.inr ⟨hfine, fun config' h => ?_⟩, fun _ => hends⟩, Or.inl hends⟩
      cases hresult.symm.trans h
      exact hopens
    · refine ⟨⟨fun h => absurd h (not_endsAsDocumented_of_escape hescape), ?_⟩, Or.inr ⟨_, hescape⟩⟩
      rintro (h | ⟨-, hopens⟩)
      · exact absurd h hnot
      · exact absurd (hopens config hresult) hcloses

theorem program_eq {arguments : Arguments} {layer : Mapping}
    (hlayer : arguments.config? = .ok layer)
    (hwords : Arguments.ofTexts world.words = .ok arguments)
    (hvalid : arguments.validate world.disk = .ok ()) :
    program world = world.runArguments arguments layer := by
  have haccept : acceptArguments arguments world.disk = .ok (arguments, layer) := by
    unfold acceptArguments
    rw [hvalid, hlayer]
  unfold program
  rw [hwords]
  dsimp only
  rw [haccept]

/-- Let no variable of the environment count. Then a run has a configuration that passes its check,
and the section in it is a mapping, or it ends with an error that has a status, unless it is upset;
and it ends with a code that is documented as long as it is not upset and, once it has its
configuration, its journal opens. Otherwise the error escapes it. If the reader of documents
answers, what upsets a run is a file that cannot be looked for or is no text, a mapping that
contains itself, or a number with too many digits. -/
theorem configuration_ends (world : World) {arguments : Arguments} {layer : Mapping}
    (hlayer : arguments.config? = .ok layer) (henvironment : Config.SetsNothing world.environment) :
    let report := world.runArguments arguments layer
    (∀ config, world.configuration arguments layer = .ok config →
      Config.check (.map config) = .ok () ∧
        ∃ section_, config.getText? Config.sectionKey = some (.map section_)) ∧
    (∀ error, world.Upset arguments layer error ↔
      world.configuration arguments layer = .error error ∧ error.status? = none) ∧
    (world.reader.Answers → ∀ error, world.Upset arguments layer error →
      error = .load .endless ∨ error = .form .overlong ∨
        ∃ fileError, error = .load (.unavailable fileError)) ∧
    (∀ error status, world.configuration arguments layer = .error error →
      error.status? = some status →
      status ∈ [Status.invalidInput, .notFound, .permissionDenied] ∧
        (world.interrupted = false → report = world.fail status error.message)) ∧
    (report.EndsAsDocumented ↔ world.interrupted = true ∨
      (∀ error, ¬ world.Upset arguments layer error) ∧
        ∀ config, world.configuration arguments layer = .ok config →
          JournalOpens arguments config world.output) ∧
    (report.EndsAsDocumented ∨ ∃ escape, report.ending = .escape escape) ∧
    (Arguments.ofTexts world.words = .ok arguments → arguments.validate world.disk = .ok () →
      program world = report) := by
  intro report
  have hupset (error : ConfigurationError) : world.Upset arguments layer error ↔
      world.configuration arguments layer = .error error ∧ error.status? = none :=
    (configuration_unforeseen_iff henvironment).symm
  obtain ⟨hends, hescapes⟩ := @runArguments_ends world arguments henvironment layer
  refine ⟨fun config h => ⟨check_of_configuration h, section_of_configuration hlayer h⟩, hupset,
    fun hreader _ h => h.of_answers hreader,
    fun error status h hstatus => ⟨status_mem hstatus, fun hrunning => ?_⟩, hends, hescapes,
    program_eq hlayer⟩
  unfold report
  rw [runArguments_eq, hrunning, if_neg Bool.false_ne_true, h]
  dsimp only
  rw [hstatus]

/-- The reader of the language, which takes every text that it fails on for a malformed one. -/
def answeringReader : Reader where
  read text := (Yaml.reader.read text).mapError fun
    | .crash _ => .malformed
    | fault => fault

theorem answers_answeringReader : answeringReader.Answers := by
  intro text fault h
  change (Yaml.reader.read text).mapError _ = _ at h
  cases hread : Yaml.reader.read text with
  | ok value =>
    rw [hread] at h
    cases h
  | error error =>
    rw [hread] at h
    cases error <;> cases h

/-- The file `c.yaml` of the working directory holds bytes, and a run is to check with it as its
configuration. -/
def checkingWorld (bytes : List UInt8) : World where
  words := ["-c".toList, "c.yaml", "--check"]
  environment := [("HOME".toList, "/root".toList)]
  disk := ⟨["work".toList], [], [(["work".toList, "c.yaml"], .file bytes)]⟩
  reader := answeringReader
  systemFile := some "/etc/treerights/config.yaml"
  input := ⟨.ok [], false⟩
  accounts := .ofLists [] []
  site := none
  interrupted := false
  time := "now"

def checkingArguments : Arguments :=
  { Arguments.empty with config := some (.text "c.yaml"), check := true }

def checkingLayer : Mapping := [(.str Config.sectionKey, .map [])]

theorem setsNothing_checkingWorld (bytes : List UInt8) :
    Config.SetsNothing (checkingWorld bytes).environment :=
  List.forall_mem_singleton.2 (by decide)

theorem configuration_checkingWorld {bytes : List UInt8} {entries config : Mapping}
    (h : Config.ofFile (checkingWorld bytes).reader (checkingWorld bytes).disk "c.yaml" =
      .ok entries)
    (hconfig : ((Config.Layers.initial.set .user entries).set .commandLine checkingLayer).merged =
      config) :
    (checkingWorld bytes).configuration checkingArguments checkingLayer =
      ((Config.check (.map config)).mapError .form).map fun _ => config := by
  have hstart := Config.start_of_ofFile (setsNothing_checkingWorld bytes) (by decide) h
  have hfile : SwitchValue.given? checkingArguments.config = some "c.yaml".toList := rfl
  have hcopy : Config.merge [] checkingLayer = checkingLayer := rfl
  subst hconfig
  refine configuration_of_layers ?_
  refine CommandLine.layers_eq_ok_iff.2 ⟨_, ?_, by rw [hcopy]⟩
  unfold lowerLayers
  rw [hfile, hstart]
  rfl

/-- A section that is null is made a mapping by what lies above it, and a flag that is null is
refused. -/
theorem configuration_ends_nullSection :
    let world := checkingWorld (Text.toUtf8 "'treerights':")
    let refused := checkingWorld (Text.toUtf8 "'treerights': \x7b'verbose': \x7d")
    checkingArguments.config? = .ok checkingLayer ∧
      Config.SetsNothing world.environment ∧ Config.SetsNothing refused.environment ∧
      world.reader.Answers ∧
      Arguments.ofTexts world.words = .ok checkingArguments ∧
      checkingArguments.validate world.disk = .ok () ∧
      world.configuration checkingArguments checkingLayer = .ok checkingLayer ∧
      (program world).EndsAsDocumented ∧
      refused.runArguments checkingArguments checkingLayer =
        refused.fail .invalidInput "'verbose' must be boolean: None" := by
  intro world refused
  have hlayer : checkingArguments.config? = .ok checkingLayer := rfl
  have hwords : Arguments.ofTexts world.words = .ok checkingArguments := rfl
  have hvalid : checkingArguments.validate world.disk = .ok () := rfl
  have hconfig : world.configuration checkingArguments checkingLayer = .ok checkingLayer := by
    have hload : Config.ofFile world.reader world.disk "c.yaml" =
        .ok [(.str "treerights", .null)] :=
      @Config.ofFile_of_read _ _ _ "/work/c.yaml" "'treerights':" _ rfl (by cbv) (by cbv)
    exact configuration_checkingWorld hload rfl
  have hrefused : refused.configuration checkingArguments checkingLayer =
      .error (.form (.flagNotBoolean "verbose" .null)) := by
    have hload : Config.ofFile refused.reader refused.disk "c.yaml" =
        .ok [(.str "treerights", .map [(.str "verbose", .null)])] :=
      @Config.ofFile_of_read _ _ _ "/work/c.yaml" "'treerights': \x7b'verbose': \x7d" _ rfl (by cbv)
        (by cbv)
    exact configuration_checkingWorld hload rfl
  obtain ⟨-, hupset, -, -, hends, -, hprogram⟩ :=
    configuration_ends world hlayer (setsNothing_checkingWorld _)
  obtain ⟨-, -, -, hfails, -⟩ := configuration_ends refused hlayer (setsNothing_checkingWorld _)
  refine ⟨hlayer, setsNothing_checkingWorld _, setsNothing_checkingWorld _,
    answers_answeringReader, hwords, hvalid, hconfig, ?_,
    (hfails _ _ hrefused rfl).2 rfl⟩
  rw [hprogram hwords hvalid]
  refine hends.2 (Or.inr ⟨fun error h => ?_, fun config h => ?_⟩)
  · cases hconfig.symm.trans ((hupset error).1 h).1
  · cases hconfig.symm.trans h
    exact ⟨Or.inr fun h => (by cases h), fun value h => (by cases h)⟩

/-- Bytes that are no text are an error that has no status, and it escapes the program. -/
theorem configuration_escapes_undecodable :
    let world := checkingWorld [0xff]
    let error : ConfigurationError :=
      .load (.unavailable (.undecodable ⟨.invalidStart, 0, 1, 0xff⟩))
    checkingArguments.config? = .ok checkingLayer ∧ Config.SetsNothing world.environment ∧
      world.reader.Answers ∧ Arguments.ofTexts world.words = .ok checkingArguments ∧
      world.configuration checkingArguments checkingLayer = .error error ∧ error.status? = none ∧
      (program world).ending = .escape (.configuration error) ∧
      ¬ (program world).EndsAsDocumented := by
  intro world error
  have hending : (program world).ending = .escape (.configuration error) := rfl
  exact ⟨rfl, setsNothing_checkingWorld _, answers_answeringReader, rfl, rfl, rfl, hending,
    not_endsAsDocumented_of_escape hending⟩

end Run

end PathRights
