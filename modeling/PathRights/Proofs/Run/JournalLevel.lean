import PathRights.Proofs.Run.Settings
import PathRights.Proofs.Value.Shown

/-! The level of the journal of a run. The check of a configuration shows a value as text and looks
for a level of this name, where the journal takes texts only. So it has to be seen that no other
value reads like the name of a level when it is shown: it shows a digit or a mark, or it is one of a
few words. What is left between the two is a level that is null, which the check takes for none and
the journal for a level. -/

namespace PathRights

namespace Text

/-- The character stays as it is in upper case, and no name of a level has it. -/
def isMark (c : Char) : Bool := upperChar c == [c] && !c.isUpper

theorem isMark_digit {n : Nat} (h : n < 10) : isMark (digit n) = true := by
  revert n
  decide +kernel

theorem any_isMark_ofNat (n : Nat) : (ofNat n).any isMark = true := by
  unfold ofNat
  rw [numeral]
  split
  · next h => simp [isMark_digit (show n < 10 by omega)]
  · simp [isMark_digit (show n % 10 < 10 by omega)]

theorem any_isMark_ofInt (n : Int) : (ofInt n).any isMark = true := by
  cases n with
  | ofNat n => exact any_isMark_ofNat n
  | negSucc n => simp [ofInt, any_isMark_ofNat]

end Text

namespace Log.Level

/-- The name of a level has letters only, and all of them in upper case. -/
theorem isUpper_name {level : Level} {c : Char} (h : c ∈ level.name) : c.isUpper = true := by
  have hall : level.name.all Char.isUpper = true := by cases level <;> rfl
  exact List.all_eq_true.1 hall c h

/-- A text with a character that is in no name is the name of no level, in any case. -/
theorem ofName?_upper_of_any_isMark {text : Text} (h : text.any Text.isMark = true) :
    ofName? text.upper = none := by
  obtain ⟨c, hmem, hmark⟩ := List.any_eq_true.1 h
  obtain ⟨hupper, hletter⟩ := Bool.and_eq_true_iff.1 hmark
  unfold ofName?
  refine List.find?_eq_none.2 fun level _ hname => ?_
  have hin : c ∈ level.name := by
    rw [eq_of_beq hname]
    unfold Text.upper
    refine List.mem_flatMap.2 ⟨c, hmem, ?_⟩
    rw [eq_of_beq hupper]
    exact List.mem_singleton_self c
  rw [isUpper_name hin] at hletter
  exact absurd hletter (by decide)

/-- In a log, a text sets the level that it names in any case. -/
theorem threshold_of_name {text : Text} {level : Level} (h : ofName? text.upper = some level) :
    Threshold.ofValue (.str text) = .ok (.ofLevel level) := by
  unfold Threshold.ofValue Value.str
  dsimp only
  rw [h]

end Log.Level

namespace Config

theorem isLevel_eq_false_of_any_isMark {value : Value} (h : value.text.any Text.isMark = true) :
    isLevel value = false := by
  unfold isLevel
  rw [Log.Level.ofName?_upper_of_any_isMark h]
  rfl

/-- Only a text reads like the name of a level. -/
theorem str_of_isLevel {value : Value} (h : isLevel value = true) : ∃ text, value = .str text := by
  have other : value.text.any Text.isMark ≠ true := fun hmark =>
    Bool.false_ne_true ((isLevel_eq_false_of_any_isMark hmark).symm.trans h)
  rcases value.shown_cases with htext | ⟨n, rfl⟩ | hword | ⟨c, hmark, hmem⟩
  · exact htext
  · exact absurd (Text.any_isMark_ofInt n) other
  · have hwords : ∀ text ∈ Value.words, (Log.Level.ofName? text.upper).isSome ≠ true := by
      decide +kernel
    exact absurd h (hwords value.text hword)
  · have hmarks : (".-+".toList ++ Foreign.marks).all Text.isMark = true := by decide +kernel
    exact absurd (List.any_eq_true.2 ⟨c, hmem, List.all_eq_true.1 hmarks c hmark⟩) other

theorem entries_of_part {section_ entries : Mapping} {key : Text}
    (h : part? section_ key = some entries) :
    ((Run.something? (section_.getText? key)).bind Value.entries?).getD [] = entries := by
  unfold part? at h
  cases hget : section_.getText? key with
  | none =>
    rw [hget] at h
    exact Option.some.inj h
  | some value =>
    rw [hget] at h
    dsimp only at h
    cases hempty : value.isEmpty with
    | true =>
      rw [hempty] at h
      simpa [Run.something?, Option.filter, hempty] using h
    | false =>
      rw [hempty] at h
      have hvalue : value.entries? = some entries := h
      simp [Run.something?, Option.filter, hempty, hvalue]

/-- A level that is set is null, or a text that is the name of a level in any case. -/
theorem level_of_checkLogging {section_ : Mapping} (h : checkLogging section_ = .ok ()) :
    ∃ logging, part? section_ "logging" = some logging ∧
      ∀ value, logging.getText? "level" = some value →
        value = .null ∨
          ∃ text level, value = .str text ∧ Log.Level.ofName? text.upper = some level := by
  unfold checkLogging at h
  cases hpart : part? section_ "logging" with
  | none =>
    rw [hpart] at h
    cases h
  | some logging =>
    rw [hpart] at h
    refine ⟨logging, rfl, fun value hvalue => ?_⟩
    dsimp only at h
    split at h
    · next hnone => cases hnone.symm.trans hvalue
    · next hnull => exact Or.inl (Option.some.inj (hvalue.symm.trans hnull))
    · next value' _ hvalue' =>
      obtain rfl : value' = value := Option.some.inj (hvalue'.symm.trans hvalue)
      split at h
      · next hlevel =>
        obtain ⟨text, rfl⟩ := str_of_isLevel hlevel
        obtain ⟨level, hname⟩ := Option.isSome_iff_exists.1 hlevel
        exact Or.inr ⟨text, level, rfl, hname⟩
      · cases h

end Config

namespace Run

open CommandLine

/-- The level that a run is asked to open its journal at: the lowest if the arguments say so, else
the one that is configured, in any case, or that of information if none is. -/
def requestedLevel? (arguments : Arguments) (config : Mapping) : Option Log.Level :=
  if arguments.debug then some .debug
  else
    match (loggingOf config).getText? "level" with
    | none | some (.scalar .null) => some .info
    | some value => Log.Level.ofName? value.text.upper

/-- What is set for the log, in a configuration that passes its check. -/
theorem loggingOf_of_check {config : Mapping} (h : Config.check (.map config) = .ok ()) :
    (∀ value, something? ((sectionOf config).getText? "logging") = some value →
        value = .map (loggingOf config)) ∧
      ∀ value, (loggingOf config).getText? "level" = some value →
        value = .null ∨
          ∃ text level, value = .str text ∧ Log.Level.ofName? text.upper = some level := by
  rcases Config.check_cases h with hnone | ⟨section_, hsection, hchecked⟩
  · have hempty : sectionOf config = [] := by
      unfold sectionOf
      rw [hnone]
      rfl
    unfold loggingOf
    rw [hempty]
    exact ⟨fun value hvalue => (by cases hvalue), fun value hvalue => (by cases hvalue)⟩
  · have hsame : sectionOf config = section_ := by
      unfold sectionOf
      rw [hsection]
      rfl
    obtain ⟨logging, hpart, hlevel⟩ :=
      Config.level_of_checkLogging (Config.wellFormed_of_checkSection hchecked).logging
    have hlogging : loggingOf config = logging := by
      unfold loggingOf
      rw [hsame]
      exact Config.entries_of_part hpart
    rw [hsame, hlogging]
    exact ⟨fun value hvalue => Config.something_of_part hpart hvalue, hlevel⟩

/-- The level that is asked for is the one that the journal takes, unless what is set is null. -/
theorem threshold_levelOf (arguments : Arguments) {config : Mapping}
    (h : ∀ value, (loggingOf config).getText? "level" = some value →
      value = .null ∨ ∃ text level, value = .str text ∧ Log.Level.ofName? text.upper = some level) :
    let nullLevel := (loggingOf config).getText? "level" = some .null
    ∃ level, requestedLevel? arguments config = some level ∧
      (arguments.debug = true ∨ ¬ nullLevel →
        Log.Threshold.ofValue (levelOf arguments config) = .ok (.ofLevel level)) ∧
      (arguments.debug = false → nullLevel →
        Log.Threshold.ofValue (levelOf arguments config) = .error (.badType .null)) := by
  intro nullLevel
  unfold requestedLevel? levelOf
  cases arguments.debug with
  | true =>
    refine ⟨.debug, rfl, fun _ => ?_, fun hdebug => (by cases hdebug)⟩
    exact Log.Level.threshold_of_name (by decide +kernel)
  | false =>
    cases hget : (loggingOf config).getText? "level" with
    | none =>
      refine ⟨.info, rfl, fun _ => ?_, fun _ hnull => (by cases hget.symm.trans hnull)⟩
      exact Log.Level.threshold_of_name (by decide +kernel)
    | some value =>
      obtain rfl | ⟨text, level, rfl, hname⟩ := h value hget
      · refine ⟨.info, rfl, fun hfine => ?_, fun _ _ => rfl⟩
        exact absurd hget (hfine.resolve_left Bool.false_ne_true)
      · refine ⟨level, hname, fun _ => Log.Level.threshold_of_name hname, fun _ hnull => ?_⟩
        cases hget.symm.trans hnull

theorem openJournal_of_threshold {arguments : Arguments} {config : Mapping}
    {threshold : Log.Threshold} (hfile : logFileOf arguments config = none)
    (h : Log.Threshold.ofValue (levelOf arguments config) = .ok threshold) (time : Text)
    (output : Log.Output) :
    openJournal arguments config time output = .ok (.start journalName time threshold, output) := by
  simp only [openJournal, h, hfile]

theorem openJournal_of_error {arguments : Arguments} {config : Mapping}
    {error : Log.ThresholdError}
    (h : Log.Threshold.ofValue (levelOf arguments config) = .error error) (time : Text)
    (output : Log.Output) :
    openJournal arguments config time output = .error (.threshold error) := by
  simp only [openJournal, h]

/-- A configuration that passes its check names a level for the journal, unless it leaves the
choice. A run with no log file opens its journal at the level that is asked for, but where the level
is there and null: the check takes this for no level, and the journal for a level that it does not
know. -/
theorem openJournal_of_check {arguments : Arguments} {config : Mapping}
    (hcheck : Config.check (.map config) = .ok ()) (hfile : logFileOf arguments config = none)
    (time : Text) (output : Log.Output) :
    let nullLevel := (loggingOf config).getText? "level" = some .null
    let opened := openJournal arguments config time output
    (∀ value, something? ((sectionOf config).getText? "logging") = some value →
      value = .map (loggingOf config)) ∧
    ∃ level, requestedLevel? arguments config = some level ∧
      (arguments.debug = true ∨ ¬ nullLevel →
        opened = .ok (.start journalName time (.ofLevel level), output)) ∧
      (arguments.debug = false → nullLevel → opened = .error (.threshold (.badType .null))) := by
  intro nullLevel opened
  obtain ⟨hwritten, hset⟩ := loggingOf_of_check hcheck
  obtain ⟨level, hrequested, hknown, hunknown⟩ := threshold_levelOf arguments hset
  refine ⟨hwritten, level, hrequested, fun hfine => ?_, fun hdebug hnull => ?_⟩
  · exact openJournal_of_threshold hfile (hknown hfine) time output
  · exact openJournal_of_error (hunknown hdebug hnull) time output

/-- A configuration of which only the level of the log is set. -/
def levelConfig (level : Value) : Mapping :=
  [(.str Config.sectionKey, .map [(.str "logging", .map [(.str "level", level)])])]

theorem check_levelConfig {text : Text} (h : Config.isLevel (.str text) = true) :
    Config.check (.map (levelConfig (.str text))) = .ok () := by
  show (if Config.isLevel (.str text) then .ok ()
    else Except.error (Config.FormError.badLevel (.str text))) = _
  exact if_pos h

theorem openJournal_of_check_warning :
    Config.check (.map (levelConfig (.str "wArnıng"))) = .ok () ∧
      logFileOf .empty (levelConfig (.str "wArnıng")) = none ∧
      openJournal .empty (levelConfig (.str "wArnıng")) "now" (.ofLines [] ⟨[], [], []⟩) =
        .ok (.start journalName "now" (.ofLevel .warning), .ofLines [] ⟨[], [], []⟩) := by
  have hcheck : Config.check (.map (levelConfig (.str "wArnıng"))) = .ok () :=
    check_levelConfig (by decide +kernel)
  have hfile : logFileOf .empty (levelConfig (.str "wArnıng")) = none := rfl
  obtain ⟨-, level, hrequested, hopens, -⟩ :=
    openJournal_of_check hcheck hfile "now" (.ofLines [] ⟨[], [], []⟩)
  obtain rfl : Log.Level.warning = level :=
    Option.some.inj (Eq.trans (by decide +kernel) hrequested)
  exact ⟨hcheck, hfile, hopens (Or.inr fun hnull => by cases hnull)⟩

/-- A level that is null passes the check and leaves the choice, and no journal opens. -/
theorem openJournal_fails_null_level :
    Config.check (.map (levelConfig .null)) = .ok () ∧
      logFileOf .empty (levelConfig .null) = none ∧
      requestedLevel? .empty (levelConfig .null) = some .info ∧
      ∀ time output, openJournal .empty (levelConfig .null) time output =
        .error (.threshold (.badType .null)) :=
  ⟨rfl, rfl, rfl, fun _ _ => rfl⟩

end Run

end PathRights
