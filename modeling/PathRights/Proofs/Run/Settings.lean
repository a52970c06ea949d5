import PathRights.Run.Normalize

/-! The settings of a run. Where a part of a configuration has the wrong form, the run would go on
as if the part were missing; in a configuration that passes its check, every part that counts as
something has the form that the run reads it in, so that each setting is what is written. -/

namespace PathRights

namespace Config

/-- A section is missing, or it is a mapping that passes its checks. -/
theorem check_cases {config : Mapping} (h : check (.map config) = .ok ()) :
    config.getText? sectionKey = none ∨
      ∃ section_, config.getText? sectionKey = some (.map section_) ∧
        checkSection section_ = .ok () := by
  unfold check at h
  simp only [Value.entries?] at h
  split at h
  · next hnone => exact Or.inl hnone
  · next value hvalue =>
    split at h
    · cases h
    · next section_ hentries =>
      cases value with
      | map entries =>
        cases hentries
        exact Or.inr ⟨section_, hvalue, h⟩
      | scalar s => cases hentries
      | list items => cases hentries

/-- A section in which every part passes its check. -/
structure WellFormed (section_ : Mapping) : Prop where
  roles : ∃ roles, part? section_ "roles" = some roles ∧ checkRoles roles = .ok ()
  rulesFile : checkRulesFile section_ = .ok ()
  dryRun : checkFlag section_ "dry_run" = .ok ()
  verbose : checkFlag section_ "verbose" = .ok ()
  logging : checkLogging section_ = .ok ()

theorem ok_of_seq {check rest : Except FormError Unit} (h : (check >>= fun _ => rest) = .ok ()) :
    check = .ok () ∧ rest = .ok () := by
  cases check with
  | error error => cases h
  | ok _ => exact ⟨rfl, h⟩

theorem wellFormed_of_checkSection {section_ : Mapping} (h : checkSection section_ = .ok ()) :
    WellFormed section_ := by
  unfold checkSection at h
  cases hroles : part? section_ "roles" with
  | none =>
    rw [hroles] at h
    cases h
  | some roles =>
    rw [hroles] at h
    obtain ⟨hchecked, h⟩ := ok_of_seq h
    obtain ⟨hrules, h⟩ := ok_of_seq h
    obtain ⟨hdry, h⟩ := ok_of_seq h
    obtain ⟨hverbose, hlogging⟩ := ok_of_seq h
    exact ⟨⟨roles, hroles, hchecked⟩, hrules, hdry, hverbose, hlogging⟩

theorem something_of_part {section_ entries : Mapping} {key : Text} {value : Value}
    (hpart : part? section_ key = some entries)
    (hvalue : Run.something? (section_.getText? key) = some value) : value = .map entries := by
  obtain ⟨hget, hsome⟩ := Option.filter_eq_some_iff.1 hvalue
  unfold part? at hpart
  rw [hget] at hpart
  dsimp only at hpart
  split at hpart
  · next hempty => simp [hempty] at hsome
  · cases value with
    | map written =>
      cases hpart
      rfl
    | scalar s => cases hpart
    | list items => cases hpart

theorem something_of_checkRulesFile {section_ : Mapping} {value : Value}
    (hrules : checkRulesFile section_ = .ok ())
    (hvalue : Run.something? (section_.getText? "rules_file") = some value) :
    ∃ path, value = .str path := by
  obtain ⟨hget, hsome⟩ := Option.filter_eq_some_iff.1 hvalue
  unfold checkRulesFile at hrules
  rw [hget] at hrules
  split at hrules
  · next h => cases h
  · next h =>
    cases h
    cases hsome
  · next path h =>
    cases h
    exact ⟨path, rfl⟩
  · cases hrules

end Config

namespace Run

/-- No default stands in for a part of the configuration that is there. -/
structure SettingsAsWritten (config : Mapping) : Prop where
  section_ : ∀ value, config.getText? Config.sectionKey = some value →
    value = .map (sectionOf config)
  roles : ∀ value, something? ((sectionOf config).getText? "roles") = some value →
    value = .map (Settings.ofConfig config).roles
  rulesFile : ∀ value, something? ((sectionOf config).getText? "rules_file") = some value →
    value = .str (Settings.ofConfig config).rulesFile

theorem settingsAsWritten_of_check {config : Mapping} (h : Config.check (.map config) = .ok ()) :
    SettingsAsWritten config := by
  rcases Config.check_cases h with hnone | ⟨section_, hsection, hchecked⟩
  · have hempty : sectionOf config = [] := by
      unfold sectionOf
      rw [hnone]
      rfl
    refine ⟨fun value hvalue => ?_, fun value hvalue => ?_, fun value hvalue => ?_⟩
    · cases hnone.symm.trans hvalue
    · rw [hempty] at hvalue
      cases hvalue
    · rw [hempty] at hvalue
      cases hvalue
  · have hsame : sectionOf config = section_ := by
      unfold sectionOf
      rw [hsection]
      rfl
    obtain ⟨⟨roles, hroles, -⟩, hrules, -, -, -⟩ := Config.wellFormed_of_checkSection hchecked
    refine ⟨fun value hvalue => ?_, fun value hvalue => ?_, fun value hvalue => ?_⟩
    · rw [hsame]
      exact Option.some.inj (hvalue.symm.trans hsection)
    · have hwritten := hvalue
      rw [hsame] at hwritten
      obtain rfl : value = .map roles := Config.something_of_part hroles hwritten
      unfold Settings.ofConfig
      dsimp only
      rw [hvalue]
      rfl
    · have hwritten := hvalue
      rw [hsame] at hwritten
      obtain ⟨path, rfl⟩ := Config.something_of_checkRulesFile hrules hwritten
      unfold Settings.ofConfig
      dsimp only
      rw [hvalue]
      rfl

end Run

end PathRights
