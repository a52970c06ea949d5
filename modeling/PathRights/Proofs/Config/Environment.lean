import PathRights.Config.Loading
import PathRights.Proofs.Config.Merge

/-!
Environments as layers of configuration. A variable whose name counts makes one setting, of a part
of the section as a whole or of a key inside a part. The section is built unless a part was set as a
whole before a key inside it, and then it is the same, up to the order of keys, for every order of
the variables.
-/

namespace PathRights.Config

open Mapping
open Value (Alike)

/-- What the name of a variable says behind the prefix, in lower case. -/
def keyOf? (name : Text) : Option Text := (variablePrefix.isPrefixOf? name).map Text.lower

/-- The first variable sets a part as a whole, and the second sets a key inside the same part. -/
def Obstructs (first second : Text) : Prop :=
  ∃ part ∈ nestedParts, ∃ key ≠ [],
    keyOf? first = some part ∧ keyOf? second = some (part ++ '_' :: key)

instance (first second : Text) : Decidable (Obstructs first second) :=
  decidable_of_iff (∃ part ∈ nestedParts, keyOf? first = some part ∧
      ∃ key ∈ keyOf? second, part ++ ['_'] <+: key ∧ key ≠ part ++ ['_']) <| by
    constructor
    · rintro ⟨part, nested, hfirst, _, hsecond, ⟨key, rfl⟩, longer⟩
      exact ⟨part, nested, key, by simpa using longer, hfirst, by simpa using hsecond⟩
    · rintro ⟨part, nested, key, hne, hfirst, hsecond⟩
      exact ⟨part, nested, hfirst, _, hsecond, ⟨key, by simp⟩, by simpa using hne⟩

/-- Nothing is there yet, or a mapping. -/
def IsOpen (found : Option Value) : Prop := ∀ value, found = some value → value.entries? ≠ none

/-- What a variable sets: a key of the section, or a key inside one of its parts. The value has no
parts itself. -/
structure Setting where
  part : Text
  member? : Option Text
  value : Value
  plain : value.entries? = none

theorem entries?_readWord (text : Text) : (readWord text).entries? = none := by
  simp only [readWord]
  split
  · rfl
  · split <;> rfl

/-- What a variable sets whose name says `key`. -/
def settingOf (key value : Text) : Setting :=
  match key.breakAt (· == '_') with
  | some (part, _, member) =>
    if nestedParts.contains part ∧ !member.isEmpty then
      { part, member? := some member
        value := if part = "roles".toList then .str value else readWord value
        plain := by split <;> [rfl; exact entries?_readWord value] }
    else ⟨key, none, readWord value, entries?_readWord value⟩
  | none => ⟨key, none, readWord value, entries?_readWord value⟩

/-- What a variable sets, if its name counts. -/
def settingOf? (name value : Text) : Option Setting :=
  match keyOf? name with
  | none | some [] => none
  | some key => some (settingOf key value)

/-- What the variables of an environment set, in order. -/
def settingsOf (environment : List (Text × Text)) : List Setting :=
  environment.filterMap fun entry => settingOf? entry.1 entry.2

namespace Setting

/-- What the name of the variable says. -/
def name (setting : Setting) : Text :=
  match setting.member? with
  | none => setting.part
  | some key => setting.part ++ '_' :: key

/-- Adds the setting to a section. -/
def put (setting : Setting) (section_ : Mapping) : Except EnvironmentError Mapping :=
  match setting.member? with
  | none => .ok (section_.set (.str setting.part) setting.value)
  | some key => setInside section_ setting.part key setting.value

/-- What the part holds after the setting, given what it held. A plain value stays where a key was
to be set inside it. -/
def change (setting : Setting) (found : Option Value) : Value :=
  match setting.member? with
  | none => setting.value
  | some key =>
    match found with
    | none => .map [(.str key, setting.value)]
    | some (.map entries) => .map (Mapping.set entries (.str key) setting.value)
    | some other => other

/-- The section after the setting. -/
def apply (section_ : Mapping) (setting : Setting) : Mapping :=
  section_.set (.str setting.part) (setting.change (section_.getText? setting.part))

/-- The setting can be made where the part holds what was found. -/
def Fits (setting : Setting) (found : Option Value) : Prop :=
  setting.member? = none ∨ IsOpen found

/-- The first setting is of the whole part and the second of a key inside it. -/
def Bars (setting other : Setting) : Prop :=
  setting.member? = none ∧ other.member? ≠ none ∧ setting.part = other.part

theorem put_eq_ok_iff {setting : Setting} {section_ next : Mapping} :
    setting.put section_ = .ok next ↔
      setting.Fits (section_.getText? setting.part) ∧ next = apply section_ setting := by
  cases hmember : setting.member? with
  | none => simp [put, Fits, apply, change, hmember, eq_comm]
  | some key =>
    rcases hfound : section_.getText? setting.part with _ | _ | _ | _ <;>
      simp [put, setInside, Fits, IsOpen, apply, change, hmember, hfound, Value.entries?, eq_comm]

theorem get?_apply (section_ : Mapping) (setting : Setting) (key : Scalar) :
    (apply section_ setting).get? key =
      if (Scalar.str setting.part).sameKey key then some (setting.change (section_.get? key))
      else section_.get? key := by
  rw [apply, get?_set]
  split
  · rename_i same
    rw [getText?, get?_congr section_ same]
  · rfl

/-- After a setting that could be made, another one fits if it did before and is not barred. -/
theorem fits_apply_iff {setting : Setting} {section_ : Mapping}
    (fits : setting.Fits (section_.getText? setting.part)) (other : Setting) :
    other.Fits ((apply section_ setting).getText? other.part) ↔
      other.Fits (section_.getText? other.part) ∧ ¬ setting.Bars other := by
  rw [getText?, get?_apply, getText?]
  by_cases same : setting.part = other.part
  · rw [getText?, same] at fits
    cases hmember : setting.member? with
    | none => by_cases whole : other.member? = none <;>
        simp [Fits, IsOpen, Bars, same, change, hmember, setting.plain, whole]
    | some key =>
      rcases hfound : section_.get? (.str other.part) with _ | _ | _ | _ <;>
        simp_all [Fits, IsOpen, Bars, change, Value.entries?]
  · simp [Bars, same]

end Setting

/-- Only parts with keys of their own are set inside, and the key is not empty. -/
theorem member_settingOf {key value member : Text}
    (h : (settingOf key value).member? = some member) :
    (settingOf key value).part ∈ nestedParts ∧ member ≠ [] := by
  revert h
  rw [settingOf]
  split
  · split
    · rename_i nested
      rintro ⟨⟩
      simpa using nested
    · rintro ⟨⟩
  · rintro ⟨⟩

theorem name_settingOf (key value : Text) : (settingOf key value).name = key := by
  rw [settingOf]
  split
  · rename_i part sep member hbreak
    obtain ⟨hkey, hsep, -⟩ := Text.eq_of_breakAt hbreak
    split
    · rw [hkey, beq_iff_eq.1 hsep, Setting.name]
    · rfl
  · rfl

theorem settingOf?_eq_some_iff {name value : Text} {setting : Setting} :
    settingOf? name value = some setting ↔
      ∃ key ≠ [], keyOf? name = some key ∧ settingOf key value = setting := by
  rw [settingOf?]
  rcases keyOf? name with _ | _ | ⟨c, key⟩ <;> grind

theorem keyOf?_of_settingOf? {name value : Text} {setting : Setting}
    (h : settingOf? name value = some setting) : keyOf? name = some setting.name := by
  obtain ⟨key, -, hkey, rfl⟩ := settingOf?_eq_some_iff.1 h
  rw [hkey, name_settingOf]

/-- Names of parts hold no `_`. -/
theorem underscore_notMem_of_nested {part : Text} (nested : part ∈ nestedParts) :
    ∀ c ∈ part, (c == '_') = false := by
  simp only [nestedParts, List.mem_cons, List.not_mem_nil, or_false] at nested
  obtain rfl | rfl := nested <;> simp

theorem settingOf_of_nested {part : Text} (nested : part ∈ nestedParts) (value : Text) :
    settingOf part value = ⟨part, none, readWord value, entries?_readWord value⟩ := by
  have hbreak := Text.breakAt_eq_none.2 (underscore_notMem_of_nested nested)
  simp only [settingOf, hbreak]

theorem settingOf_inside {part key : Text} (nested : part ∈ nestedParts) (hkey : key ≠ [])
    (value : Text) :
    (settingOf (part ++ '_' :: key) value).part = part ∧
      (settingOf (part ++ '_' :: key) value).member? = some key := by
  have hbreak : Text.breakAt (· == '_') (part ++ '_' :: key) = some (part, '_', key) :=
    Text.breakAt_append rfl (underscore_notMem_of_nested nested)
  simp [settingOf, hbreak, nested, hkey]

theorem addSetting_eq (section_ : Mapping) (key value : Text) :
    addSetting section_ key value = (settingOf key value).put section_ := by
  rw [addSetting, settingOf]
  rcases Text.breakAt (· == '_') key with _ | ⟨part, _, member⟩
  · rfl
  · by_cases nested : nestedParts.contains part ∧ !member.isEmpty
    · simp only [if_pos nested, Setting.put]
    · simp only [if_neg nested, Setting.put]

theorem addVariable_eq (section_ : Mapping) (name value : Text) :
    addVariable section_ name value =
      match settingOf? name value with
      | none => .ok section_
      | some setting => setting.put section_ := by
  rw [addVariable, settingOf?, keyOf?]
  cases variablePrefix.isPrefixOf? name with
  | none => rfl
  | some rest =>
    cases hkey : Text.lower rest with
    | nil => simp [hkey]
    | cons c key => simp [hkey, addSetting_eq]

/-- The section is built exactly when each setting fits what was there and none is barred by one
before it, and it is then what the settings make of it. -/
theorem sectionOfVariables_eq_ok_iff {environment : List (Text × Text)} {section_ next : Mapping} :
    sectionOfVariables section_ environment = .ok next ↔
      (∀ setting ∈ settingsOf environment, setting.Fits (section_.getText? setting.part)) ∧
      (settingsOf environment).Pairwise (fun setting other => ¬ setting.Bars other) ∧
      next = (settingsOf environment).foldl Setting.apply section_ := by
  induction environment generalizing section_ with
  | nil => simp [sectionOfVariables, settingsOf, eq_comm]
  | cons entry rest ih =>
    obtain ⟨name, value⟩ := entry
    rw [sectionOfVariables, addVariable_eq]
    cases hsetting : settingOf? name value with
    | none =>
      have same : settingsOf ((name, value) :: rest) = settingsOf rest := by
        simp [settingsOf, hsetting]
      rw [same]
      exact ih
    | some setting =>
      have more : settingsOf ((name, value) :: rest) = setting :: settingsOf rest := by
        simp [settingsOf, hsetting]
      rw [more, List.forall_mem_cons, List.pairwise_cons, List.foldl_cons]
      by_cases fits : setting.Fits (section_.getText? setting.part)
      · have made := Setting.put_eq_ok_iff.2 ⟨fits, rfl⟩
        simp only [made, ih, Setting.fits_apply_iff fits, fits, forall_and, true_and, and_assoc]
      · cases hput : setting.put section_ with
        | error error => simp [fits, hput]
        | ok after => exact absurd (Setting.put_eq_ok_iff.1 hput).1 fits

/-- Settings bar one another as the names of their variables say. -/
theorem obstructs_iff {first second : Text × Text} :
    (∃ setting, settingOf? first.1 first.2 = some setting ∧
      ∃ other, settingOf? second.1 second.2 = some other ∧ setting.Bars other) ↔
      Obstructs first.1 second.1 := by
  constructor
  · rintro ⟨setting, hsetting, other, hother, whole, inside, samePart⟩
    obtain ⟨key, hkey⟩ := Option.ne_none_iff_exists'.1 inside
    have hfirst := keyOf?_of_settingOf? hsetting
    have hsecond := keyOf?_of_settingOf? hother
    obtain ⟨_, -, -, rfl⟩ := settingOf?_eq_some_iff.1 hother
    obtain ⟨nested, hne⟩ := member_settingOf hkey
    simp only [Setting.name, whole] at hfirst
    simp only [Setting.name, hkey] at hsecond
    exact ⟨_, nested, key, hne, samePart ▸ hfirst, hsecond⟩
  · rintro ⟨part, nested, key, hne, hfirst, hsecond⟩
    have hpart : part ≠ [] := by
      rintro rfl
      exact absurd nested (by decide)
    obtain ⟨samePart, inside⟩ := settingOf_inside nested hne second.2
    refine ⟨_, settingOf?_eq_some_iff.2 ⟨part, hpart, hfirst, rfl⟩,
      _, settingOf?_eq_some_iff.2 ⟨_, by simp, hsecond, rfl⟩, ?_⟩
    rw [settingOf_of_nested nested]
    exact ⟨rfl, by simp [inside], samePart.symm⟩

theorem pairwise_bars_iff {environment : List (Text × Text)} :
    (settingsOf environment).Pairwise (fun setting other => ¬ setting.Bars other) ↔
      environment.Pairwise fun first second => ¬ Obstructs first.1 second.1 := by
  simp only [settingsOf, List.pairwise_filterMap, ← obstructs_iff]
  grind

/-- The section is built exactly when no variable obstructs one behind it. -/
theorem exists_sectionOfVariables_iff {environment : List (Text × Text)} :
    (∃ section_, sectionOfVariables [] environment = .ok section_) ↔
      environment.Pairwise fun first second => ¬ Obstructs first.1 second.1 := by
  simp only [sectionOfVariables_eq_ok_iff, exists_and_left, exists_eq, and_true, pairwise_bars_iff,
    and_iff_right_iff_imp]
  intro _ setting _
  exact .inr (by simp [IsOpen, getText?, get?])

/-- Alike finds are one plain value, or there is room for keys in both. -/
theorem alikeAt_cases {found found' : Option Value} (alike : AlikeAt found found') :
    (∃ value, value.entries? = none ∧ found = some value ∧ found' = some value) ∨
      IsOpen found ∧ IsOpen found' := by
  cases alike with
  | none => exact .inr ⟨by simp [IsOpen], by simp [IsOpen]⟩
  | some alike =>
    cases alike with
    | same plain => exact .inl ⟨_, plain, rfl, rfl⟩
    | map _ _ _ _ => exact .inr ⟨by simp [IsOpen, Value.entries?], by simp [IsOpen, Value.entries?]⟩

namespace Setting

variable {setting : Setting} {key : Text} {found found' : Option Value}

theorem change_of_whole (whole : setting.member? = none) :
    setting.change found = setting.value := by
  simp only [change, whole]

theorem change_of_plain (inside : setting.member? = some key) {value : Value}
    (plain : value.entries? = none) : setting.change (some value) = value := by
  cases value with
  | scalar _ | list _ => simp only [change, inside]
  | map entries => simp [Value.entries?] at plain

theorem change_of_isOpen (inside : setting.member? = some key) (isOpen : IsOpen found) :
    setting.change found = .map ((baseOf found).set (.str key) setting.value) := by
  rcases found with _ | _ | _ | _ <;> simp_all [change, baseOf, IsOpen, Value.entries?, Mapping.set]

theorem alike_change (alike : AlikeAt found found') :
    Alike (setting.change found) (setting.change found') := by
  have self := Alike.same setting.plain
  cases hmember : setting.member? with
  | none => simpa only [change_of_whole hmember] using self
  | some key =>
    obtain ⟨value, plain, rfl, rfl⟩ | ⟨isOpen, isOpen'⟩ := alikeAt_cases alike
    · simpa only [change_of_plain hmember plain] using Alike.same plain
    · rw [change_of_isOpen hmember isOpen, change_of_isOpen hmember isOpen']
      exact alike_set (alike_baseOf alike) _ self

/-- Settings of the same part by variables of different names can be exchanged. -/
theorem alike_change_change {other : Setting} (samePart : setting.part = other.part)
    (names : setting.name ≠ other.name) (alike : AlikeAt found found') :
    Alike (other.change (some (setting.change found)))
      (setting.change (some (other.change found'))) := by
  have self := Alike.same setting.plain
  have self' := Alike.same other.plain
  cases hmember : setting.member? with
  | none =>
    cases hother : other.member? with
    | none => exact absurd (by simp [name, hmember, hother, samePart]) names
    | some key =>
      simpa only [change_of_whole hmember, change_of_plain hother setting.plain] using self
  | some key =>
    cases hother : other.member? with
    | none => simpa only [change_of_whole hother, change_of_plain hmember other.plain] using self'
    | some key' =>
      obtain ⟨value, plain, rfl, rfl⟩ | ⟨isOpen, isOpen'⟩ := alikeAt_cases alike
      · simpa only [change_of_plain hmember plain, change_of_plain hother plain] using
          Alike.same plain
      · have keys : (Scalar.str key).sameKey (.str key') = false := by
          have : key ≠ key' := fun h => names (by simp [name, hmember, hother, samePart, h])
          simpa using this
        have isMap (entries : Mapping) : IsOpen (some (.map entries)) := by
          simp [IsOpen, Value.entries?]
        rw [change_of_isOpen hmember isOpen, change_of_isOpen hother isOpen',
          change_of_isOpen hother (isMap _), change_of_isOpen hmember (isMap _)]
        exact alike_set_set (alike_baseOf alike) keys self self'

variable {section_ section' : Mapping}

theorem alike_apply (alike : Alike (.map section_) (.map section')) (setting : Setting) :
    Alike (.map (apply section_ setting)) (.map (apply section' setting)) :=
  alike_set alike _ (alike_change ((alike_iff.1 alike).2.2 _))

/-- Settings by variables of different names can be exchanged. -/
theorem alike_apply_apply (alike : Alike (.map section_) (.map section')) {setting other : Setting}
    (names : setting.name ≠ other.name) :
    Alike (.map (apply (apply section_ setting) other))
      (.map (apply (apply section' other) setting)) := by
  obtain ⟨distinct, distinct', each⟩ := alike_iff.1 alike
  refine alike_iff.2 ⟨(distinct.set _ _).set _ _, (distinct'.set _ _).set _ _, fun key => ?_⟩
  simp only [get?_apply]
  by_cases first : (Scalar.str setting.part).sameKey key <;>
    by_cases second : (Scalar.str other.part).sameKey key
  · have samePart : setting.part = other.part := by
      rw [Scalar.sameKey_comm] at second
      simpa using Scalar.sameKey_trans first second
    simpa only [first, second, if_true] using
      Option.Rel.some (alike_change_change samePart names (each key))
  · simpa [first, second] using alike_change (each key)
  · simpa [first, second] using alike_change (each key)
  · simpa [first, second] using each key

theorem alike_foldl_apply (settings : List Setting)
    (alike : Alike (.map section_) (.map section')) :
    Alike (.map (settings.foldl apply section_)) (.map (settings.foldl apply section')) := by
  induction settings generalizing section_ section' with
  | nil => exact alike
  | cons setting rest ih => exact ih (alike_apply alike setting)

/-- Settings of different names can be made in every order. -/
theorem alike_foldl_of_perm {settings settings' : List Setting} (perm : settings.Perm settings')
    (names : (settings.map name).Nodup) (alike : Alike (.map section_) (.map section')) :
    Alike (.map (settings.foldl apply section_)) (.map (settings'.foldl apply section')) := by
  -- An order in between may be one in which the section cannot be built. So the induction is on
  -- what `apply` makes of it, which goes on after a setting that does not fit.
  induction perm generalizing section_ section' with
  | nil => exact alike
  | cons setting _ ih =>
    exact ih (List.nodup_cons.1 names).2 (alike_apply alike setting)
  | swap setting other rest =>
    have different : other.name ≠ setting.name := by simp_all [eq_comm]
    exact alike_foldl_apply rest (alike_apply_apply alike different)
  | trans perm _ ih ih' =>
    exact (ih names alike).trans (ih' ((perm.map name).nodup_iff.1 names) (alike.symm.trans alike))

end Setting

/-- Settings have different names if all names that count are different. -/
theorem nodup_names {environment : List (Text × Text)}
    (distinct : (environment.filterMap fun entry => keyOf? entry.1).Nodup) :
    ((settingsOf environment).map Setting.name).Nodup := by
  rw [List.Nodup, List.pairwise_filterMap] at distinct
  rw [List.Nodup, List.pairwise_map, settingsOf, List.pairwise_filterMap]
  refine distinct.imp fun {_ _} different setting hsetting other hother => ?_
  exact different _ (keyOf?_of_settingOf? hsetting) _ (keyOf?_of_settingOf? hother)

/-- The layers of the defaults and of a section that variables set. -/
def Layers.ofSection (section_ : Mapping) : Layers :=
  if section_.isEmpty then .initial
  else .set .initial .environment [(.str sectionKey, .map section_)]

theorem start_eq_ok_iff {reader : Reader} {disk : Disk} {environment : List (Text × Text)}
    {layers : Layers} :
    Layers.start reader disk none (some environment) = .ok layers ↔
      ∃ section_, sectionOfVariables [] environment = .ok section_ ∧
        layers = .ofSection section_ := by
  simp only [Layers.start, Layers.withEnvironment, ofEnvironment]
  cases sectionOfVariables [] environment with
  | error error => simp
  | ok section_ =>
    cases h : section_.isEmpty <;>
      simp only [Layers.ofSection, h, Except.ok.injEq, exists_eq_left', if_true, if_false,
        Bool.false_eq_true, eq_comm]

/-- The layers are set up exactly when no variable obstructs one behind it. -/
theorem exists_start_iff {reader : Reader} {disk : Disk} {environment : List (Text × Text)} :
    (∃ layers, Layers.start reader disk none (some environment) = .ok layers) ↔
      environment.Pairwise fun first second => ¬ Obstructs first.1 second.1 := by
  rw [← exists_sectionOfVariables_iff]
  simp only [start_eq_ok_iff]
  constructor
  · rintro ⟨_, section_, hsection, -⟩
    exact ⟨section_, hsection⟩
  · rintro ⟨section_, hsection⟩
    exact ⟨_, section_, hsection, rfl⟩

theorem merged_ofSection (section_ : Mapping) :
    (Layers.ofSection section_).merged = merge (merge [] Layers.defaultConfig)
      (if section_ = [] then [] else [(.str sectionKey, .map section_)]) := by
  cases section_ <;> rfl

theorem alike_merged {section_ section' : Mapping} (alike : Alike (.map section_) (.map section')) :
    Alike (.map (Layers.ofSection section_).merged) (.map (Layers.ofSection section').merged) := by
  rw [merged_ofSection, merged_ofSection]
  refine alike_merge (alike_merge_self Layers.defaultConfig alike_nil) ?_
  simp only [eq_nil_of_alike alike]
  split
  · exact alike_nil
  · exact alike_set alike_nil (.str sectionKey) alike

/-- Without a file, the layers are set up exactly when no variable sets a part as a whole before one
that sets a key inside it; and then all orders of variables with different names give the same
configuration, up to the order of keys. -/
theorem start_ok_iff_and_alike_of_perm (reader : Reader) (disk : Disk) :
    (∀ environment, (∃ layers, Layers.start reader disk none (some environment) = .ok layers) ↔
      environment.Pairwise fun first second => ¬ Obstructs first.1 second.1) ∧
    ∀ environment environment' layers layers', environment.Perm environment' →
      (environment.filterMap fun entry => keyOf? entry.1).Nodup →
      Layers.start reader disk none (some environment) = .ok layers →
      Layers.start reader disk none (some environment') = .ok layers' →
      Alike (.map layers.merged) (.map layers'.merged) := by
  refine ⟨fun _ => exists_start_iff, ?_⟩
  intro environment environment' layers layers' perm distinct start start'
  obtain ⟨section_, hsection, rfl⟩ := start_eq_ok_iff.1 start
  obtain ⟨section', hsection', rfl⟩ := start_eq_ok_iff.1 start'
  obtain ⟨-, -, rfl⟩ := sectionOfVariables_eq_ok_iff.1 hsection
  obtain ⟨-, -, rfl⟩ := sectionOfVariables_eq_ok_iff.1 hsection'
  have settings : (settingsOf environment).Perm (settingsOf environment') := perm.filterMap _
  exact alike_merged (Setting.alike_foldl_of_perm settings (nodup_names distinct) alike_nil)

/-- Roles and the log, each by a key inside it and then as a whole. -/
def nestedFirst : List (Text × Text) :=
  [("TREERIGHTS_ROLES_WEB", "www-data,644"), ("TREERIGHTS_Logging_Level", "DEBUG"),
   ("TREERIGHTS_LOGGING", "no"), ("TREERIGHTS_ROLES", "none")]

/-- The same, with the log before the roles. -/
def loggingFirst : List (Text × Text) :=
  [("TREERIGHTS_Logging_Level", "DEBUG"), ("TREERIGHTS_LOGGING", "no"),
   ("TREERIGHTS_ROLES_WEB", "www-data,644"), ("TREERIGHTS_ROLES", "none")]

theorem start_ok_iff_and_alike_of_perm_nestedFirst :
    let reader : Reader := ⟨fun _ => .error .malformed⟩
    nestedFirst.Perm loggingFirst ∧
    (nestedFirst.filterMap fun entry => keyOf? entry.1).Nodup ∧
    ∃ layers layers', Layers.start reader ⟨[], [], []⟩ none (some nestedFirst) = .ok layers ∧
      Layers.start reader ⟨[], [], []⟩ none (some loggingFirst) = .ok layers' ∧
      Alike (.map layers.merged) (.map layers'.merged) := by
  intro reader
  have perm : nestedFirst.Perm loggingFirst := by decide +kernel
  have distinct : (nestedFirst.filterMap fun entry => keyOf? entry.1).Nodup := by decide +kernel
  have built := start_ok_iff_and_alike_of_perm reader ⟨[], [], []⟩
  obtain ⟨layers, start⟩ := (built.1 nestedFirst).2 (by decide +kernel)
  obtain ⟨layers', start'⟩ := (built.1 loggingFirst).2 (by decide +kernel)
  exact ⟨perm, distinct, layers, layers', start, start',
    built.2 nestedFirst loggingFirst layers layers' perm distinct start start'⟩

/-- A part that is set as a whole first cannot be given a key, though the other order is fine. -/
theorem start_fails_for_whole_part_first :
    let reader : Reader := ⟨fun _ => .error .malformed⟩
    let whole : Text × Text := ("TREERIGHTS_ROLES", "x")
    let inside : Text × Text := ("TREERIGHTS_ROLES_WEB", "u,644")
    [whole, inside].Perm [inside, whole] ∧
    ([whole, inside].filterMap fun entry => keyOf? entry.1).Nodup ∧
    (¬ ∃ layers, Layers.start reader ⟨[], [], []⟩ none (some [whole, inside]) = .ok layers) ∧
    ∃ layers, Layers.start reader ⟨[], [], []⟩ none (some [inside, whole]) = .ok layers := by
  refine ⟨.swap _ _ _, by decide +kernel, ?_, ?_⟩ <;> rw [exists_start_iff] <;> decide +kernel

end PathRights.Config
