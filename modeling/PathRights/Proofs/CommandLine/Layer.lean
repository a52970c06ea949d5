import Mathlib.Data.List.Nodup
import PathRights.Proofs.CommandLine.RoleOption
import PathRights.Run.Setup

/-! The layer of configuration that a command line is. It holds what was given and nothing in the
place of what was not, so that merging it changes the named settings and the named roles and leaves
the rest as the layers below have it: `commandLine_changes_what_is_given`. -/

namespace PathRights

namespace Scalar

theorem ofParts_ne_text (negative : Bool) (mantissa : Nat) (exponent : Int) (text : Text) :
    KeyIdentity.ofParts negative mantissa exponent ≠ .text text := by
  fun_induction KeyIdentity.ofParts negative mantissa exponent with
  | case1 => simp
  | case2 _ _ _ _ ih => exact ih
  | case3 => simp

/-- Nothing but a text is the same key as a text. -/
theorem sameKey_text_iff {text : Text} {key : Scalar} :
    (Scalar.str text).sameKey key = true ↔ key = .str text := by
  constructor
  · intro h
    have hidentity : KeyIdentity.text text = key.identity := eq_of_beq h
    cases key with
    | str other => rw [KeyIdentity.text.inj hidentity]
    | bool _ | int _ => exact (ofParts_ne_text _ _ _ _ hidentity.symm).elim
    | float x =>
      cases x with
      | finite => exact (ofParts_ne_text _ _ _ _ hidentity.symm).elim
      | infinite | nan => cases hidentity
    | null | date | moment | foreign => cases hidentity
  · rintro rfl
    exact sameKey_refl _

end Scalar

namespace Mapping

open Config (merge overlay)

/-! ### Settings that are given -/

/-- The mapping of the settings that are given. -/
def ofGiven (settings : List (Text × Option Value)) : Mapping :=
  settings.filterMap fun (key, value) => value.map (.str key, ·)

section

variable {settings : List (Text × Option Value)}

theorem get?_ofGiven_of_notMem {key : Scalar} (h : ∀ text ∈ settings.map (·.1), key ≠ .str text) :
    (ofGiven settings).get? key = none := by
  refine get?_eq_none_iff.2 fun k hk => Bool.eq_false_iff.2 fun same => ?_
  obtain ⟨entry, hentry, rfl⟩ := List.mem_map.1 hk
  obtain ⟨⟨text, value⟩, hmem, hvalue⟩ := List.mem_filterMap.1 hentry
  obtain ⟨_, -, rfl⟩ := Option.map_eq_some_iff.1 hvalue
  exact h text (List.mem_map_of_mem hmem) (Scalar.sameKey_text_iff.1 same)

variable (nodup : (settings.map (·.1)).Nodup)

include nodup

theorem getText?_ofGiven {key : Text} {value : Option Value} (h : (key, value) ∈ settings) :
    (ofGiven settings).getText? key = value := by
  induction settings with
  | nil => cases h
  | cons setting rest ih =>
    obtain ⟨first, firstValue⟩ := setting
    obtain ⟨fresh, hrest⟩ := List.nodup_cons.1 nodup
    rcases List.mem_cons.1 h with heq | hmem
    · cases heq
      cases value with
      | none =>
        refine @get?_ofGiven_of_notMem rest _ fun text htext heq => ?_
        exact fresh (Scalar.str.inj heq ▸ htext)
      | some value => exact (get?_cons ..).trans (if_pos (Scalar.sameKey_refl _))
    · have different : (Scalar.str first).sameKey (.str key) = false := by
        refine Bool.eq_false_iff.2 fun same => fresh ?_
        cases Scalar.sameKey_text_iff.1 same
        exact List.mem_map.2 ⟨_, hmem, rfl⟩
      cases firstValue with
      | none => exact ih hrest hmem
      | some firstValue =>
        refine (get?_cons ..).trans ?_
        rw [different]
        exact ih hrest hmem

theorem distinct_ofGiven : (ofGiven settings).Distinct := by
  induction settings with
  | nil => exact .nil
  | cons setting rest ih =>
    obtain ⟨key, value⟩ := setting
    obtain ⟨fresh, hrest⟩ := List.nodup_cons.1 nodup
    cases value with
    | none => exact ih hrest
    | some value =>
      refine distinct_cons.2 ⟨get?_ofGiven_of_notMem fun text htext heq => ?_, ih hrest⟩
      exact fresh (Scalar.str.inj heq ▸ htext)

theorem wellKeyed_ofGiven
    (h : ∀ setting ∈ settings, ∀ value, setting.2 = some value → value.WellKeyed) :
    (Value.map (ofGiven settings)).WellKeyed := by
  refine wellKeyed_iff.2 ⟨distinct_ofGiven nodup, fun key value hget => ?_⟩
  obtain ⟨entry, hfind, rfl⟩ := Option.map_eq_some_iff.1 hget
  obtain ⟨setting, hmem, hvalue⟩ := List.mem_filterMap.1 (List.mem_of_find?_eq_some hfind)
  obtain ⟨value, hgiven, rfl⟩ := Option.map_eq_some_iff.1 hvalue
  exact h setting hmem value hgiven

/-- A setting that is given is laid over what is below, and one that is not leaves it. -/
theorem getText?_merge_ofGiven {key : Text} {value : Option Value} (h : (key, value) ∈ settings)
    (base : Mapping) :
    (merge base (ofGiven settings)).getText? key =
      value.elim (base.getText? key) fun value => some (overlay (base.getText? key) value) := by
  have hvalue : (ofGiven settings).get? (.str key) = value := getText?_ofGiven nodup h
  unfold getText?
  rw [Config.get?_merge (distinct_ofGiven nodup), hvalue]
  cases value <;> rfl

theorem get?_merge_ofGiven_of_notMem {key : Scalar}
    (h : ∀ text ∈ settings.map (·.1), key ≠ .str text)
    (base : Mapping) : (merge base (ofGiven settings)).get? key = base.get? key := by
  rw [Config.get?_merge (distinct_ofGiven nodup), get?_ofGiven_of_notMem h]

end

end Mapping

namespace CommandLine

open Config (Layers merge overlay sectionKey)

/-! ### The layer -/

/-- Roles that options declare are well keyed, and each specification is a plain value. -/
theorem plain_of_parseRoles {options : List Text} {named : Mapping}
    (h : parseRoles options = .ok named) :
    (∀ key value, named.get? key = some value → value.entries? = none) ∧
      (Value.map named).WellKeyed := by
  obtain ⟨-, rfl⟩ := parseRoles_eq_ok h
  have hplain : ∀ key value, (Mapping.setAll [] (options.map roleEntry)).get? key = some value →
      value.entries? = none := by
    refine Mapping.get?_setAll_induction (fun _ _ h => by cases h) fun entry hentry => ?_
    obtain ⟨option, -, rfl⟩ := List.mem_map.1 hentry
    rfl
  exact ⟨hplain, Mapping.wellKeyed_iff.2 ⟨(declaresRoles_setAll options).distinct,
    fun key value hvalue => .same (hplain key value hvalue)⟩⟩

theorem rolesOfValues_eq_ok {values : List SwitchValue} {named : Mapping}
    (h : rolesOfValues values = .ok named) : ∃ options, parseRoles options = .ok named := by
  unfold rolesOfValues at h
  dsimp only at h
  split at h
  · cases h
  · next roles hroles =>
    split at h
    · cases h
    · cases h
      exact ⟨_, hroles⟩

/-- Where no value is blank, the values of switches are read as the options that they are. -/
theorem rolesOfValues_text (options : List Text) :
    rolesOfValues (options.map .text) = parseRoles options := by
  have hall : (options.map SwitchValue.text).takeWhile (· != .blank) = options.map .text := by
    refine List.takeWhile_eq_self_iff.2 fun value hvalue => ?_
    obtain ⟨option, -, rfl⟩ := List.mem_map.1 hvalue
    rfl
  have htexts : (options.map SwitchValue.text).filterMap SwitchValue.text? = options := by
    rw [List.filterMap_map]
    exact List.filterMap_some
  have hblank : (options.map SwitchValue.text).contains .blank = false := by simp
  unfold rolesOfValues
  rw [hall, htexts, hblank]
  dsimp only
  cases parseRoles options <;> rfl

namespace Arguments

/-- What the arguments set for the log: the level if everything is to be told, and the file. -/
def logSettings (arguments : Arguments) : List (Text × Option Value) :=
  [("level", if arguments.debug then some (.str "DEBUG") else none),
   ("file", (SwitchValue.given? arguments.logFile).map .str)]

/-- What the arguments set in the section, of which `named` are the roles. -/
def settings (arguments : Arguments) (named : Mapping) : List (Text × Option Value) :=
  [("roles", if named.isEmpty then none else some (.map named)),
   ("rules_file", (SwitchValue.given? arguments.rules).map .str),
   ("dry_run", if arguments.dryRun then some (.bool true) else none),
   ("verbose", if arguments.verbose then some (.bool true) else none),
   ("logging", if arguments.logging.isEmpty then none else some (.map arguments.logging))]

/-- The layer that the arguments are. -/
def layer (arguments : Arguments) (named : Mapping) : Mapping :=
  Mapping.ofGiven [(sectionKey, some (.map (Mapping.ofGiven (arguments.settings named))))]

variable (arguments : Arguments) {named : Mapping}

theorem nodup_logSettings : (arguments.logSettings.map (·.1)).Nodup := by
  show (["level".toList, "file".toList] : List Text).Nodup
  decide

theorem nodup_settings : ((arguments.settings named).map (·.1)).Nodup := by
  show (["roles".toList, "rules_file".toList, "dry_run".toList, "verbose".toList,
    "logging".toList] : List Text).Nodup
  decide

theorem logging_eq_ofGiven : arguments.logging = Mapping.ofGiven arguments.logSettings := by
  unfold logging logSettings entryIf
  cases arguments.debug <;> cases SwitchValue.given? arguments.logFile <;> rfl

theorem config?_eq_ok (h : rolesOfValues (arguments.roles.getD []) = .ok named) :
    arguments.config? = .ok (arguments.layer named) := by
  unfold config? layer settings entryIf
  rw [h]
  dsimp only
  cases named.isEmpty <;> cases SwitchValue.given? arguments.rules <;> cases arguments.dryRun <;>
    cases arguments.verbose <;> cases arguments.logging.isEmpty <;> rfl

theorem wellKeyed_logging : (Value.map arguments.logging).WellKeyed := by
  rw [logging_eq_ofGiven]
  refine Mapping.wellKeyed_ofGiven arguments.nodup_logSettings (List.forall_mem_cons.2
    ⟨fun value h => ?_, List.forall_mem_singleton.2 fun value h => ?_⟩)
  · cases hdebug : arguments.debug <;> simp [hdebug] at h
    exact h ▸ .same rfl
  · obtain ⟨path, -, rfl⟩ := Option.map_eq_some_iff.1 h
    exact .same rfl

theorem wellKeyed_layer (h : (Value.map named).WellKeyed) :
    (Value.map (arguments.layer named)).WellKeyed := by
  have hsection : (Value.map (Mapping.ofGiven (arguments.settings named))).WellKeyed := by
    refine Mapping.wellKeyed_ofGiven arguments.nodup_settings ?_
    unfold settings
    simp only [List.forall_mem_cons, List.not_mem_nil, false_imp_iff, implies_true, and_true]
    refine ⟨fun value hvalue => ?_, fun value hvalue => ?_, fun value hvalue => ?_,
      fun value hvalue => ?_, fun value hvalue => ?_⟩
    · split at hvalue <;> cases hvalue
      exact h
    · obtain ⟨path, -, rfl⟩ := Option.map_eq_some_iff.1 hvalue
      exact .same rfl
    · split at hvalue <;> cases hvalue
      exact .same rfl
    · split at hvalue <;> cases hvalue
      exact .same rfl
    · split at hvalue <;> cases hvalue
      exact arguments.wellKeyed_logging
  exact Mapping.wellKeyed_ofGiven (List.nodup_singleton _)
    (List.forall_mem_singleton.2 fun value hvalue => Option.some.inj hvalue ▸ hsection)

end Arguments

/-! ### Merging the layer -/

theorem merged_set_commandLine {layers : Layers} (hcommandLine : layers .commandLine = none)
    (hruntime : layers .runtime = none) (layer : Mapping) :
    (layers.set .commandLine layer).merged = merge layers.merged layer := by
  have hall : Config.Source.all =
      [.defaults, .system, .user, .environment] ++ [.commandLine, .runtime] := rfl
  have hlower : [Config.Source.defaults, .system, .user, .environment].filterMap
      (layers.set .commandLine layer) =
        [Config.Source.defaults, .system, .user, .environment].filterMap layers :=
    List.filterMap_congr fun source hsource => if_neg fun heq => by
      rw [heq] at hsource
      exact absurd hsource (by decide)
  have hupper : [Config.Source.commandLine, .runtime].filterMap (layers.set .commandLine layer) =
      [layer] := by
    simp [Layers.set, hruntime]
  have hnone : [Config.Source.commandLine, .runtime].filterMap layers = [] := by
    simp [hcommandLine, hruntime]
  unfold Layers.merged
  rw [hall, List.filterMap_append, List.filterMap_append, hlower, hupper, hnone, List.append_nil,
    List.foldl_append]
  rfl

/-- Roles that are named on the command line have the specifications given there, and all others
keep theirs. New names come behind. -/
structure RolesUnder (named roles roles' : Mapping) : Prop where
  specs : ∀ key, roles'.get? key = (named.get? key).or (roles.get? key)
  order : roles.map (·.1) <+: roles'.map (·.1)

/-- What is set for the log changes where the arguments say so, and nowhere else. -/
structure LogUnder (arguments : Arguments) (logging logging' : Mapping) : Prop where
  level : logging'.getText? "level" =
    if arguments.debug then some (.str "DEBUG") else logging.getText? "level"
  file : logging'.getText? "file" =
    ((SwitchValue.given? arguments.logFile).map .str).or (logging.getText? "file")
  others : ∀ key, key ≠ .str "level" → key ≠ .str "file" → logging'.get? key = logging.get? key
  order : logging.map (·.1) <+: logging'.map (·.1)

/-- The settings of the section change where the arguments say so, and nowhere else. -/
structure SectionUnder (arguments : Arguments) (named section_ section' : Mapping) : Prop where
  roles : ∀ roles, section_.getText? "roles" = some (.map roles) →
    ∃ roles', section'.getText? "roles" = some (.map roles') ∧ RolesUnder named roles roles'
  rulesFile : section'.getText? "rules_file" =
    ((SwitchValue.given? arguments.rules).map .str).or (section_.getText? "rules_file")
  dryRun : section'.getText? "dry_run" =
    if arguments.dryRun then some (.bool true) else section_.getText? "dry_run"
  verbose : section'.getText? "verbose" =
    if arguments.verbose then some (.bool true) else section_.getText? "verbose"
  logging : ∀ logging, section_.getText? "logging" = some (.map logging) →
    ∃ logging', section'.getText? "logging" = some (.map logging') ∧
      LogUnder arguments logging logging'
  others : ∀ key, key ∉ [Scalar.str "roles", .str "rules_file", .str "dry_run", .str "verbose",
    .str "logging"] → section'.get? key = section_.get? key
  order : section_.map (·.1) <+: section'.map (·.1)

/-- The configuration changes inside its section, and nowhere else. -/
structure ConfigUnder (arguments : Arguments) (named config config' : Mapping) : Prop where
  section_ : ∀ section_, config.getText? sectionKey = some (.map section_) →
    ∃ section', config'.getText? sectionKey = some (.map section') ∧
      SectionUnder arguments named section_ section'
  others : ∀ key, key ≠ .str sectionKey → config'.get? key = config.get? key
  order : config.map (·.1) <+: config'.map (·.1)

theorem order_merge {entries : Mapping} (distinct : entries.Distinct) (base : Mapping) :
    base.map (·.1) <+: (merge base entries).map (·.1) :=
  ⟨_, (Config.keys_merge distinct base).symm⟩

section

variable (arguments : Arguments) {named : Mapping}

theorem rolesUnder_merge (hplain : ∀ key value, named.get? key = some value → value.entries? = none)
    (hnamed : (Value.map named).WellKeyed) (roles : Mapping) :
    RolesUnder named roles (merge roles named) := by
  have distinct := (Mapping.wellKeyed_iff.1 hnamed).1
  refine ⟨fun key => ?_, order_merge distinct roles⟩
  rw [Config.get?_merge distinct]
  cases hvalue : named.get? key with
  | none => rfl
  | some value => exact congrArg some (Config.overlay_of_plain (hplain key value hvalue) _)

theorem logUnder_merge (logging : Mapping) :
    LogUnder arguments logging (merge logging arguments.logging) := by
  rw [arguments.logging_eq_ofGiven]
  have nodup := arguments.nodup_logSettings
  refine ⟨?_, ?_, fun key hlevel hfile => ?_, order_merge (Mapping.distinct_ofGiven nodup) logging⟩
  · rw [Mapping.getText?_merge_ofGiven nodup List.mem_cons_self]
    cases arguments.debug <;> rfl
  · rw [Mapping.getText?_merge_ofGiven nodup (List.mem_cons_of_mem _ List.mem_cons_self)]
    cases SwitchValue.given? arguments.logFile <;> rfl
  · refine Mapping.get?_merge_ofGiven_of_notMem nodup ?_ logging
    exact List.forall_mem_cons.2 ⟨hlevel, List.forall_mem_singleton.2 hfile⟩

/-- A part that is a mapping and is given as one is merged with it, and stays where it is not
given. -/
theorem elim_overlay_map {part : Option Value} {entries : Mapping} (h : part = some (.map entries))
    (given : Mapping) :
    (if given.isEmpty then none else some (Value.map given)).elim part
      (fun value => some (overlay part value)) = some (.map (merge entries given)) := by
  rw [h]
  cases given with
  | nil => rfl
  | cons entry rest => exact congrArg some (Config.overlay_map _ _)

theorem sectionUnder_merge
    (hplain : ∀ key value, named.get? key = some value → value.entries? = none)
    (hnamed : (Value.map named).WellKeyed) (section_ : Mapping) :
    SectionUnder arguments named section_
      (merge section_ (Mapping.ofGiven (arguments.settings named))) := by
  have nodup := @Arguments.nodup_settings arguments named
  have hget : ∀ setting ∈ arguments.settings named,
      (merge section_ (Mapping.ofGiven (arguments.settings named))).getText? setting.1 =
        setting.2.elim (section_.getText? setting.1) fun value =>
          some (overlay (section_.getText? setting.1) value) :=
    fun setting hsetting => Mapping.getText?_merge_ofGiven nodup hsetting section_
  obtain ⟨hroles, hget⟩ := List.forall_mem_cons.1 hget
  obtain ⟨hrules, hget⟩ := List.forall_mem_cons.1 hget
  obtain ⟨hdryRun, hget⟩ := List.forall_mem_cons.1 hget
  obtain ⟨hverbose, hget⟩ := List.forall_mem_cons.1 hget
  have hlogging := List.forall_mem_singleton.1 hget
  refine ⟨fun roles h => ?_, ?_, ?_, ?_, fun logging h => ?_, fun key hkey => ?_,
    order_merge (Mapping.distinct_ofGiven nodup) section_⟩
  · exact ⟨_, hroles.trans (elim_overlay_map h named), rolesUnder_merge hplain hnamed roles⟩
  · refine hrules.trans ?_
    cases SwitchValue.given? arguments.rules <;> rfl
  · refine hdryRun.trans ?_
    cases arguments.dryRun <;> rfl
  · refine hverbose.trans ?_
    cases arguments.verbose <;> rfl
  · exact ⟨_, hlogging.trans (elim_overlay_map h _), logUnder_merge arguments logging⟩
  · refine Mapping.get?_merge_ofGiven_of_notMem nodup (fun text htext heq => hkey ?_) section_
    exact heq ▸ List.mem_map_of_mem htext

theorem configUnder_merge
    (hplain : ∀ key value, named.get? key = some value → value.entries? = none)
    (hnamed : (Value.map named).WellKeyed) (config : Mapping) :
    ConfigUnder arguments named config (merge config (arguments.layer named)) := by
  have nodup : ([(sectionKey, some (Value.map (Mapping.ofGiven (arguments.settings named))))].map
      (·.1)).Nodup := List.nodup_singleton _
  refine ⟨fun section_ h => ?_, fun key hkey => ?_,
    order_merge (Mapping.distinct_ofGiven nodup) config⟩
  · refine ⟨_, ?_, sectionUnder_merge arguments hplain hnamed section_⟩
    refine (Mapping.getText?_merge_ofGiven nodup List.mem_cons_self config).trans ?_
    rw [h]
    exact congrArg some (Config.overlay_map _ _)
  · exact Mapping.get?_merge_ofGiven_of_notMem nodup (List.forall_mem_singleton.2 hkey) config

end

/-! ### The layers of a run -/

/-- Nothing is known of the command line yet, nor of anything above it. -/
def IsBelow (layers : Layers) : Prop := layers .commandLine = none ∧ layers .runtime = none

theorem IsBelow.set {layers : Layers} (h : IsBelow layers) {source : Config.Source}
    (hsource : source ∉ [Config.Source.commandLine, .runtime]) (mapping : Mapping) :
    IsBelow (layers.set source mapping) := by
  obtain ⟨hcommandLine, hruntime⟩ := h
  refine ⟨(if_neg fun heq => hsource ?_).trans hcommandLine,
    (if_neg fun heq => hsource ?_).trans hruntime⟩
  · exact heq ▸ List.mem_cons_self
  · exact heq ▸ List.mem_cons_of_mem _ List.mem_cons_self

theorem isBelow_of_loadFile {layers layers' : Layers} {reader : Reader} {disk : Disk} {path : Text}
    {source : Config.Source} (h : IsBelow layers)
    (hsource : source ∉ [Config.Source.commandLine, .runtime])
    (hload : layers.loadFile reader disk path source = .ok layers') : IsBelow layers' := by
  unfold Layers.loadFile at hload
  split at hload
  · cases hload
  · cases hload
    exact h.set hsource _

theorem isBelow_of_start {reader : Reader} {disk : Disk} {file : Option Text}
    {environment : Option (List (Text × Text))} {layers : Layers}
    (h : Layers.start reader disk file environment = .ok layers) : IsBelow layers := by
  have hinitial : IsBelow Layers.initial := ⟨rfl, rfl⟩
  unfold Layers.start at h
  dsimp only at h
  split at h
  · cases h
  · next fileLayers hfile =>
    have hbelow : IsBelow fileLayers := by
      split at hfile
      · exact Except.ok.inj hfile ▸ hinitial
      · exact Except.ok.inj hfile ▸ hinitial
      · exact isBelow_of_loadFile hinitial (by decide) hfile
    split at h
    · exact Except.ok.inj h ▸ hbelow
    · split at h
      · cases h
      · next hlayers =>
        cases h
        unfold Layers.withEnvironment at hlayers
        split at hlayers
        · cases hlayers
        · exact Except.ok.inj hlayers ▸ hbelow
        · exact Except.ok.inj hlayers ▸ hbelow.set (by decide) _

theorem isBelow_of_withSystemFile {reader : Reader} {below layers : Layers} {disk : Disk}
    {file : Option Text} (h : IsBelow below)
    (hlayers : Run.withSystemFile reader below disk file = .ok layers) : IsBelow layers := by
  unfold Run.withSystemFile at hlayers
  split at hlayers
  · exact Except.ok.inj hlayers ▸ h
  · split at hlayers
    · exact isBelow_of_loadFile h (by decide) hlayers
    · exact Except.ok.inj hlayers ▸ h

theorem isBelow_of_lowerLayers {reader : Reader} {disk : Disk} {environment : List (Text × Text)}
    {systemFile file : Option Text} {layers : Layers}
    (h : Run.lowerLayers reader disk environment systemFile file = .ok layers) :
    IsBelow layers := by
  unfold Run.lowerLayers at h
  split at h
  · cases h
  · cases h
  · next started hstart =>
    split at h
    · cases h
    · next hsystem =>
      cases h
      exact isBelow_of_withSystemFile (isBelow_of_start hstart) hsystem

theorem layers_eq_ok_iff {reader : Reader} {disk : Disk} {environment : List (Text × Text)}
    {systemFile file : Option Text} {layer : Mapping} {layers : Layers} :
    Run.layers reader disk environment systemFile file layer = .ok layers ↔
      ∃ below, Run.lowerLayers reader disk environment systemFile file = .ok below ∧
        layers = below.set .commandLine (merge [] layer) := by
  unfold Run.layers
  split
  · next hlower => cases Run.lowerLayers reader disk environment systemFile none <;> simp [hlower]
  · next hlower => simp [hlower]
  · next hlower => simp [hlower, eq_comm]

/-- A run merges the layer of its command line onto layers that hold nothing of it. -/
theorem layers_of_configuration {reader : Reader} {disk : Disk} {environment : List (Text × Text)}
    {systemFile file : Option Text} {layer config : Mapping}
    (h : Run.configuration reader disk environment systemFile file layer = .ok config) :
    ∃ layers, IsBelow layers ∧ config = (layers.set .commandLine (merge [] layer)).merged := by
  unfold Run.configuration at h
  split at h
  · cases h
  · next layers hlayers =>
    obtain ⟨below, hlower, rfl⟩ := layers_eq_ok_iff.1 hlayers
    refine ⟨below, isBelow_of_lowerLayers hlower, ?_⟩
    split at h
    · cases h
    · exact (Except.ok.inj h).symm

/-- Options that declare roles are refused just when one of them has no name, and otherwise declare
each name in its place with the last of its specifications. The layer of a command line, merged onto
any layers below it, changes the named roles and the settings that are given, and leaves everything
else as the layers below have it; and this is how a run comes to its configuration. -/
theorem commandLine_changes_what_is_given :
    (∀ options, (∃ error, parseRoles options = .error error) ↔
      ∃ option ∈ options, IsNameless option) ∧
    (∀ options named, parseRoles options = .ok named → DeclaresRoles options named) ∧
    (∀ options, rolesOfValues (options.map .text) = parseRoles options) ∧
    (∀ (arguments : Arguments) named, rolesOfValues (arguments.roles.getD []) = .ok named →
      ∃ layer, arguments.config? = .ok layer ∧ ∀ layers, IsBelow layers →
        ConfigUnder arguments named layers.merged
          (layers.set .commandLine (merge [] layer)).merged) ∧
    ∀ reader disk environment systemFile file layer config,
      Run.configuration reader disk environment systemFile file layer = .ok config →
        ∃ layers, IsBelow layers ∧ config = (layers.set .commandLine (merge [] layer)).merged := by
  refine ⟨fun _ => parseRoles_fails_iff, fun options named h => ?_, rolesOfValues_text,
    fun arguments named h => ?_, fun _ _ _ _ _ _ _ => layers_of_configuration⟩
  · obtain ⟨-, rfl⟩ := parseRoles_eq_ok h
    exact declaresRoles_setAll options
  · obtain ⟨options, hoptions⟩ := rolesOfValues_eq_ok h
    obtain ⟨hplain, hnamed⟩ := plain_of_parseRoles hoptions
    refine ⟨_, arguments.config?_eq_ok h, fun layers hbelow => ?_⟩
    -- the copy that is kept of the layer is the layer
    have hcopy : merge [] (arguments.layer named) = arguments.layer named :=
      Value.map.inj ((Config.overlay_map none _).symm.trans
        (Config.overlay_none (arguments.wellKeyed_layer hnamed)))
    rw [hcopy, merged_set_commandLine hbelow.1 hbelow.2]
    exact configUnder_merge arguments hplain hnamed _

/-- A role that is given twice with blanks around its name, one that is configured below, and the
level of the log. -/
theorem commandLine_changes_what_is_given_twice :
    let options : List Text := [" web = u,600 ", "db=u,640", "web=u,644"]
    let arguments : Arguments :=
      { Arguments.empty with roles := some (options.map .text), debug := true }
    let named : Mapping := [(.str "web", .str "u,644"), (.str "db", .str "u,640")]
    let below : Layers := Layers.initial.set .user [(.str sectionKey, .map
      [(.str "roles", .map [(.str "mail", .str "m,/600"), (.str "db", .str "d,700/")])])]
    DeclaresRoles options named ∧ IsNameless " =u,644" ∧
      (∃ error, parseRoles ["web=u,644", " =u,644"] = .error error) ∧ IsBelow below ∧
      ∃ layer, arguments.config? = .ok layer ∧
        ConfigUnder arguments named below.merged
        (below.set .commandLine (merge [] layer)).merged := by
  intro options arguments named below
  obtain ⟨hfails, hdeclares, htexts, hunder, -⟩ := commandLine_changes_what_is_given
  have hparse : parseRoles options = .ok named := rfl
  have hnameless : IsNameless " =u,644" := Or.inr (List.all_eq_true.1 (by decide))
  have hbelow : IsBelow below := ⟨rfl, rfl⟩
  obtain ⟨layer, hlayer, hmerged⟩ := hunder arguments named ((htexts options).trans hparse)
  exact ⟨hdeclares options named hparse, hnameless,
    (hfails _).2 ⟨_, List.mem_cons_of_mem _ List.mem_cons_self, hnameless⟩, hbelow, layer, hlayer,
    hmerged below hbelow⟩

end CommandLine

end PathRights
