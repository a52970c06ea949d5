import PathRights.Proofs.Role.Declaration
import PathRights.Proofs.Rule.Table
import PathRights.Proofs.Run.Preparation
import PathRights.Proofs.Run.Settings
import PathRights.Proofs.Tree.Completion
import PathRights.Proofs.Tree.Rearrangement

/-! The exit code of a run. With a configuration that passes its check, rules that are text or
cannot be read, and a tree whose calls fail with errors of the system only, a run ends with the code
of a foreseen fault, or with zero when it was prepared and then only checked or walked to the end.
Two things are not foreseen, and both come from a null character: the name of an account that is not
even looked up, and a root that is not even looked for. -/

namespace PathRights.Run

open CommandLine Walk

/-- The fault is one that the program foresees. -/
def Fault.IsForeseen (fault : Fault) : Prop :=
  ∃ status, fault.course = .foreseen status ∧
    status ∈ [Status.invalidInput, .notFound, .permissionDenied]

theorem Fault.IsForeseen.code {fault : Fault} (h : fault.IsForeseen) :
    fault.course.code ∈ [1, 2, 3] := by
  obtain ⟨status, hcourse, hstatus⟩ := h
  rw [hcourse]
  revert hstatus
  cases status <;> decide

theorem isForeseen_role {error : RoleError} (h : error.status? ≠ none) :
    (Fault.role error).IsForeseen := by
  cases error with
  | refusedLookup account => exact absurd rfl h
  | unknownUser | unknownGroup => exact ⟨.notFound, rfl, by simp⟩
  | badName | badSpec | duplicate => exact ⟨.invalidInput, rfl, by simp⟩

theorem isForeseen_table (error : RuleTableError) : (Fault.table error).IsForeseen :=
  ⟨.invalidInput, rfl, by simp⟩

/-- The standard input is text, or reading it fails. -/
def Input.IsText (input : Input) : Prop :=
  ∀ bytes, input.content = .ok bytes → ∃ text, Text.ofUtf8 bytes = .ok text

theorem readText_ne_nullInPath {disk : Disk} {path : Text} (hname : '\x00' ∉ path) :
    disk.readText path ≠ .error .nullInPath := by
  intro h
  have hcontains : path.contains '\x00' = false := by simpa using hname
  unfold Disk.readText at h
  split at h
  · next error hread =>
    cases h
    unfold Disk.readBytes at hread
    rw [hcontains, if_neg Bool.false_ne_true] at hread
    split at hread <;> cases hread
  · unfold Disk.textOfBytes at h
    split at h <;> cases h

theorem isForeseen_input {disk : Disk} {input : Input} {source : Text} {error : RuleInputError}
    (hname : '\x00' ∉ source) (hinput : source = standardInput → input.IsText)
    (h : ruleLines disk input source = .error error) : (Fault.input error).IsForeseen := by
  unfold ruleLines at h
  split at h
  · next hsource =>
    unfold inputLines at h
    split at h
    · cases h
      exact ⟨.invalidInput, rfl, by simp⟩
    · next bytes hbytes =>
      obtain ⟨text, htext⟩ := hinput hsource bytes hbytes
      rw [htext] at h
      cases h
  · unfold fileLines at h
    split at h
    · cases h
    · cases h
      exact ⟨.notFound, rfl, by simp⟩
    · next hread => exact absurd hread (readText_ne_nullInPath hname)
    · cases h
      exact ⟨.permissionDenied, rfl, by simp⟩

/-- A role names an account that is not even looked up. -/
def RefusesLookup (accounts : Accounts) (roles : Mapping) : Prop :=
  ∃ account, Registry.ofMapping accounts roles = .error (.refusedLookup account)

section

variable {journal : Log.Journal} {accounts : Accounts} {input : Input} {settings : Settings}
  {output : Log.Output}

/-- A fault is foreseen unless an account is not even looked up. -/
theorem Hinders.isForeseen {fault : Fault}
    (h : Hinders journal accounts input settings output fault)
    (hname : '\x00' ∉ settings.rulesFile)
    (hinput : settings.rulesFile = standardInput → input.IsText)
    (hlookup : ¬ RefusesLookup accounts settings.roles) : fault.IsForeseen := by
  cases h with
  | role h =>
    refine isForeseen_role fun hnone => ?_
    next error =>
    cases error with
    | refusedLookup account => exact hlookup ⟨account, h⟩
    | _ => cases hnone
  | input hroles h => exact isForeseen_input hname hinput h
  | table hroles hlines h => exact isForeseen_table _

end

/-- The calls on the tree at a site fail with errors of the system only. -/
def Foreseen (site : Option Site) : Prop := ∀ place, site = some place → place.tree.Foreseen

/-- How a walk ends from the root that it finds, or does not find. -/
def found (walk : Walk) : Except Failure Node → Except Abort Unit
  | .error failure => .error (.ofRoot walk.root failure)
  | .ok tree => entering walk tree

theorem entry?_of_null {path : Text} (h : '\x00' ∈ path) (site : Option Site) :
    Site.entry? site path = .error (.crash .nullCharacter) := if_pos h

/-- Without a null character in its path, an entry is there or it cannot be reached. -/
theorem entry?_cases {path : Text} (h : '\x00' ∉ path) {site : Option Site}
    (hsite : Foreseen site) :
    (∃ error, Site.entry? site path = .error (.system error)) ∨
      ∃ tree : Node, Site.entry? site path = .ok tree ∧ tree.Foreseen := by
  unfold Site.entry?
  rw [if_neg h]
  cases site with
  | none => exact Or.inl ⟨_, rfl⟩
  | some site =>
    dsimp only
    cases Path.namesBelow? site.path path with
    | none => exact Or.inl ⟨_, rfl⟩
    | some names =>
      dsimp only
      cases hresolve : site.tree.resolve names with
      | error error => exact Or.inl ⟨error, rfl⟩
      | ok tree => exact Or.inr ⟨tree, rfl, (hsite site rfl).of_resolve hresolve⟩

theorem foreseen_entry {site : Option Site} {path : Text} {tree : Node} (hsite : Foreseen site)
    (h : Site.entry? site path = .ok tree) : tree.Foreseen := by
  by_cases hnull : '\x00' ∈ path
  · cases (entry?_of_null hnull site).symm.trans h
  · rcases entry?_cases hnull hsite with ⟨error, herror⟩ | ⟨tree', htree, hforeseen⟩
    · cases herror.symm.trans h
    · obtain rfl : tree' = tree := Except.ok.inj (htree.symm.trans h)
      exact hforeseen

/-- The walk at a site comes to its end. -/
def Completes (walk : Walk) (site : Option Site) : Prop := (walkOver walk site).outcome = .ok ()

/-- The exit code of a run after its walk. -/
def outcomeCode : Except Abort Unit → Nat
  | .ok () => Status.success.code
  | .error abort => (Fault.walk abort).course.code

theorem code_normalize (journal : Log.Journal) (settings : Settings) (prepared : Prepared)
    (site : Option Site) (root : Text) (output : Log.Output) :
    (normalize journal settings prepared site root output).code =
      outcomeCode (walkOver (walkOf journal settings root (output.disk.absolute root) prepared)
        site).outcome := by
  unfold normalize
  dsimp only
  split
  · next houtcome =>
    rw [houtcome]
    rfl
  · next abort houtcome =>
    rw [houtcome]
    rfl

section

variable (journal : Log.Journal) (config : Mapping) (accounts : Accounts) (input : Input)
  (site : Option Site) (root : Text) (check : Bool) (output : Log.Output) (hsite : Foreseen site)

include hsite

variable (hname : '\x00' ∉ (Settings.ofConfig config).rulesFile)
  (hinput : (Settings.ofConfig config).rulesFile = standardInput → input.IsText)

include hname hinput

end

/-- A tree in which a directory can neither be given away nor listed, and a file not be looked
at. -/
def faultyTree : Node :=
  ⟨[], .directory, 0o755, .none,
    [⟨"a", .directory, 0o755,
      ⟨none, none, some (.system .inputOutput), some (.system .notPermitted), none⟩, []⟩,
     ⟨"b", .regular, 0o644, ⟨none, some (.system .accessDenied), none, none, none⟩, []⟩]⟩

/-- A configuration with one role for directories. -/
def openingConfig : Mapping :=
  [(.str Config.sectionKey, .map [(.str "roles", .map [(.str "open", .str "u:g,755/")])])]

/-- The accounts that the role names. -/
def openingAccounts : Accounts := .ofLists [("u", 1)] [("g", 2)]

/-- A standard input with one line for all directories. -/
def openingInput : Input := ⟨.ok (Text.toUtf8 "**/ open"), false⟩

theorem prepares_openingConfig (journal : Log.Journal) (output : Log.Output) :
    Prepares journal openingAccounts openingInput (Settings.ofConfig openingConfig) output
      ⟨⟨[⟨"open", "u", 1, "g", 2, 0o755, none⟩]⟩, openingWalk.table, openingWalk.givesModes⟩ where
  roles := by cbv
  rules := ⟨["**/ open".toList], by cbv, by with_unfolding_all rfl⟩

/-- A tree with a root that its owner may not read, and whose mode may be beyond change. -/
def lockedTree (chmod : Option Failure) : Node :=
  ⟨[], .directory, 0, { Failures.none with chmod },
    [⟨"a", .directory, 0, .none, [⟨"b", .regular, 0o644, .none, []⟩]⟩]⟩

theorem foreseen_lockedTree {chmod : Option Failure}
    (h : ∀ failure, chmod = some failure → failure.abort? = none) :
    Foreseen (some ⟨"/srv", lockedTree chmod⟩) := by
  intro place hplace
  obtain rfl := Option.some.inj hplace
  have hnone : Failures.none.Foreseen := by simp [Failures.none, Failures.Foreseen, Failures.all]
  refine Node.foreseen_of_children ?_ fun child hchild => ?_
  · intro failure hfailure
    refine h failure ?_
    simpa [lockedTree, Failures.none, Failures.all, eq_comm] using hfailure
  · obtain rfl := List.mem_singleton.1 hchild
    refine Node.foreseen_of_children hnone fun child hchild => ?_
    obtain rfl := List.mem_singleton.1 hchild
    exact Node.foreseen_of_children hnone fun _ h => absurd h List.not_mem_nil

end PathRights.Run
