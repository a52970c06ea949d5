import PathRights.Proofs.Role.Declaration
import PathRights.Proofs.Role.Mode
import PathRights.Proofs.Run.Preparation
import PathRights.Proofs.Tree.Effect
import PathRights.Proofs.Tree.Pairing

/-! The modes that entries are given. A line is only read when the role on it is in the registry and
has a mode for what the line selects, and the modes of a registry are permission modes. So where a
walk takes the mode of a role, there is one, and no walk passes on a mode that is none. -/

namespace PathRights

/-- The mode is made of permission bits alone. -/
def IsPermissionMode (mode : Int) : Prop := 0 ≤ mode ∧ mode ≤ Role.largestMode

/-- The role of a rule is the one that the registry has under the name on the line of the rule, the
only one of this name. A line that holds `-` in the place of a name gives no role. -/
def Rule.HasRoleOf (rule : Rule) (registry : Registry) (line : Text) : Prop :=
  writtenRole line = noRole ∧ rule.role = none ∨
    ∃ role, writtenRole line ≠ noRole ∧ rule.role = some role ∧
      registry.get? (writtenRole line) = some role ∧
      ∀ other, other ∈ registry.roles ∧ other.name = writtenRole line ↔ other = role

namespace RuleTable

/-- The mode is that of a role for an entry that the table gives to the role. -/
def Gives (table : RuleTable) (mode : Int) : Prop :=
  ∃ entry role rule given, table.decide entry = .apply role rule ∧
    role.modeFor entry.isDirectory = some given ∧ mode = (given : Nat)

section

variable {registry : Registry} {source : Text} {lines : List Text} {table : RuleTable}
  (hload : load registry source lines = .ok table)

include hload

variable (hbuilt : registry.IsBuilt)

include hbuilt

/-- A rule of a table has the role that is written on its line. -/
theorem hasRoleOf_of_load {rule : Rule} (hrule : rule ∈ table.rules) :
    ∃ index text line, rule.lineNumber = 1 + index ∧ lines[index]? = some text ∧
      Rule.significant? text = some line ∧ rule.HasRoleOf registry line := by
  rw [(load_eq_ok.1 hload).2] at hrule
  obtain ⟨index, text, line, hnumber, htext, hline, hread⟩ := Rule.line_of_mem_rules hrule
  obtain ⟨raw, hfields⟩ := Rule.ofFields_of_readLine hread
  refine ⟨index, text, line, hnumber, htext, hline, ?_⟩
  rcases Rule.readRole_ok (Rule.role_of_ofFields hfields).2 with
    ⟨hname, hnone⟩ | ⟨role, hname, hget, hrole, -⟩
  · exact Or.inl ⟨hname, hnone⟩
  · refine Or.inr ⟨role, hname, hrole, hget, fun other => ?_⟩
    rw [← hbuilt.get?_eq_some_iff, hget, Option.some_inj, eq_comm]

theorem mem_roles_of_decide {entry : Entry} {role : Role} {rule : Rule}
    (h : table.decide entry = .apply role rule) : role ∈ registry.roles := by
  obtain ⟨hmem, -, hrole⟩ := rule_of_decide h
  obtain ⟨-, -, line, -, -, -, hline⟩ := hasRoleOf_of_load hload hbuilt hmem
  rcases hline with ⟨-, hnone⟩ | ⟨found, -, hfound, -, honly⟩
  · cases hrole.symm.trans hnone
  · obtain rfl : role = found := Option.some.inj (hrole.symm.trans hfound)
    exact ((honly role).2 rfl).1

theorem modeFor_le_of_decide {entry : Entry} {role : Role} {rule : Rule} {mode : Nat}
    (h : table.decide entry = .apply role rule)
    (hmode : role.modeFor entry.isDirectory = some mode) :
    mode ≤ Role.largestMode := by
  obtain ⟨accounts, name, spec, hparse⟩ :=
    hbuilt.parsed role (mem_roles_of_decide hload hbuilt h)
  exact Role.modeFor_le_of_parse hparse hmode

theorem Gives.isPermissionMode {mode : Int} (h : table.Gives mode) : IsPermissionMode mode := by
  obtain ⟨entry, role, rule, given, hdecide, hgiven, rfl⟩ := h
  have hle := modeFor_le_of_decide hload hbuilt hdecide hgiven
  exact ⟨Int.natCast_nonneg given, Int.ofNat_le.2 hle⟩

end

end RuleTable

namespace Walk

open Work

/-- Every mode that was passed to a call, or is told as one that would be, is one that the table
gives. -/
structure ModesGiven (table : RuleTable) (s : Session) : Prop where
  calls : ∀ path mode, .chmod path mode ∈ s.calls → table.Gives mode
  events : ∀ path mode, .wouldChangeMode path mode ∈ s.events → table.Gives mode

variable {table : RuleTable} {s : Session}

theorem ModesGiven.addCall (h : ModesGiven table s) {call : Call}
    (hcall : ∀ path mode, call = .chmod path mode → table.Gives mode) :
    ModesGiven table { s with calls := s.calls ++ [call] } := by
  refine ⟨fun path mode hmem => ?_, h.events⟩
  rcases List.mem_append.1 hmem with hmem | hmem
  · exact h.calls path mode hmem
  · exact hcall path mode (List.mem_singleton.1 hmem).symm

theorem ModesGiven.addEvent (h : ModesGiven table s) {event : Event}
    (hevent : ∀ path mode, event = .wouldChangeMode path mode → table.Gives mode) :
    ModesGiven table { s with events := s.events ++ [event] } := by
  refine ⟨h.calls, fun path mode hmem => ?_⟩
  rcases List.mem_append.1 hmem with hmem | hmem
  · exact h.events path mode hmem
  · exact hevent path mode (List.mem_singleton.1 hmem).symm

theorem invariant_modesGiven (walk : Walk) : walk.Invariant (ModesGiven walk.table) where
  count _ _ h := ⟨h.calls, h.events⟩
  report s event hevent h := h.addEvent fun path mode heq => by
    subst heq
    cases hevent
  chown location entry role rule _ := by
    refine keeps_operation _ _ (fun _ s h => ?_) (fun _ s h => ?_) (fun _ s tree h => ?_)
      fun _ s h => ?_
    · exact h.addEvent fun _ _ heq => by cases heq
    · exact h.addCall fun _ _ heq => by cases heq
    · exact ⟨h.calls, h.events⟩
    · exact h.addEvent fun _ _ heq => by cases heq
  chmod location entry role rule mode hdecide hmode := by
    have hgives : walk.table.Gives (mode : Nat) := ⟨entry, role, rule, mode, hdecide, hmode, rfl⟩
    refine keeps_operation _ _ (fun _ s h => ?_) (fun _ s h => ?_) (fun _ s tree h => ?_)
      fun _ s h => ?_
    · exact h.addEvent fun path mode heq => by
        cases heq
        exact hgives
    · exact h.addCall fun path mode heq => by
        cases heq
        exact hgives
    · exact ⟨h.calls, h.events⟩
    · exact h.addEvent fun _ _ heq => by cases heq

theorem modesGiven_traverse (walk : Walk) (tree : Node) :
    ModesGiven walk.table (walk.traverse tree).2 :=
  (invariant_modesGiven walk).traverse
    ⟨fun _ _ h => absurd h List.not_mem_nil, fun _ _ h => absurd h List.not_mem_nil⟩

end Walk

namespace Run

/-- Every mode that is given exists and is a permission mode. A rule of a loaded table has the role
that the registry has under the name on its line, or none; a role that the table gives to an entry
has a mode for it, of permission bits alone; and it is such modes that walks by the table, and whole
runs, pass to calls or tell of in their stead. -/
theorem given_modes_are_permissions {registry : Registry} {source : Text} {lines : List Text}
    {table : RuleTable} (hbuilt : registry.IsBuilt)
    (hload : RuleTable.load registry source lines = .ok table) :
    (∀ rule ∈ table.rules, ∃ index text line, rule.lineNumber = 1 + index ∧
      lines[index]? = some text ∧ Rule.significant? text = some line ∧
      rule.HasRoleOf registry line) ∧
    (∀ entry role rule, table.decide entry = .apply role rule → role ∈ registry.roles ∧
      ∃ mode, role.modeFor entry.isDirectory = some mode ∧ mode ≤ Role.largestMode) ∧
    (∀ walk tree path mode, walk.table = table →
      .chmod path mode ∈ (Walk.traverse walk tree).2.calls ∨
        .wouldChangeMode path mode ∈ (Walk.traverse walk tree).2.events →
      table.Gives mode ∧ IsPermissionMode mode) ∧
    ∀ journal config accounts input site root check output path mode,
      .chmod path mode ∈ (run journal config accounts input site root check output).calls →
      ∃ prepared, Prepares journal accounts input (Settings.ofConfig config) output prepared ∧
        prepared.table.Gives mode ∧ IsPermissionMode mode := by
  refine ⟨fun rule hrule => RuleTable.hasRoleOf_of_load hload hbuilt hrule,
    fun entry role rule hdecide => ?_, fun walk tree path mode htable h => ?_,
    fun journal config accounts input site root check output path mode h => ?_⟩
  · obtain ⟨mode, hmode⟩ := (RuleTable.givesModes_of_load hload).modeFor hdecide
    exact ⟨RuleTable.mem_roles_of_decide hload hbuilt hdecide, mode, hmode,
      RuleTable.modeFor_le_of_decide hload hbuilt hdecide hmode⟩
  · subst htable
    have hgiven := Walk.modesGiven_traverse walk tree
    have hgives : walk.table.Gives mode :=
      h.elim (hgiven.calls path mode) (hgiven.events path mode)
    exact ⟨hgives, hgives.isPermissionMode hload hbuilt⟩
  · obtain ⟨prepared, walk, tree, hprepares, htable, hcall⟩ := exists_walk_of_mem_calls h
    obtain ⟨lines, -, hload⟩ := hprepares.rules
    have hgives : prepared.table.Gives mode :=
      htable ▸ (Walk.modesGiven_traverse walk tree).calls path mode hcall
    exact ⟨prepared, hprepares, hgives,
      hgives.isPermissionMode hload (Registry.isBuilt_of_ofDeclarations hprepares.roles)⟩

/-- A role without a mode for files, on a line for directories. -/
theorem given_modes_are_permissions_opening :
    ∃ registry, Registry.ofDeclarations (.ofLists [("u", 1)] [("g", 2)])
      [(.str "open", .str "u:g,755/")] =
        .ok registry ∧
      RuleTable.load registry "rules" ["**/ open".toList] = .ok Walk.openingWalk.table ∧
      Call.chmod "/srv" 0o755 ∈ (Walk.openingWalk.traverse Walk.closedTree).2.calls ∧
      Walk.openingWalk.table.Gives 0o755 ∧ IsPermissionMode 0o755 := by
  have hregistry : Registry.ofDeclarations (.ofLists [("u", 1)] [("g", 2)])
      [(.str "open", .str "u:g,755/")] = .ok ⟨[⟨"open", "u", 1, "g", 2, 0o755, none⟩]⟩ := by cbv
  have hcalls : (Walk.openingWalk.traverse Walk.closedTree).2.calls =
      [.chown "/srv" 1 2, .chmod "/srv" 0o755, .chown "/srv/a" 1 2, .chmod "/srv/a" 0o755] := by cbv
  have hcall : Call.chmod "/srv" 0o755 ∈ (Walk.openingWalk.traverse Walk.closedTree).2.calls := by
    simp [hcalls]
  obtain ⟨-, -, hwalk, -⟩ := given_modes_are_permissions
    (Registry.isBuilt_of_ofDeclarations hregistry) Walk.load_openingWalk
  exact ⟨_, hregistry, Walk.load_openingWalk, hcall, hwalk _ _ _ _ rfl (Or.inl hcall)⟩

end Run

end PathRights
