import Mathlib.Data.List.Nodup
import PathRights.Proofs.Role.Form
import PathRights.Role.Registry

/-! The roles of a registry. Each is made of a specification whose user and group the accounts know,
and which has a mode for directories or one for files. -/

namespace PathRights

namespace Role

/-- A role that is read has a checked name and the parts of a specification that can be read. -/
theorem ofSpec_of_parse {accounts : Accounts} {name spec : Value} {role : Role}
    (h : parse accounts name spec = .ok role) :
    ∃ name' spec' userId groupId, checkName name = .ok name' ∧ Spec.ofValue spec = .ok spec' ∧
      accounts.user spec'.user = .found userId ∧
      accounts.group (spec'.group.getD spec'.user) = .found groupId ∧
      role = ofSpec name' spec' userId (spec'.group.getD spec'.user) groupId := by
  unfold parse at h
  split at h
  · cases h
  · next name' hname =>
    split at h
    · cases h
    · next spec' hspec =>
      dsimp only at h
      split at h
      · cases h
      · cases h
      · next userId huser =>
        split at h
        · cases h
        · cases h
        · next groupId hgroup =>
          cases h
          exact ⟨name', spec', userId, groupId, hname, hspec, huser, hgroup, rfl⟩

theorem parse_of_spec {accounts : Accounts} {name spec : Value} {text : Text} {parts : Spec}
    {userId groupId : Int} (hname : checkName name = .ok text)
    (hspec : Spec.ofValue spec = .ok parts)
    (huser : accounts.user parts.user = .found userId)
    (hgroup : accounts.group (parts.group.getD parts.user) = .found groupId) :
    parse accounts name spec =
      .ok (ofSpec text parts userId (parts.group.getD parts.user) groupId) := by
  unfold parse
  rw [hname, hspec]
  dsimp only
  rw [huser]
  dsimp only
  rw [hgroup]

end Role

namespace Registry

/-- The registry holds roles that can be read, and no two of one name. -/
structure IsBuilt (registry : Registry) : Prop where
  parsed : ∀ role ∈ registry.roles, ∃ accounts name spec, Role.parse accounts name spec = .ok role
  distinct : registry.names.Nodup

theorem get?_eq_none_iff {registry : Registry} {name : Text} :
    registry.get? name = none ↔ name ∉ registry.names := by
  simp [get?, names]

/-- The names of a registry tell its roles apart. -/
theorem IsBuilt.get?_eq_some_iff {registry : Registry} (hbuilt : registry.IsBuilt) {name : Text}
    {role : Role} : registry.get? name = some role ↔ role ∈ registry.roles ∧ role.name = name := by
  constructor
  · intro h
    exact ⟨List.mem_of_find?_eq_some h, by simpa using List.find?_some h⟩
  · rintro ⟨hmem, rfl⟩
    cases hget : registry.get? role.name with
    | none => exact absurd (List.mem_map_of_mem hmem) (get?_eq_none_iff.1 hget)
    | some other =>
      have hname : other.name = role.name := by simpa using List.find?_some hget
      have hother : other ∈ registry.roles := List.mem_of_find?_eq_some hget
      rw [List.inj_on_of_nodup_map hbuilt.distinct hother hmem hname]

end Registry

end PathRights
