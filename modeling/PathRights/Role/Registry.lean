import PathRights.Role.Basic
import PathRights.Value.Mapping

/-!
Registries: the roles that rules may name, in the order of their declaration. No two roles of a
registry have one name.
-/

namespace PathRights

/-- The declared roles, in order. -/
structure Registry where
  roles : List Role
deriving DecidableEq, Repr

namespace Registry

/-- The role with a name. -/
def get? (registry : Registry) (name : Text) : Option Role :=
  registry.roles.find? fun role => role.name == name

/-- The names of the roles, in the order of declaration. -/
def names (registry : Registry) : List Text := registry.roles.map (·.name)

/-- The number of roles. -/
def size (registry : Registry) : Nat := registry.roles.length

/-- Reads declarations one after the other and adds each role; the first that cannot be read, or
whose name is taken, ends the reading. -/
def extend (accounts : Accounts) (registry : Registry) :
    List (Value × Value) → Except RoleError Registry
  | [] => .ok registry
  | (name, spec) :: rest =>
    match Role.parse accounts name spec with
    | .error error => .error error
    | .ok role =>
      match registry.get? role.name with
      | some _ => .error (.duplicate role.name)
      | none => extend accounts ⟨registry.roles ++ [role]⟩ rest

/-- The registry of a list of declarations. -/
def ofDeclarations (accounts : Accounts) (declarations : List (Value × Value)) :
    Except RoleError Registry :=
  extend accounts ⟨[]⟩ declarations

/-- The registry of a mapping from names to specifications. -/
def ofMapping (accounts : Accounts) (mapping : Mapping) : Except RoleError Registry :=
  ofDeclarations accounts (mapping.map fun (name, spec) => (.scalar name, spec))

end Registry

end PathRights
