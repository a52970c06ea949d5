import PathRights.SystemError
import PathRights.Text.Order
import PathRights.Tree.Kind

/-!
Trees of entries, and the calls on them. An entry has a name, a type and a mode, and may be set up
to fail: each call on it may have its own failure. A place in a tree is the list of the names on the
way down from its root. On that way every directory must let its owner pass.
-/

namespace PathRights

/-- How a call can fail: with an error of the system, with an error that nothing foresees, or
because the run is interrupted. -/
inductive Failure where
  | system (error : SystemError)
  | crash (fault : Crash)
  | interrupt
deriving DecidableEq, Repr

/-- The failures of an entry, by call. -/
structure Failures where
  stat : Option Failure
  lstat : Option Failure
  list : Option Failure
  chown : Option Failure
  chmod : Option Failure
deriving DecidableEq, Repr

/-- No call fails. -/
def Failures.none : Failures := ⟨.none, .none, .none, .none, .none⟩

/-- An entry with everything below it. -/
structure Node where
  name : Text
  type : FileType
  mode : Int
  failures : Failures
  children : List Node

/-- A place in a tree: the names on the way down from the root. -/
abbrev Location := List Text

/-- The bit `2 ^ exponent` is set in a mode. -/
def modeBit (exponent : Nat) (mode : Int) : Bool := mode / (Nat.pow 2 exponent : Nat) % 2 == 1

/-- The owner may list a directory of this mode. -/
def ownerReads (mode : Int) : Bool := modeBit 8 mode

/-- The owner may pass through a directory of this mode. -/
def ownerPasses (mode : Int) : Bool := modeBit 6 mode

namespace Node

/-- The child with a name. -/
def child? (node : Node) (name : Text) : Option Node :=
  node.children.find? fun child => child.name == name

/-- The children with `f` applied to the first that has a name. -/
def updateFirst (name : Text) (f : Node → Node) : List Node → List Node
  | [] => []
  | child :: rest => if child.name = name then f child :: rest else child :: updateFirst name f rest

/-- The entry at a place, once the way there has been passed. -/
def resolve : Node → Location → Except SystemError Node
  | node, [] => .ok node
  | node, name :: rest =>
    if node.type = .directory ∧ !ownerPasses node.mode then .error .accessDenied
    else
      match node.child? name with
      | some child => resolve child rest
      | none => .error .noEntry

/-- The tree with the mode of the entry at a place changed. -/
def setMode (mode : Int) : Location → Node → Node
  | [], node => { node with mode }
  | name :: rest, node =>
    { node with children := updateFirst name (setMode mode rest) node.children }

mutual

/-- The number of entries. -/
def size : Node → Nat
  | ⟨_, _, _, _, children⟩ => 1 + sizeAll children

/-- The number of entries of several trees. -/
def sizeAll : List Node → Nat
  | [] => 0
  | node :: rest => size node + sizeAll rest

end

/-! ### Calls -/

/-- Goes to a place and takes the failure that the entry has for a call, if any. -/
def reach (tree : Node) (location : Location) (failure : Failures → Option Failure) :
    Except Failure Node :=
  match tree.resolve location with
  | .error error => .error (.system error)
  | .ok node =>
    match failure node.failures with
    | some failure => .error failure
    | none => .ok node

/-- Looks at an entry, a symbolic link itself and not what it points to. -/
def lstat (tree : Node) (location : Location) : Except Failure FileType :=
  (tree.reach location (·.lstat)).map (·.type)

/-- Looks at the root of the tree. -/
def statRoot (tree : Node) : Except Failure FileType := (tree.reach [] (·.stat)).map (·.type)

/-- The names in a directory, in ascending order. The owner must be allowed to read it. -/
def list (tree : Node) (location : Location) : Except Failure (List Text) :=
  match tree.reach location (·.list) with
  | .error failure => .error failure
  | .ok node =>
    if ownerReads node.mode then .ok ((node.children.map (·.name)).mergeSort Text.isAtMost)
    else .error (.system .accessDenied)

/-- Changes the owner of an entry, which the tree does not record. -/
def chown (tree : Node) (location : Location) : Except Failure Unit :=
  (tree.reach location (·.chown)).map fun _ => ()

/-- Changes the mode of an entry. -/
def chmod (tree : Node) (location : Location) (mode : Int) : Except Failure Node :=
  (tree.reach location (·.chmod)).map fun _ => tree.setMode mode location

end Node

end PathRights
