import Mathlib.Data.List.Basic
import PathRights.Tree.Node

/-! The entries of a tree by their places. A change of a mode leaves everything else as it is: which
places there are, the names in each directory, the types and the failures. Two trees have the same
entries when they agree at every place, in whatever order the directories hold them; `list` sorts
the names, so that no call can tell such trees apart. -/

namespace PathRights.Node

/-- The entry at a place, whether or not the way there can be passed. -/
def at? : Node → Location → Option Node
  | node, [] => some node
  | node, name :: rest => (node.child? name).bind fun child => at? child rest

/-- The names in a directory, in the order of the tree. -/
def childNames (node : Node) : List Text := node.children.map (·.name)

/-- No directory of the tree holds two entries of one name. -/
def DistinctNames (tree : Node) : Prop :=
  ∀ location node, tree.at? location = some node → node.childNames.Nodup

@[simp] theorem at?_nil (node : Node) : node.at? [] = some node := rfl

theorem at?_cons (node : Node) (name : Text) (rest : Location) :
    node.at? (name :: rest) = (node.child? name).bind (·.at? rest) := rfl

theorem at?_append (node : Node) (location rest : Location) :
    node.at? (location ++ rest) = (node.at? location).bind (·.at? rest) := by
  induction location generalizing node with
  | nil => rfl
  | cons name location ih =>
    rw [List.cons_append, at?_cons, at?_cons, Option.bind_assoc]
    congr 1
    funext child
    exact ih child

theorem at?_of_resolve {tree node : Node} {location : Location}
    (h : tree.resolve location = .ok node) : tree.at? location = some node := by
  induction location generalizing tree with
  | nil =>
    cases h
    rfl
  | cons name rest ih =>
    unfold resolve at h
    split at h
    · cases h
    · split at h
      · next child hchild =>
        rw [at?_cons, hchild]
        exact ih h
      · cases h

theorem at?_of_reach {tree node : Node} {location : Location}
    {failure : Failures → Option Failure} (h : tree.reach location failure = .ok node) :
    tree.at? location = some node := by
  unfold reach at h
  split at h
  · cases h
  · next hresolve =>
    split at h
    · cases h
    · cases h
      exact at?_of_resolve hresolve

theorem child?_eq_some {node child : Node} (hnodup : node.childNames.Nodup)
    (h : child ∈ node.children) : node.child? child.name = some child := by
  unfold childNames at hnodup
  unfold child?
  generalize node.children = children at hnodup h
  induction children with
  | nil => simp at h
  | cons first children ih =>
    simp only [List.map_cons, List.nodup_cons, List.mem_map, not_exists, not_and] at hnodup
    rcases List.mem_cons.1 h with rfl | h
    · simp
    · have hne : first.name ≠ child.name := fun heq => hnodup.1 child h heq.symm
      have hbeq : (first.name == child.name) = false := by simpa using hne
      rw [List.find?_cons_of_neg (by simp [hbeq])]
      exact ih hnodup.2 h

theorem name_of_child? {node child : Node} {name : Text} (h : node.child? name = some child) :
    child.name = name := by
  simpa using List.find?_some h

theorem child?_eq_some_iff {node child : Node} {name : Text} (hnodup : node.childNames.Nodup) :
    node.child? name = some child ↔ child ∈ node.children ∧ child.name = name := by
  constructor
  · intro h
    exact ⟨List.mem_of_find?_eq_some h, name_of_child? h⟩
  · rintro ⟨hmem, rfl⟩
    exact child?_eq_some hnodup hmem

theorem at?_of_child? {tree child : Node} {name : Text} (h : tree.child? name = some child)
    (location : Location) : tree.at? (name :: location) = child.at? location := by
  rw [at?_cons, h]
  rfl

theorem DistinctNames.child {tree child : Node} {name : Text} (h : tree.DistinctNames)
    (hchild : tree.child? name = some child) : child.DistinctNames := by
  intro location node hnode
  rw [← at?_of_child? hchild] at hnode
  exact h _ node hnode

theorem distinctNames_of_child? {tree : Node} (hnodup : tree.childNames.Nodup)
    (hchild : ∀ name child, tree.child? name = some child → child.DistinctNames) :
    tree.DistinctNames := by
  intro location node hnode
  cases location with
  | nil =>
    cases hnode
    exact hnodup
  | cons name rest =>
    rw [at?_cons] at hnode
    obtain ⟨child, hsome, hnode⟩ := Option.bind_eq_some_iff.1 hnode
    exact hchild name child hsome rest node hnode

theorem distinctNames_of_children {tree : Node} (hnodup : tree.childNames.Nodup)
    (hchildren : ∀ child ∈ tree.children, child.DistinctNames) : tree.DistinctNames :=
  distinctNames_of_child? hnodup fun _ child hchild =>
    hchildren child (List.mem_of_find?_eq_some hchild)

/-! ### Changes of modes -/

@[simp] theorem name_setMode (mode : Int) (location : Location) (node : Node) :
    (node.setMode mode location).name = node.name := by
  cases location <;> rfl

theorem map_name_updateFirst {name : Text} {f : Node → Node}
    (hf : ∀ node, (f node).name = node.name)
    (children : List Node) :
    (updateFirst name f children).map (·.name) = children.map (·.name) := by
  induction children with
  | nil => rfl
  | cons first children ih =>
    unfold updateFirst
    split
    · simp [hf]
    · simp [ih]

theorem find?_updateFirst {name : Text} {f : Node → Node} (hf : ∀ node, (f node).name = node.name)
    (children : List Node) (other : Text) :
    (updateFirst name f children).find? (·.name == other) =
      if name = other then (children.find? (·.name == other)).map f
      else children.find? (·.name == other) := by
  induction children with
  | nil => simp [updateFirst]
  | cons first children ih =>
    unfold updateFirst
    by_cases hfirst : first.name = name
    · rw [if_pos hfirst]
      by_cases hother : name = other
      · simp [hf, hfirst, hother]
      · simp [hf, hfirst, hother]
    · rw [if_neg hfirst]
      by_cases hother : first.name = other
      · have hne : name ≠ other := fun h => hfirst (hother.trans h.symm)
        simp [hother, hne]
      · simp [hother, ih]

theorem child?_setMode (mode : Int) (name : Text) (rest : Location) (node : Node) (other : Text) :
    (node.setMode mode (name :: rest)).child? other =
      if name = other then (node.child? other).map (setMode mode rest)
      else node.child? other :=
  find?_updateFirst (name_setMode mode rest) node.children other

theorem childNames_setMode (mode : Int) (location : Location) (node : Node) :
    (node.setMode mode location).childNames = node.childNames := by
  cases location with
  | nil => rfl
  | cons name rest => exact map_name_updateFirst (name_setMode mode rest) node.children

/-- A change of a mode changes the entry at its place and no other. -/
theorem at?_setMode_map {α : Type} {view : Node → α} (mode : Int) (location other : Location)
    (node : Node)
    (hview : ∀ (node : Node) name rest, view (node.setMode mode (name :: rest)) = view node) :
    ((node.setMode mode location).at? other).map view =
      if location = other then (node.at? other).map fun n => view (n.setMode mode [])
      else (node.at? other).map view := by
  induction location generalizing node other with
  | nil =>
    cases other with
    | nil => rfl
    | cons name rest => rfl
  | cons name location ih =>
    cases other with
    | nil => simp [hview]
    | cons name' rest =>
      rw [at?_cons, child?_setMode, at?_cons]
      by_cases hname : name = name'
      · subst hname
        cases hchild : node.child? name with
        | none => simp
        | some child => simpa [hchild] using ih rest child
      · simp [hname]

/-- Where one mode is changed, the entry at each place is as it was but for the mode of that one. -/
theorem at?_of_setMode {tree node : Node} {mode : Int} {place other : Location}
    (h : (tree.setMode mode place).at? other = some node) :
    ∃ before, tree.at? other = some before ∧ node.failures = before.failures ∧
      node.type = before.type ∧ node.mode = if place = other then mode else before.mode := by
  have hview : ((tree.setMode mode place).at? other).map (fun n => (n.failures, n.type, n.mode)) =
      if place = other then (tree.at? other).map fun n => (n.failures, n.type, mode)
      else (tree.at? other).map fun n => (n.failures, n.type, n.mode) :=
    at?_setMode_map mode place other tree fun n name rest => rfl
  rw [h] at hview
  split at hview
  · next hplace =>
    obtain ⟨before, hbefore, heq⟩ := Option.map_eq_some_iff.1 hview.symm
    simp only [Prod.mk.injEq] at heq
    exact ⟨before, hbefore, heq.1.symm, heq.2.1.symm, by rw [if_pos hplace, heq.2.2]⟩
  · next hplace =>
    obtain ⟨before, hbefore, heq⟩ := Option.map_eq_some_iff.1 hview.symm
    simp only [Prod.mk.injEq] at heq
    exact ⟨before, hbefore, heq.1.symm, heq.2.1.symm, by rw [if_neg hplace, heq.2.2]⟩

/-! ### Trees with the same names -/

/-- The same places lead to directories that hold the same names. -/
def SameNames (tree tree' : Node) : Prop :=
  ∀ location, (tree.at? location).map childNames = (tree'.at? location).map childNames

theorem SameNames.refl (tree : Node) : SameNames tree tree := fun _ => rfl

theorem SameNames.symm {tree tree' : Node} (h : SameNames tree tree') : SameNames tree' tree :=
  fun location => (h location).symm

theorem SameNames.setMode {tree tree' : Node} (h : SameNames tree tree') (mode : Int)
    (location : Location) : SameNames (tree.setMode mode location) tree' := by
  intro other
  rw [at?_setMode_map mode location other tree fun n name rest => childNames_setMode mode _ n,
    ← h other]
  split
  · simp only [childNames_setMode]
  · rfl

theorem SameNames.at? {tree tree' node : Node} (h : SameNames tree tree') {location : Location}
    (hnode : tree.at? location = some node) :
    ∃ node', tree'.at? location = some node' ∧ node'.childNames = node.childNames := by
  have hnames := h location
  rw [hnode] at hnames
  obtain ⟨node', hnode', heq⟩ := Option.map_eq_some_iff.1 hnames.symm
  exact ⟨node', hnode', heq⟩

theorem DistinctNames.of_sameNames {tree tree' : Node} (hnames : tree.DistinctNames)
    (h : SameNames tree tree') : tree'.DistinctNames := by
  intro location node' hnode'
  obtain ⟨node, hnode, heq⟩ := h.symm.at? hnode'
  rw [← heq]
  exact hnames location node hnode

end PathRights.Node
