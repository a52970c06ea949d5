import PathRights.Proofs.Tree.Preorder

/-! Trees in which one entry is altered. `alter` is `setMode` for any change of an entry that leaves
its name and what is in it alone. Changes at different places can be made in any order, a change
moves no entry to another place among its siblings, and `resolve` sees it only on its way. -/

namespace PathRights.Node

/-- The tree with the entry at a place altered. -/
def alter (f : Node → Node) : Location → Node → Node
  | [], node => f node
  | name :: rest, node => { node with children := updateFirst name (alter f rest) node.children }

theorem setMode_eq_alter (mode : Int) (location : Location) :
    setMode mode location = alter (fun node => { node with mode }) location := by
  induction location with
  | nil => rfl
  | cons name rest ih =>
    funext node
    rw [setMode, alter, ih]

/-- The change leaves the name of an entry and what is in it alone. -/
structure IsOwn (f : Node → Node) : Prop where
  name : ∀ node, (f node).name = node.name
  children : ∀ node children, f { node with children } = { f node with children }

theorem isOwn_mode (mode : Int) : IsOwn fun node => { node with mode } :=
  ⟨fun _ => rfl, fun _ _ => rfl⟩

theorem IsOwn.children_eq {f : Node → Node} (hf : IsOwn f) (node : Node) :
    (f node).children = node.children := by
  cases node with
  | mk name type mode failures children =>
    have h := congrArg Node.children (hf.children ⟨name, type, mode, failures, children⟩ children)
    exact h

theorem IsOwn.name_alter {f : Node → Node} (hf : IsOwn f) (location : Location) (node : Node) :
    (alter f location node).name = node.name := by
  cases location with
  | nil => exact hf.name node
  | cons name rest => rfl

/-! ### Two changes -/

theorem updateFirst_updateFirst {f g : Node → Node} (hg : ∀ node, (g node).name = node.name)
    (name : Text) (nodes : List Node) :
    updateFirst name f (updateFirst name g nodes) = updateFirst name (f ∘ g) nodes := by
  induction nodes with
  | nil => rfl
  | cons node nodes ih =>
    by_cases hname : node.name = name
    · simp [updateFirst, hname, hg]
    · simp [updateFirst, hname, ih]

theorem updateFirst_comm {f g : Node → Node} (hf : ∀ node, (f node).name = node.name)
    (hg : ∀ node, (g node).name = node.name) {name name' : Text} (hne : name ≠ name')
    (nodes : List Node) :
    updateFirst name f (updateFirst name' g nodes) =
      updateFirst name' g (updateFirst name f nodes) := by
  induction nodes with
  | nil => rfl
  | cons node nodes ih =>
    by_cases hname : node.name = name
    · have hname' : node.name ≠ name' := fun h => hne (hname.symm.trans h)
      simp [updateFirst, hname, hf, hne]
    · by_cases hname' : node.name = name'
      · simp [updateFirst, hname', hg, Ne.symm hne]
      · simp [updateFirst, hname, hname', ih]

theorem alter_alter {f g : Node → Node} (hg : IsOwn g) (location : Location) (node : Node) :
    alter f location (alter g location node) = alter (f ∘ g) location node := by
  induction location generalizing node with
  | nil => rfl
  | cons name rest ih =>
    have hcomp : alter f rest ∘ alter g rest = alter (f ∘ g) rest := funext ih
    simp only [alter]
    rw [updateFirst_updateFirst (hg.name_alter rest), hcomp]

theorem alter_comm {f g : Node → Node} (hf : IsOwn f) (hg : IsOwn g) {location other : Location}
    (hne : location ≠ other) (node : Node) :
    alter f location (alter g other node) = alter g other (alter f location node) := by
  induction location generalizing other node with
  | nil =>
    cases other with
    | nil => exact absurd rfl hne
    | cons name rest =>
      simp only [alter]
      rw [hf.children, hf.children_eq]
  | cons name location ih =>
    cases other with
    | nil =>
      simp only [alter]
      rw [hg.children, hg.children_eq]
    | cons name' other =>
      simp only [alter]
      by_cases hname : name = name'
      · subst hname
        have hrest : location ≠ other := fun h => hne (congrArg (name :: ·) h)
        have hcomp : alter f location ∘ alter g other = alter g other ∘ alter f location :=
          funext (ih hrest)
        rw [updateFirst_updateFirst (hg.name_alter other),
          updateFirst_updateFirst (hf.name_alter location), hcomp]
      · rw [updateFirst_comm (hf.name_alter location) (hg.name_alter other) hname]

theorem updateFirst_eq_self {f : Node → Node} {name : Text} {nodes : List Node} {found : Node}
    (hfound : nodes.find? (·.name == name) = some found) (hf : f found = found) :
    updateFirst name f nodes = nodes := by
  induction nodes with
  | nil => rfl
  | cons node nodes ih =>
    by_cases hname : node.name = name
    · obtain rfl : node = found := by simpa [hname] using hfound
      simp [updateFirst, hname, hf]
    · have hfound' : nodes.find? (·.name == name) = some found := by simpa [hname] using hfound
      simp [updateFirst, hname, ih hfound']

/-- A change that leaves an entry as it is leaves the tree as it is. -/
theorem alter_eq_self {f : Node → Node} {location : Location} {node target : Node}
    (htarget : node.at? location = some target) (hf : f target = target) :
    alter f location node = node := by
  induction location generalizing node with
  | nil =>
    cases htarget
    exact hf
  | cons name rest ih =>
    rw [at?_cons] at htarget
    obtain ⟨child, hchild, hrest⟩ := Option.bind_eq_some_iff.1 htarget
    rw [alter, updateFirst_eq_self hchild (ih hrest)]
    cases node
    rfl

/-! ### The altered tree -/

theorem child?_alter {f : Node → Node} (hf : IsOwn f) (name : Text) (rest : Location) (node : Node)
    (other : Text) :
    (alter f (name :: rest) node).child? other =
      if name = other then (node.child? other).map (alter f rest) else node.child? other :=
  find?_updateFirst (hf.name_alter rest) node.children other

theorem childNames_alter {f : Node → Node} (hf : IsOwn f) (location : Location) (node : Node) :
    (alter f location node).childNames = node.childNames := by
  cases location with
  | nil => exact congrArg (List.map Node.name) (hf.children_eq node)
  | cons name rest => exact map_name_updateFirst (hf.name_alter rest) node.children

theorem sameNames_alter {f : Node → Node} (hf : IsOwn f) (location : Location) (tree : Node) :
    SameNames (alter f location tree) tree := by
  intro other
  induction location generalizing other tree with
  | nil =>
    cases other with
    | nil => exact congrArg some (childNames_alter hf [] tree)
    | cons name rest =>
      have hchild : (alter f [] tree).child? name = tree.child? name := by
        unfold child?
        rw [alter, hf.children_eq]
      rw [at?_cons, hchild, at?_cons]
  | cons name location ih =>
    cases other with
    | nil => exact congrArg some (childNames_alter hf (name :: location) tree)
    | cons name' rest =>
      rw [at?_cons, child?_alter hf, at?_cons]
      by_cases hname : name = name'
      · subst hname
        cases hchild : tree.child? name with
        | none => simp
        | some child => simpa [hchild] using ih child rest
      · rw [if_neg hname]

theorem DistinctNames.alter {f : Node → Node} {tree : Node} (h : tree.DistinctNames) (hf : IsOwn f)
    (location : Location) : (tree.alter f location).DistinctNames :=
  h.of_sameNames (sameNames_alter hf location tree).symm

theorem updateFirst_eq_map {f : Node → Node} {name : Text} {nodes : List Node}
    (hnodup : (nodes.map (·.name)).Nodup) :
    updateFirst name f nodes = nodes.map fun node => if node.name = name then f node else node := by
  induction nodes with
  | nil => rfl
  | cons node nodes ih =>
    simp only [List.map_cons, List.nodup_cons, List.mem_map, not_exists, not_and] at hnodup
    by_cases hname : node.name = name
    · have hothers : ∀ n ∈ nodes, (if n.name = name then f n else n) = n := fun n hn =>
        if_neg fun h => hnodup.1 n hn (h.trans hname.symm)
      rw [updateFirst, if_pos hname, List.map_cons, if_pos hname, List.map_congr_left hothers,
        List.map_id']
    · rw [updateFirst, if_neg hname, List.map_cons, if_neg hname, ih hnodup.2]

/-- The order of the names is what it was. -/
theorem inNameOrder_alter {f : Node → Node} (hf : IsOwn f) {node : Node} (name : Text)
    (rest : Location) (hnodup : node.childNames.Nodup) :
    (alter f (name :: rest) node).inNameOrder =
      node.inNameOrder.map fun child =>
        if child.name = name then alter f rest child else child := by
  have hname (child : Node) :
      (if child.name = name then alter f rest child else child).name = child.name := by
    split
    · exact hf.name_alter rest child
    · rfl
  unfold inNameOrder
  rw [alter, updateFirst_eq_map hnodup]
  refine (List.map_mergeSort fun child _ other _ => ?_).symm
  rw [hname, hname]

/-! ### The way to an entry -/

theorem resolve_cons (tree : Node) (name : Text) (rest : Location) :
    tree.resolve (name :: rest) =
      if tree.type = .directory ∧ !ownerPasses tree.mode then .error .accessDenied
      else
        match tree.child? name with
        | some child => child.resolve rest
        | none => .error .noEntry := rfl

theorem resolve_append (tree : Node) (location rest : Location) :
    tree.resolve (location ++ rest) = (tree.resolve location).bind (·.resolve rest) := by
  induction location generalizing tree with
  | nil => rfl
  | cons name location ih =>
    rw [List.cons_append, resolve_cons, resolve_cons]
    split
    · rfl
    · cases tree.child? name with
      | none => rfl
      | some child => exact ih child

/-- A change behind the first name of a way leaves the way as it is up to the child. -/
theorem resolve_setMode_cons (mode : Int) (name : Text) (location : Location) (tree : Node)
    (rest : Location) :
    (tree.setMode mode (name :: location)).resolve (name :: rest) =
      if tree.type = .directory ∧ !ownerPasses tree.mode then .error .accessDenied
      else
        match tree.child? name with
        | some child => (child.setMode mode location).resolve rest
        | none => .error .noEntry := by
  rw [resolve_cons, child?_setMode, if_pos rfl]
  cases tree.child? name with
  | none => rfl
  | some child => rfl

/-- The mode of an entry does not stand in the way to it. -/
theorem resolve_setMode_self (mode : Int) (location : Location) (tree : Node) :
    (tree.setMode mode location).resolve location =
      (tree.resolve location).map fun node => { node with mode } := by
  induction location generalizing tree with
  | nil => rfl
  | cons name location ih =>
    rw [resolve_setMode_cons, resolve_cons]
    split
    · rfl
    · cases tree.child? name with
      | none => rfl
      | some child => exact ih child

/-- Nor do the modes of its siblings and of what is in them. -/
theorem resolve_setMode_sibling (mode : Int) (location : Location) {name other : Text}
    (hne : name ≠ other) (rest : Location) (tree : Node) :
    (tree.setMode mode (location ++ name :: rest)).resolve (location ++ [other]) =
      tree.resolve (location ++ [other]) := by
  induction location generalizing tree with
  | nil =>
    rw [List.nil_append, List.nil_append, resolve_cons, resolve_cons, child?_setMode, if_neg hne]
    rfl
  | cons first location ih =>
    rw [List.cons_append, List.cons_append, resolve_setMode_cons, resolve_cons]
    split
    · rfl
    · cases tree.child? first with
      | none => rfl
      | some child => exact ih child

end PathRights.Node
