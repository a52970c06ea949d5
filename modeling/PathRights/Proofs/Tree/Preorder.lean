import PathRights.Proofs.Tree.Location
import PathRights.Proofs.Tree.Simulation

/-! The walk as a recursion over the tree. `preorder` keeps no stack and no names to come back to:
it handles an entry, and if this is a directory that can be listed, goes through the entries in it
before the next sibling. The walk does the same. What connects the two is `resume`, the work that
the stack of the walk stands for: a step of the walk leaves it as it is, and uses up some of
`stepsLeft`. -/

namespace PathRights

namespace Node

/-- The children in the order of their names. -/
def inNameOrder (node : Node) : List Node :=
  node.children.mergeSort fun child other => Text.isAtMost child.name other.name

theorem size_eq (node : Node) : node.size = 1 + sizeAll node.children := by
  cases node
  rw [size]

@[simp] theorem sizeAll_cons (node : Node) (rest : List Node) :
    sizeAll (node :: rest) = node.size + sizeAll rest := by rw [sizeAll]

theorem size_pos (node : Node) : 0 < node.size := by
  rw [size_eq]
  omega

theorem sizeAll_perm {nodes nodes' : List Node} (h : nodes.Perm nodes') :
    sizeAll nodes = sizeAll nodes' := by
  induction h with
  | nil => rfl
  | cons node _ ih => rw [sizeAll_cons, sizeAll_cons, ih]
  | swap node node' rest =>
    simp only [sizeAll_cons]
    omega
  | trans _ _ ih ih' => exact ih.trans ih'

theorem sizeAll_inNameOrder (node : Node) : sizeAll node.inNameOrder + 1 = node.size := by
  have hperm : sizeAll node.inNameOrder = sizeAll node.children :=
    sizeAll_perm (List.mergeSort_perm node.children _)
  rw [hperm, size_eq]
  omega

theorem sizeAll_updateFirst {f : Node → Node} (hf : ∀ node, (f node).size = node.size) (name : Text)
    (nodes : List Node) : sizeAll (updateFirst name f nodes) = sizeAll nodes := by
  induction nodes with
  | nil => rfl
  | cons node rest ih =>
    unfold updateFirst
    split
    · rw [sizeAll_cons, sizeAll_cons, hf]
    · rw [sizeAll_cons, sizeAll_cons, ih]

theorem size_setMode (mode : Int) (location : Location) (node : Node) :
    (node.setMode mode location).size = node.size := by
  induction location generalizing node with
  | nil => rw [size_eq, size_eq, setMode]
  | cons name rest ih =>
    rw [size_eq, size_eq, setMode]
    exact congrArg (1 + ·) (sizeAll_updateFirst ih name node.children)

/-- The names in a directory in their order, as `list` gives them. -/
theorem map_name_inNameOrder (node : Node) :
    node.inNameOrder.map (·.name) = node.childNames.mergeSort Text.isAtMost :=
  List.map_mergeSort fun _ _ _ _ => rfl

end Node

namespace Walk

open Work Node

/-! ### The recursion -/

mutual

/-- Visits an entry, and what is in it before anything else. -/
def visitTree (walk : Walk) (location : Location) (path : Text) (node : Node) : Work Unit := do
  match ← ask (·.lstat location) with
  | .error error => skip walk (.cannotInspect path error)
  | .ok type =>
    match type.kind with
    | .symlink => skip walk (.skippedSymlink path)
    | .other => skip walk (.skippedSpecial path)
    | .file => handle walk location ⟨path, .file⟩
    | .directory =>
      handle walk location ⟨path ++ "/", .directory⟩
      match ← ask (·.list location) with
      | .ok _ => visitAll walk location (path ++ "/") node.inNameOrder
      | .error error =>
        count fun s => { s with unreadable := s.unreadable + 1 }
        report walk.manner (.cannotReadDirectory (path ++ "/") error)
termination_by 2 * node.size
decreasing_by
  have hsize := sizeAll_inNameOrder node
  omega

/-- Visits the entries of one directory, one after the other. -/
def visitAll (walk : Walk) (location : Location) (path : Text) : List Node → Work Unit
  | [] => return
  | node :: rest => do
    visitTree walk (location ++ [node.name]) (path ++ node.name) node
    visitAll walk location path rest
termination_by nodes => 2 * sizeAll nodes + 1
decreasing_by
  · simp only [sizeAll_cons]
    omega
  · have hpos := node.size_pos
    simp only [sizeAll_cons]
    omega

end

/-- Walks over the tree by recursion. -/
def preorder (walk : Walk) (tree : Node) : Work Unit := do
  checkRoot walk
  handle walk [] ⟨"/", .directory⟩
  let _ ← listRoot walk
  visitAll walk [] [] tree.inNameOrder
  complete walk

/-! ### The trees of a walk -/

/-- Where two trees are one that a walk over `tree` can have made of it. -/
structure MadeFrom (tree now now' : Node) : Prop where
  same : now = now'
  names : SameNames now tree
  size : now.size = tree.size

theorem MadeFrom.refl (tree : Node) : MadeFrom tree tree tree := ⟨rfl, .refl tree, rfl⟩

theorem simulation_madeFrom (tree : Node) : Simulation (MadeFrom tree) where
  statRoot h := congrArg statRoot h.same
  lstat h location := congrArg (·.lstat location) h.same
  list h location := congrArg (·.list location) h.same
  chown h location := congrArg (·.chown location) h.same
  chmod := by
    intro now now' h location mode
    obtain rfl := h.same
    unfold Node.chmod
    cases now.reach location (·.chmod) with
    | error failure => exact .error failure
    | ok node => exact .ok ⟨rfl, h.names.setMode mode location, (size_setMode _ _ _).trans h.size⟩

/-- The entries that a frame has still to visit. -/
def entries (tree : Node) (frame : Frame) : List Node :=
  frame.pending.filterMap fun name => tree.at? (frame.location ++ [name])

/-- The names of a frame are names of entries. -/
def Frame.Fits (tree : Node) (frame : Frame) : Prop :=
  ∀ name ∈ frame.pending, ∃ node, tree.at? (frame.location ++ [name]) = some node ∧ node.name = name

theorem at?_child {tree node child : Node} {location : Location} (hnames : tree.DistinctNames)
    (hnode : tree.at? location = some node) (hchild : child ∈ node.children) :
    tree.at? (location ++ [child.name]) = some child := by
  rw [at?_append, hnode]
  show (node.child? child.name).bind _ = _
  rw [child?_eq_some (hnames location node hnode) hchild]
  rfl

/-- The names that `list` gives lead to the entries of the directory. -/
theorem entries_list {tree node : Node} {location : Location} (hnames : tree.DistinctNames)
    (hnode : tree.at? location = some node) (path : Text) :
    entries tree ⟨location, path, node.childNames.mergeSort Text.isAtMost⟩ = node.inNameOrder := by
  have hmem : ∀ child ∈ node.inNameOrder, tree.at? (location ++ [child.name]) = some child :=
    fun child hchild => at?_child hnames hnode (List.mem_mergeSort.1 hchild)
  unfold entries
  rw [← map_name_inNameOrder, List.filterMap_map]
  calc node.inNameOrder.filterMap ((fun name => tree.at? (location ++ [name])) ∘ (·.name))
      = node.inNameOrder.filterMap some := List.filterMap_congr hmem
    _ = node.inNameOrder := List.filterMap_some

theorem fits_list {tree node : Node} {location : Location} (hnames : tree.DistinctNames)
    (hnode : tree.at? location = some node) (path : Text) :
    Frame.Fits tree ⟨location, path, node.childNames.mergeSort Text.isAtMost⟩ := by
  intro name hname
  obtain ⟨child, hchild, rfl⟩ := List.mem_map.1 (List.mem_mergeSort.1 hname)
  exact ⟨child, at?_child hnames hnode hchild, rfl⟩

theorem names_of_list {tree now : Node} {location : Location} {names : List Text}
    (h : SameNames now tree) (hlist : now.list location = .ok names) :
    ∃ node, tree.at? location = some node ∧ names = node.childNames.mergeSort Text.isAtMost := by
  unfold Node.list at hlist
  split at hlist
  · cases hlist
  · next found hreach =>
    split at hlist
    · cases hlist
      obtain ⟨node, hnode, hchildren⟩ := h.at? (at?_of_reach hreach)
      exact ⟨node, hnode, by rw [hchildren]; rfl⟩
    · cases hlist

/-! ### The stack -/

/-- The work that a stack stands for. -/
def resume (walk : Walk) (tree : Node) : List Frame → Work Unit
  | [] => return
  | frame :: stack => do
    visitAll walk frame.location frame.path (entries tree frame)
    resume walk tree stack

/-- The steps that a stack can take: one for each directory that it is in, and two for every entry
below. -/
def stepsLeft (tree : Node) : List Frame → Nat
  | [] => 0
  | frame :: stack => 1 + 2 * sizeAll (entries tree frame) + stepsLeft tree stack

/-- What a visit to a directory gives to the stack. -/
structure Opened (tree node : Node) (frame : Frame) : Prop where
  fits : frame.Fits tree
  size : sizeAll (entries tree frame) + 1 = node.size

/-- A directory that is opened takes one step less than the entry that it is. -/
theorem Opened.stepsLeft_cons {tree node : Node} {frame : Frame} (h : Opened tree node frame)
    (stack : List Frame) :
    stepsLeft tree (frame :: stack) + 1 = 2 * node.size + stepsLeft tree stack := by
  have hsize := h.size
  rw [stepsLeft]
  omega

theorem entries_cons {tree node : Node} {location : Location}
    (hnode : tree.at? (location ++ [node.name]) = some node) (path : Text) (names : List Text) :
    entries tree ⟨location, path, node.name :: names⟩ =
      node :: entries tree ⟨location, path, names⟩ :=
  List.filterMap_cons_some hnode

theorem stepsLeft_pending {tree node : Node} {location : Location}
    (hnode : tree.at? (location ++ [node.name]) = some node) (path : Text) (names : List Text)
    (stack : List Frame) :
    stepsLeft tree (⟨location, path, node.name :: names⟩ :: stack) =
      2 * node.size + stepsLeft tree (⟨location, path, names⟩ :: stack) := by
  rw [stepsLeft, stepsLeft, entries_cons hnode, sizeAll_cons]
  omega

/-- A stack of a walk over a tree, for which so many steps are enough. -/
structure Enough (tree : Node) (steps : Nat) (stack : List Frame) : Prop where
  fits : ∀ frame ∈ stack, frame.Fits tree
  steps : stepsLeft tree stack ≤ steps

namespace Enough

variable {tree : Node} {steps : Nat} {stack : List Frame}

/-- The stack with which a walk over a tree begins. -/
theorem root (hnames : tree.DistinctNames) (hsteps : 2 * tree.size ≤ steps) :
    Enough tree steps [⟨[], [], tree.childNames.mergeSort Text.isAtMost⟩] where
  fits := List.forall_mem_singleton.2 (fits_list hnames (at?_nil tree) [])
  steps := by
    have hsize := sizeAll_inNameOrder tree
    rw [stepsLeft, stepsLeft, entries_list hnames (at?_nil tree) []]
    omega

theorem eq_nil (h : Enough tree 0 stack) : stack = [] := by
  have hsteps := h.steps
  cases stack with
  | nil => rfl
  | cons frame stack =>
    unfold stepsLeft at hsteps
    omega

/-- Leaving a directory takes one step. -/
theorem leave {location : Location} {path : Text}
    (h : Enough tree (steps + 1) (⟨location, path, []⟩ :: stack)) : Enough tree steps stack where
  fits := (List.forall_mem_cons.1 h.fits).2
  steps := by
    have hsteps := h.steps
    unfold stepsLeft at hsteps
    omega

/-- Visiting an entry takes one step, whether or not it opens a directory. -/
theorem visit {location : Location} {path name : Text} {names : List Text}
    (h : Enough tree (steps + 1) (⟨location, path, name :: names⟩ :: stack)) :
    ∃ node, tree.at? (location ++ [name]) = some node ∧ node.name = name ∧
      Enough tree steps (⟨location, path, names⟩ :: stack) ∧
      ∀ frame, Opened tree node frame →
        Enough tree steps (frame :: ⟨location, path, names⟩ :: stack) := by
  obtain ⟨hframe, hstack⟩ := List.forall_mem_cons.1 h.fits
  obtain ⟨node, hnode, rfl⟩ := hframe name (.head _)
  have hfits : ∀ frame ∈ (⟨location, path, names⟩ : Frame) :: stack, frame.Fits tree :=
    List.forall_mem_cons.2 ⟨fun name hmem => hframe name (.tail _ hmem), hstack⟩
  replace hnode : tree.at? (location ++ [node.name]) = some node := hnode
  have hsteps := h.steps
  rw [stepsLeft_pending hnode] at hsteps
  have hpos := node.size_pos
  refine ⟨node, hnode, rfl, ⟨hfits, by omega⟩, fun frame hopened => ?_⟩
  refine ⟨List.forall_mem_cons.2 ⟨hopened.fits, hfits⟩, ?_⟩
  have hsize := hopened.stepsLeft_cons (⟨location, path, names⟩ :: stack)
  omega

end Enough

theorem agree_list_names {tree : Node} (location : Location) :
    Agree (MadeFrom tree)
      (fun reply => ∀ names, reply = .ok names → ∃ node, tree.at? location = some node ∧
        names = node.childNames.mergeSort Text.isAtMost)
      (ask (·.list location)) (ask (·.list location)) :=
  agree_ask _ _ (fun _ _ h => (simulation_madeFrom tree).list h location)
    fun _ _ _ h hlist => names_of_list h.names hlist

/-- A visit to an entry and what it gives to the stack do what the recursion does. -/
theorem agree_visit_resume (walk : Walk) {tree node : Node} {location : Location} (path : Text)
    (hnames : tree.DistinctNames) (hnode : tree.at? location = some node) (stack : List Frame)
    (next : Option Frame → Work Unit)
    (hnone : Agree (MadeFrom tree) Any (next none) (resume walk tree stack))
    (hsome : ∀ frame, Opened tree node frame →
      Agree (MadeFrom tree) Any (next (some frame)) (resume walk tree (frame :: stack))) :
    Agree (MadeFrom tree) Any (visit walk location path >>= next)
      (visitTree walk location path node >>= fun _ => resume walk tree stack) := by
  have simulation := simulation_madeFrom tree
  unfold visit enter visitTree
  simp only [bind_assoc]
  refine agree_bind (agree_lstat simulation location) fun reply _ => ?_
  cases reply with
  | error error =>
    simp only [bind_assoc, pure_bind]
    exact agree_bind (agree_skip walk _) fun _ _ => hnone
  | ok type =>
    dsimp only
    cases type.kind with
    | symlink =>
      simp only [bind_assoc, pure_bind]
      exact agree_bind (agree_skip walk _) fun _ _ => hnone
    | other =>
      simp only [bind_assoc, pure_bind]
      exact agree_bind (agree_skip walk _) fun _ _ => hnone
    | file =>
      simp only [bind_assoc, pure_bind]
      exact agree_bind (agree_handle simulation walk location _) fun _ _ => hnone
    | directory =>
      simp only [bind_assoc]
      refine agree_bind (agree_handle simulation walk location _) fun _ _ => ?_
      refine agree_bind (agree_list_names location) fun reply hreply => ?_
      cases reply with
      | error error =>
        simp only [bind_assoc, pure_bind]
        refine agree_bind (agree_count _) fun _ _ => ?_
        exact agree_bind (agree_report _ _) fun _ _ => hnone
      | ok names =>
        -- the modes may have changed since, but the names are those of the first tree
        obtain ⟨node', hnode', rfl⟩ := hreply names rfl
        obtain rfl : node = node' := Option.some.inj (hnode.symm.trans hnode')
        have hentries := entries_list hnames hnode (path ++ "/")
        have hopened : Opened tree node
            ⟨location, path ++ "/", node.childNames.mergeSort Text.isAtMost⟩ :=
          ⟨fits_list hnames hnode _, by rw [hentries]; exact sizeAll_inNameOrder node⟩
        have hagree := hsome _ hopened
        rw [resume, hentries] at hagree
        simpa only [pure_bind] using hagree

/-- The walk does what its stack stands for, when it may take as many steps as that needs. -/
theorem agree_descend_resume (walk : Walk) {tree : Node} (hnames : tree.DistinctNames)
    (steps : Nat) (stack : List Frame) (henough : Enough tree steps stack) :
    Agree (MadeFrom tree) Any (descend walk steps stack) (resume walk tree stack) := by
  -- a step uses up one of `stepsLeft`, whether it leaves a directory or visits an entry
  induction steps generalizing stack with
  | zero =>
    obtain rfl := henough.eq_nil
    exact agree_pure trivial
  | succ steps ih =>
    match stack with
    | [] => exact agree_pure trivial
    | ⟨location, path, []⟩ :: stack =>
      have hagree := ih stack henough.leave
      unfold descend resume entries
      rw [List.filterMap_nil, visitAll, pure_bind]
      exact hagree
    | ⟨location, path, name :: names⟩ :: stack =>
      obtain ⟨node, hnode, rfl, hrest, hopens⟩ := henough.visit
      unfold descend
      rw [resume, entries_cons hnode, visitAll, bind_assoc]
      exact agree_visit_resume walk _ hnames hnode (⟨location, path, names⟩ :: stack) _
        (ih _ hrest) fun frame hopened => ih _ (hopens frame hopened)

/-! ### The whole walk -/

/-- The walk with a bound of its own on the steps. -/
def runWithin (walk : Walk) (steps : Nat) : Work Unit := do
  checkRoot walk
  handle walk [] ⟨"/", .directory⟩
  let names ← listRoot walk
  descend walk steps [⟨[], [], names⟩]
  complete walk

theorem agree_listRoot_names (walk : Walk) {tree : Node} :
    Agree (MadeFrom tree) (fun names => names = tree.childNames.mergeSort Text.isAtMost)
      (listRoot walk) (listRoot walk) := by
  refine agree_bind (agree_list_names []) fun reply hreply => ?_
  cases reply with
  | error error => exact agree_throw _
  | ok names =>
    obtain ⟨node, hnode, hlist⟩ := hreply names rfl
    cases hnode
    exact agree_pure hlist

theorem agree_descend_root (walk : Walk) {tree : Node} (hnames : tree.DistinctNames)
    {steps : Nat} (hsteps : 2 * tree.size ≤ steps) :
    Agree (MadeFrom tree) Any
      (descend walk steps [⟨[], [], tree.childNames.mergeSort Text.isAtMost⟩])
      (visitAll walk [] [] tree.inNameOrder) := by
  have hagree := agree_descend_resume walk hnames steps _ (.root hnames hsteps)
  rw [resume, resume, entries_list hnames (at?_nil tree) []] at hagree
  simpa using hagree

/-- Work that goes on differently once the root is listed. -/
theorem agree_begin (walk : Walk) {tree : Node} {next next' : List Text → Work Unit}
    (h : Agree (MadeFrom tree) Any (next (tree.childNames.mergeSort Text.isAtMost))
      (next' (tree.childNames.mergeSort Text.isAtMost))) :
    Agree (MadeFrom tree) Any
      (do checkRoot walk; handle walk [] ⟨"/", .directory⟩; next (← listRoot walk))
      (do checkRoot walk; handle walk [] ⟨"/", .directory⟩; next' (← listRoot walk)) := by
  have simulation := simulation_madeFrom tree
  refine agree_bind (agree_checkRoot simulation walk) fun _ _ => ?_
  refine agree_bind (agree_handle simulation walk _ _) fun _ _ => ?_
  refine agree_bind (agree_listRoot_names walk) fun names hlist => ?_
  subst hlist
  exact h

theorem agree_runWithin_preorder (walk : Walk) {tree : Node} (hnames : tree.DistinctNames)
    {steps : Nat} (hsteps : 2 * tree.size ≤ steps) :
    Agree (MadeFrom tree) Any (runWithin walk steps) (preorder walk tree) := by
  refine agree_begin walk ?_
  exact agree_bind (agree_descend_root walk hnames hsteps) fun _ _ => agree_complete walk

theorem agree_run_preorder (walk : Walk) {tree : Node} (hnames : tree.DistinctNames) :
    Agree (MadeFrom tree) Any walk.run (preorder walk tree) := by
  refine agree_begin walk ?_
  -- the bound is taken from the tree after the root was handled, whose size is the same
  refine agree_get_left fun s s' hlike => ?_
  rw [hlike.tree.size]
  have hsteps : 2 * tree.size ≤ 2 * tree.size + 1 := Nat.le_add_right _ 1
  exact agree_bind (agree_descend_root walk hnames hsteps) fun _ _ => agree_complete walk

theorem like_start (tree : Node) :
    Session.Like (MadeFrom tree) (Session.start tree) (Session.start tree) :=
  ⟨.refl tree, rfl, rfl, rfl⟩

theorem eq_of_like {tree : Node} {s s' : Session} (h : Session.Like (MadeFrom tree) s s') :
    s = s' := by
  obtain ⟨htree, hcalls, hevents, hstats⟩ := h
  cases s
  cases s'
  obtain rfl := htree.same
  obtain rfl := hcalls
  obtain rfl := hevents
  obtain rfl := hstats
  rfl

theorem outcome_eq_of_agree {tree : Node} {work work' : Work Unit}
    (h : Agree (MadeFrom tree) Any work work') :
    outcome work (Session.start tree) = outcome work' (Session.start tree) := by
  obtain ⟨hresult, -, hlike⟩ := h _ _ (like_start tree)
  exact Prod.ext hresult (eq_of_like hlike)

/-- The walk comes to the same end as the recursion, with the same calls, events and counts, and
the same tree. -/
theorem traverse_eq_outcome_preorder (walk : Walk) {tree : Node} (hnames : tree.DistinctNames) :
    walk.traverse tree = outcome (preorder walk tree) (Session.start tree) :=
  outcome_eq_of_agree (agree_run_preorder walk hnames)

/-- More steps than the walk allows itself change nothing. -/
theorem traverse_eq_outcome_runWithin (walk : Walk) {tree : Node} (hnames : tree.DistinctNames)
    {steps : Nat} (hsteps : 2 * tree.size ≤ steps) :
    walk.traverse tree = outcome (runWithin walk steps) (Session.start tree) :=
  (traverse_eq_outcome_preorder walk hnames).trans
    (outcome_eq_of_agree (agree_runWithin_preorder walk hnames hsteps)).symm

end Walk

end PathRights
