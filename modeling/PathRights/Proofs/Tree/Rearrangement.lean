import Mathlib
import PathRights.Proofs.Tree.Preorder

/-! Trees whose directories hold their entries in different orders. Such trees are `Alike`: the same
places lead to the same entries. Every call goes by names and so leads to the same in both, and
`list` sorts the names. The walk therefore comes to the same end on both. -/

namespace PathRights.Node

/-- What the calls see of an entry, besides what is in it. -/
def facts (node : Node) : FileType × Int × Failures := (node.type, node.mode, node.failures)

/-- The same places lead to entries of the same type, mode and failures. -/
def SameEntries (tree tree' : Node) : Prop :=
  ∀ location, (tree.at? location).map facts = (tree'.at? location).map facts

/-- Two trees with distinct names that hold the same entries. -/
structure Alike (tree tree' : Node) : Prop where
  distinct : tree.DistinctNames
  distinct' : tree'.DistinctNames
  entries : SameEntries tree tree'

/-- One tree is the other with the entries of directories put into other orders. -/
inductive Rearranged : Node → Node → Prop where
  | refl (tree : Node) : Rearranged tree tree
  | trans {tree tree' tree'' : Node} : Rearranged tree tree' → Rearranged tree' tree'' →
      Rearranged tree tree''
  | order {tree : Node} {children : List Node} : tree.children.Perm children →
      Rearranged tree { tree with children }
  | within {tree child child' : Node} {before after : List Node} :
      tree.children = before ++ child :: after → Rearranged child child' →
      Rearranged tree { tree with children := before ++ child' :: after }

/-! ### Alike trees -/

theorem Alike.refl {tree : Node} (hnames : tree.DistinctNames) : Alike tree tree :=
  ⟨hnames, hnames, fun _ => rfl⟩

theorem Alike.trans {tree tree' tree'' : Node} (h : Alike tree tree') (h' : Alike tree' tree'') :
    Alike tree tree'' :=
  ⟨h.distinct, h'.distinct', fun location => (h.entries location).trans (h'.entries location)⟩

theorem Alike.facts_eq {tree tree' : Node} (h : Alike tree tree') : tree.facts = tree'.facts :=
  Option.some.inj (h.entries [])

theorem Alike.type_eq {tree tree' : Node} (h : Alike tree tree') : tree.type = tree'.type :=
  congrArg (·.1) h.facts_eq

theorem Alike.mode_eq {tree tree' : Node} (h : Alike tree tree') : tree.mode = tree'.mode :=
  congrArg (·.2.1) h.facts_eq

theorem Alike.failures_eq {tree tree' : Node} (h : Alike tree tree') :
    tree.failures = tree'.failures :=
  congrArg (·.2.2) h.facts_eq

/-- Alike trees have children of the same names, and these are alike. -/
theorem Alike.child? {tree tree' : Node} (h : Alike tree tree') (name : Text) :
    Option.Rel Alike (tree.child? name) (tree'.child? name) := by
  have hentries (location : Location) := h.entries (name :: location)
  simp only [at?_cons] at hentries
  cases hchild : tree.child? name with
  | none =>
    cases hchild' : tree'.child? name with
    | none => exact .none
    | some child' => simpa [hchild, hchild'] using hentries []
  | some child =>
    cases hchild' : tree'.child? name with
    | none => simpa [hchild, hchild'] using hentries []
    | some child' =>
      refine .some ⟨h.distinct.child hchild, h.distinct'.child hchild', fun location => ?_⟩
      simpa [hchild, hchild'] using hentries location

/-- Conversely, trees are alike when their children are. -/
theorem alike_of_child? {tree tree' : Node} (hfacts : tree.facts = tree'.facts)
    (hnodup : tree.childNames.Nodup) (hnodup' : tree'.childNames.Nodup)
    (hchild : ∀ name, Option.Rel Alike (tree.child? name) (tree'.child? name)) :
    Alike tree tree' where
  distinct := by
    refine distinctNames_of_child? hnodup fun name child hsome => ?_
    have halike := hchild name
    rw [hsome] at halike
    generalize tree'.child? name = found at halike
    cases halike with
    | some halike => exact halike.distinct
  distinct' := by
    refine distinctNames_of_child? hnodup' fun name child' hsome => ?_
    have halike := hchild name
    rw [hsome] at halike
    generalize tree.child? name = found at halike
    cases halike with
    | some halike => exact halike.distinct'
  entries := by
    intro location
    cases location with
    | nil => exact congrArg some hfacts
    | cons name rest =>
      have halike := hchild name
      rw [at?_cons, at?_cons]
      generalize tree.child? name = found at halike ⊢
      generalize tree'.child? name = found' at halike ⊢
      cases halike with
      | none => rfl
      | some halike => exact halike.entries rest

/-! ### Rearranged trees -/

theorem rel_alike_refl {tree : Node} (hnames : tree.DistinctNames) (name : Text) :
    Option.Rel Alike (tree.child? name) (tree.child? name) := by
  cases hchild : tree.child? name with
  | none => exact .none
  | some child => exact .some (.refl (hnames.child hchild))

theorem Rearranged.name_eq {tree tree' : Node} (h : Rearranged tree tree') :
    tree.name = tree'.name := by
  induction h with
  | refl tree => rfl
  | trans _ _ ih ih' => exact ih.trans ih'
  | order _ => rfl
  | within _ _ _ => rfl

theorem Rearranged.alike {tree tree' : Node} (h : Rearranged tree tree')
    (hnames : tree.DistinctNames) : Alike tree tree' := by
  induction h with
  | refl tree => exact .refl hnames
  | trans _ _ ih ih' =>
    have halike := ih hnames
    exact halike.trans (ih' halike.distinct')
  | @order tree children hperm =>
    have hnodup := hnames [] tree rfl
    have hnodup' : Node.childNames { tree with children } |>.Nodup :=
      (hperm.map Node.name).nodup_iff.1 hnodup
    refine alike_of_child? rfl hnodup hnodup' fun name => ?_
    have hchild : Node.child? { tree with children } name = tree.child? name := by
      refine Option.ext fun child => ?_
      rw [child?_eq_some_iff hnodup, child?_eq_some_iff hnodup']
      exact and_congr_left' hperm.mem_iff.symm
    rw [hchild]
    exact rel_alike_refl hnames name
  | @within tree child child' before after hchildren hrearranged ih =>
    have hname := hrearranged.name_eq
    have hnodup := hnames [] tree rfl
    have hsame : Node.childNames { tree with children := before ++ child' :: after } =
        tree.childNames := by
      simp [childNames, hchildren, hname]
    -- a name leads to the same child as before, or from the old child to the new one
    refine alike_of_child? rfl hnodup (hsame ▸ hnodup) fun name => ?_
    have hmem : child ∈ tree.children := by simp [hchildren]
    have halike := ih (hnames.child (child?_eq_some hnodup hmem))
    have hrefl := rel_alike_refl hnames name
    unfold child? at hrefl ⊢
    rw [hchildren, List.find?_append, List.find?_cons] at hrefl ⊢
    rw [List.find?_append, List.find?_cons, ← hname]
    cases hbefore : before.find? (·.name == name) with
    | some found => simpa [hbefore] using hrefl
    | none =>
      cases hfound : child.name == name with
      | true => exact .some halike
      | false => simpa [hbefore, hfound] using hrefl

/-! ### The calls on alike trees -/

theorem Alike.resolve {tree tree' : Node} (h : Alike tree tree') (location : Location) :
    Likewise Alike (tree.resolve location) (tree'.resolve location) := by
  induction location generalizing tree tree' with
  | nil => exact .ok h
  | cons name rest ih =>
    unfold Node.resolve
    rw [← h.type_eq, ← h.mode_eq]
    split
    · exact .error _
    · have hchild := h.child? name
      generalize tree.child? name = found at hchild ⊢
      generalize tree'.child? name = found' at hchild ⊢
      cases hchild with
      | none => exact .error _
      | some halike => exact ih halike

theorem Alike.reach {tree tree' : Node} (h : Alike tree tree') (location : Location)
    (failure : Failures → Option Failure) :
    Likewise Alike (tree.reach location failure) (tree'.reach location failure) := by
  have hresolve := h.resolve location
  unfold Node.reach
  generalize tree.resolve location = found at hresolve ⊢
  generalize tree'.resolve location = found' at hresolve ⊢
  cases hresolve with
  | error error => exact .error _
  | ok halike =>
    dsimp only
    rw [← halike.failures_eq]
    split
    · exact .error _
    · exact .ok halike

theorem Alike.map_reach {α : Type} {tree tree' : Node} (h : Alike tree tree')
    (location : Location) (failure : Failures → Option Failure) {view : Node → α}
    (hview : ∀ {node node' : Node}, Alike node node' → view node = view node') :
    (tree.reach location failure).map view = (tree'.reach location failure).map view := by
  have hreach := h.reach location failure
  generalize tree.reach location failure = found at hreach ⊢
  generalize tree'.reach location failure = found' at hreach ⊢
  cases hreach with
  | error failure => rfl
  | ok halike => exact congrArg Except.ok (hview halike)

theorem mem_childNames {node : Node} {name : Text} :
    name ∈ node.childNames ↔ (node.child? name).isSome := by
  simp [childNames, child?]

/-- The names are the same, and so is their order once they are sorted. -/
theorem Alike.sortedNames_eq {tree tree' : Node} (h : Alike tree tree') :
    tree.childNames.mergeSort Text.isAtMost = tree'.childNames.mergeSort Text.isAtMost := by
  have hmem (name : Text) : name ∈ tree.childNames ↔ name ∈ tree'.childNames := by
    rw [mem_childNames, mem_childNames]
    have hchild := h.child? name
    generalize tree.child? name = found at hchild ⊢
    generalize tree'.child? name = found' at hchild ⊢
    cases hchild <;> simp
  have hperm : tree.childNames.Perm tree'.childNames :=
    (List.perm_ext_iff_of_nodup (h.distinct [] tree rfl) (h.distinct' [] tree' rfl)).2 hmem
  have hsorted (names : List Text) :
      (names.mergeSort Text.isAtMost).Pairwise fun s t => Text.isAtMost s t :=
    @List.pairwise_mergeSort Text Text.isAtMost (fun _ _ _ => Text.isAtMost_trans)
      Text.isAtMost_total names
  refine List.Perm.eq_of_pairwise (fun _ _ _ _ => Text.eq_of_isAtMost) (hsorted _) (hsorted _) ?_
  calc tree.childNames.mergeSort Text.isAtMost
    _ |>.Perm tree.childNames := List.mergeSort_perm _ _
    _ |>.Perm tree'.childNames := hperm
    _ |>.Perm (tree'.childNames.mergeSort Text.isAtMost) := (List.mergeSort_perm _ _).symm

theorem Alike.setMode {tree tree' : Node} (h : Alike tree tree') (mode : Int)
    (location : Location) : Alike (tree.setMode mode location) (tree'.setMode mode location) where
  distinct := h.distinct.of_sameNames ((SameNames.refl tree).setMode mode location).symm
  distinct' := h.distinct'.of_sameNames ((SameNames.refl tree').setMode mode location).symm
  entries := by
    intro other
    have hview (node : Node) (name : Text) (rest : Location) :
        (node.setMode mode (name :: rest)).facts = node.facts := rfl
    rw [at?_setMode_map mode location other tree hview,
      at?_setMode_map mode location other tree' hview]
    split
    · have hentries := congrArg (Option.map fun (type, _, failures) => (type, mode, failures))
        (h.entries other)
      simpa [facts, Node.setMode, Function.comp_def] using hentries
    · exact h.entries other

theorem simulation_alike : Simulation Alike where
  statRoot h := h.map_reach [] _ Alike.type_eq
  lstat h location := h.map_reach location _ Alike.type_eq
  list := by
    intro tree tree' h location
    have hreach := h.reach location (·.list)
    unfold Node.list
    generalize tree.reach location _ = found at hreach ⊢
    generalize tree'.reach location _ = found' at hreach ⊢
    cases hreach with
    | error failure => rfl
    | ok halike =>
      dsimp only
      rw [halike.mode_eq]
      split
      · exact congrArg Except.ok halike.sortedNames_eq
      · rfl
  chown h location := h.map_reach location _ fun _ => rfl
  chmod := by
    intro tree tree' h location mode
    have hreach := h.reach location (·.chmod)
    unfold Node.chmod
    generalize tree.reach location _ = found at hreach ⊢
    generalize tree'.reach location _ = found' at hreach ⊢
    cases hreach with
    | error failure => exact .error failure
    | ok halike => exact .ok (h.setMode mode location)

end PathRights.Node

namespace PathRights.Walk

open Work Node

theorem agree_runWithin (walk : Walk) (steps : Nat) :
    Agree Alike Any (runWithin walk steps) (runWithin walk steps) := by
  refine agree_bind (agree_checkRoot simulation_alike walk) fun _ _ => ?_
  refine agree_bind (agree_handle simulation_alike walk _ _) fun _ _ => ?_
  refine agree_bind (agree_listRoot simulation_alike walk) fun names _ => ?_
  refine agree_bind (agree_descend simulation_alike walk steps _) fun _ _ => ?_
  exact agree_complete walk

theorem traverse_of_alike (walk : Walk) {tree tree' : Node} (h : Alike tree tree') :
    (walk.traverse tree).1 = (walk.traverse tree').1 ∧
      Session.Like Alike (walk.traverse tree).2 (walk.traverse tree').2 := by
  -- the trees are of one size, but a bound that is enough for both needs no proof of that
  have hbound := traverse_eq_outcome_runWithin walk h.distinct
    (Nat.le_max_left (2 * tree.size) (2 * tree'.size))
  have hbound' := traverse_eq_outcome_runWithin walk h.distinct'
    (Nat.le_max_right (2 * tree.size) (2 * tree'.size))
  have hlike : Session.Like Alike (Session.start tree) (Session.start tree') := ⟨h, rfl, rfl, rfl⟩
  obtain ⟨hresult, -, hlike'⟩ := agree_runWithin walk _ _ _ hlike
  rw [hbound, hbound']
  exact ⟨hresult, hlike'⟩

/-- The walk is the recursion over the tree, for every tree, every failure and every rule table: it
comes to the same end, with the same calls, events and counts and with the same tree. Its bound on
the steps never ends it, and how the directories hold their entries makes no difference. -/
theorem traverse_refines_preorder (walk : Walk) (tree : Node) (hnames : tree.DistinctNames) :
    walk.traverse tree = outcome (preorder walk tree) (Session.start tree) ∧
      (∀ steps, 2 * tree.size ≤ steps →
        walk.traverse tree = outcome (runWithin walk steps) (Session.start tree)) ∧
      ∀ tree', Rearranged tree tree' →
        (walk.traverse tree).1 = (walk.traverse tree').1 ∧
          Session.Like SameEntries (walk.traverse tree).2 (walk.traverse tree').2 := by
  refine ⟨traverse_eq_outcome_preorder walk hnames, fun steps hsteps =>
    traverse_eq_outcome_runWithin walk hnames hsteps, fun tree' hrearranged => ?_⟩
  obtain ⟨hresult, hlike⟩ := traverse_of_alike walk (hrearranged.alike hnames)
  exact ⟨hresult, hlike.tree.entries, hlike.calls, hlike.events, hlike.stats⟩

/-- A walk that opens every directory. -/
def openingWalk : Walk where
  table := ⟨[⟨"**", ⟨"**", true, none⟩, true, some ⟨"open", "u", 1, "g", 2, 0o755, none⟩, 1⟩]⟩
  manner := ⟨false, false, .ofLevel .info⟩
  root := "srv"
  rootPath := "/srv"
  givesModes := by
    intro rule hrule role hrole
    obtain rfl := List.mem_singleton.1 hrule
    cases hrole
    exact ⟨0o755, rfl⟩

/-- A tree with a file and with a directory that its owner may not enter. -/
def closedTree : Node :=
  ⟨[], .directory, 0o755, .none,
    [⟨"b", .regular, 0o644, .none, []⟩,
     ⟨"a", .directory, 0, .none, [⟨"c", .regular, 0o644, .none, []⟩]⟩]⟩

theorem distinctNames_closedTree : closedTree.DistinctNames := by
  have hleaf (name : Text) : DistinctNames ⟨name, .regular, 0o644, .none, []⟩ :=
    distinctNames_of_children List.nodup_nil fun _ h => absurd h List.not_mem_nil
  refine distinctNames_of_children (by decide) fun child hchild => ?_
  rcases List.mem_pair.1 hchild with rfl | rfl
  · exact hleaf _
  · refine distinctNames_of_children (by decide) fun child hchild => ?_
    obtain rfl := List.mem_singleton.1 hchild
    exact hleaf _

theorem traverse_refines_preorder_closedTree :
    closedTree.DistinctNames ∧
      openingWalk.traverse closedTree =
        outcome (preorder openingWalk closedTree) (Session.start closedTree) ∧
      (openingWalk.traverse closedTree).2.calls =
        [.chown "/srv" 1 2, .chmod "/srv" 0o755, .chown "/srv/a" 1 2, .chmod "/srv/a" 0o755] ∧
      (openingWalk.traverse closedTree).2.events.take 2 =
        [.noRuleMatched "a/c", .noRuleMatched "b"] ∧
      (openingWalk.traverse { closedTree with children := closedTree.children.reverse }).1 =
        (openingWalk.traverse closedTree).1 := by
  obtain ⟨hpreorder, -, hrearranged⟩ :=
    traverse_refines_preorder openingWalk closedTree distinctNames_closedTree
  have hreverse := (hrearranged _ (.order (List.reverse_perm closedTree.children).symm)).1
  exact ⟨distinctNames_closedTree, hpreorder, by cbv, by cbv, hreverse.symm⟩

end PathRights.Walk
