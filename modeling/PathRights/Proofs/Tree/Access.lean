import PathRights.Proofs.Tree.Completion

/-! Accessible trees: no call on them fails, and their owner may list and pass every directory. So
what the calls tell of such a tree does not depend on its modes. A walk that leaves the owner these
rights, wherever it changes a mode, sees no more of what it has changed than the entries that were
there. -/

namespace PathRights

/-- The owner may list and pass a directory of this mode. -/
def ownerEnters (mode : Int) : Prop := ownerReads mode = true ∧ ownerPasses mode = true

theorem modeBit_natCast (exponent mode : Nat) :
    modeBit exponent (mode : Int) = mode.testBit exponent := by
  have hcast : (mode : Int) / (Nat.pow 2 exponent : Nat) % 2 = (mode / 2 ^ exponent % 2 : Nat) :=
    rfl
  rw [modeBit, hcast, Nat.testBit_eq_decide_div_mod_eq, Bool.eq_iff_iff, beq_iff_eq,
    decide_eq_true_eq]
  omega

theorem ownerEnters_of_and {mode : Nat} (h : mode &&& 0o500 = 0o500) : ownerEnters mode := by
  have hbit (exponent : Nat) (hset : Nat.testBit 0o500 exponent = true) :
      mode.testBit exponent = true := by
    have hand := congrArg (Nat.testBit · exponent) h
    simp only [Nat.testBit_and, hset, Bool.and_true] at hand
    exact hand
  unfold ownerEnters ownerReads ownerPasses
  rw [modeBit_natCast, modeBit_natCast]
  exact ⟨hbit 8 (by decide), hbit 6 (by decide)⟩

namespace Node

/-- No call on the entry fails, and if it is a directory, its owner may list and pass it. -/
structure IsOpen (node : Node) : Prop where
  failures : node.failures = .none
  enters : node.type = .directory → ownerEnters node.mode

/-- No call on the tree is set up to fail, and the owner may list and pass every directory. -/
def Accessible (tree : Node) : Prop :=
  ∀ place node, tree.at? place = some node → node.IsOpen

namespace Accessible

variable {tree : Node}

theorem root (h : tree.Accessible) : tree.IsOpen := h [] tree rfl

theorem child (h : tree.Accessible) {name : Text} {child : Node}
    (hchild : tree.child? name = some child) : child.Accessible :=
  fun place node hat => h (name :: place) node (at?_of_child? hchild place ▸ hat)

theorem of_children (hroot : tree.IsOpen) (hchildren : ∀ child ∈ tree.children, child.Accessible) :
    tree.Accessible := by
  intro place node hat
  cases place with
  | nil =>
    cases hat
    exact hroot
  | cons name rest =>
    rw [at?_cons] at hat
    obtain ⟨child, hchild, hat⟩ := Option.bind_eq_some_iff.1 hat
    exact hchildren child (List.mem_of_find?_eq_some hchild) rest node hat

theorem foreseen (h : tree.Accessible) : tree.Foreseen := by
  intro place node hat
  rw [(h place node hat).failures]
  simp [Failures.none, Failures.Foreseen, Failures.all]

/-- Every entry of the tree can be reached. -/
theorem resolve_eq (h : tree.Accessible) (place : Location) :
    tree.resolve place = (tree.at? place).elim (.error .noEntry) .ok := by
  induction place generalizing tree with
  | nil => rfl
  | cons name rest ih =>
    have hpass : ¬ (tree.type = .directory ∧ (!ownerPasses tree.mode) = true) := by
      rintro ⟨htype, hclosed⟩
      have hopen := (h.root.enters htype).2
      simp [hopen] at hclosed
    rw [resolve, if_neg hpass, at?_cons]
    cases hchild : tree.child? name with
    | none => rfl
    | some child => exact ih (h.child hchild)

theorem reach_eq (h : tree.Accessible) {failure : Failures → Option Failure}
    (hfailure : failure .none = none) (place : Location) :
    tree.reach place failure = (tree.at? place).elim (.error (.system .noEntry)) .ok := by
  unfold reach
  rw [h.resolve_eq]
  cases hat : tree.at? place with
  | none => rfl
  | some node =>
    simp only [Option.elim_some]
    rw [(h place node hat).failures, hfailure]

theorem list_eq (h : tree.Accessible) {place : Location} {node : Node}
    (hat : tree.at? place = some node) (htype : node.type = .directory) :
    tree.list place = .ok (node.childNames.mergeSort Text.isAtMost) := by
  have hreads : ownerReads node.mode = true := ((h place node hat).enters htype).1
  unfold list
  rw [h.reach_eq rfl, hat]
  exact if_pos hreads

theorem setMode (h : tree.Accessible) {mode : Int} {place : Location}
    (hmode : ∀ node, tree.at? place = some node → node.type = .directory → ownerEnters mode) :
    (tree.setMode mode place).Accessible := by
  intro other node hnode
  obtain ⟨before, hbefore, hfailures, htype, hmode'⟩ := at?_of_setMode hnode
  refine ⟨hfailures.trans (h other before hbefore).failures, fun hdirectory => ?_⟩
  rw [htype] at hdirectory
  rw [hmode']
  split
  · next hplace =>
    subst hplace
    exact hmode before hbefore hdirectory
  · exact (h other before hbefore).enters hdirectory

end Accessible

/-! ### Changed modes -/

/-- The second tree is the first with other modes, and is accessible still. -/
structure Ready (tree now : Node) : Prop where
  names : SameNames now tree
  types : ∀ place, (now.at? place).map (·.type) = (tree.at? place).map (·.type)
  accessible : now.Accessible
  size : now.size = tree.size

namespace Ready

variable {tree now : Node}

theorem refl (h : tree.Accessible) : Ready tree tree := ⟨.refl tree, fun _ => rfl, h, rfl⟩

theorem setMode (h : Ready tree now) {mode : Int} {place : Location} {type : FileType}
    (htype : (tree.at? place).map (·.type) = some type)
    (hmode : type = .directory → ownerEnters mode) : Ready tree (now.setMode mode place) where
  names := h.names.setMode mode place
  types other := by
    rw [at?_setMode_map mode place other now fun _ _ _ => rfl, ← h.types other]
    split <;> rfl
  accessible := by
    refine h.accessible.setMode fun node hat hdirectory => hmode ?_
    have hnow := h.types place
    rw [hat, htype] at hnow
    exact (Option.some.inj hnow).symm.trans hdirectory
  size := (size_setMode _ _ _).trans h.size

/-- At every place there is the same entry but for its mode, or none. -/
theorem at?_cases (h : Ready tree now) (place : Location) :
    tree.at? place = none ∧ now.at? place = none ∨
      ∃ node node', tree.at? place = some node ∧ now.at? place = some node' ∧
        node'.type = node.type ∧ node'.childNames = node.childNames := by
  have htypes := h.types place
  have hnames := h.names place
  cases htree : tree.at? place with
  | none =>
    rw [htree, Option.map_none, Option.map_eq_none_iff] at htypes
    exact Or.inl ⟨rfl, htypes⟩
  | some node =>
    rw [htree] at htypes hnames
    obtain ⟨node', hnow, htype⟩ := Option.map_eq_some_iff.1 htypes
    rw [hnow] at hnames
    exact Or.inr ⟨node, node', rfl, hnow, htype, Option.some.inj hnames⟩

variable (haccessible : tree.Accessible)

include haccessible

theorem type_reach_eq (h : Ready tree now) {failure : Failures → Option Failure}
    (hfailure : failure .none = none) (place : Location) :
    (tree.reach place failure).map (·.type) = (now.reach place failure).map (·.type) := by
  rw [haccessible.reach_eq hfailure, h.accessible.reach_eq hfailure]
  rcases h.at?_cases place with ⟨htree, hnow⟩ | ⟨node, node', htree, hnow, htype, -⟩
  · rw [htree, hnow]
  · rw [htree, hnow]
    exact congrArg Except.ok htype.symm

theorem list_eq (h : Ready tree now) {place : Location}
    (htype : (tree.at? place).map (·.type) = some .directory) :
    tree.list place = now.list place := by
  obtain ⟨node, htree, hnode⟩ := Option.map_eq_some_iff.1 htype
  rcases h.at?_cases place with ⟨hnone, -⟩ | ⟨_, node', htree', hnow, htype', hnames⟩
  · cases htree.symm.trans hnone
  · obtain rfl := Option.some.inj (htree.symm.trans htree')
    rw [haccessible.list_eq htree hnode, h.accessible.list_eq hnow (htype'.trans hnode), hnames]

end Ready

end Node

end PathRights
