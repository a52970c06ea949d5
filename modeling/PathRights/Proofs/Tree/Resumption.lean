import PathRights.Proofs.Tree.Itinerary
import PathRights.Proofs.Tree.Rearrangement

/-! Walks that are repeated and walks that are broken off. A mode that a walk has set is the one
that the entry has when the walk comes by, so a tree in which some of the changes are made already
has the same stops. A walk that was broken off has made the first changes of the whole walk; the
next one starts at the beginning, does the same deeds as if nothing had happened, and leaves the
same tree. -/

namespace PathRights

open Deed

namespace Walk

open Node

/-! ### The stops of altered trees -/

/-- A relation between lists of stops that the stops in front and behind do not disturb. -/
structure Local (R : List Stop → List Stop → Prop) : Prop where
  refl : ∀ stops, R stops stops
  within : ∀ front {stops stops'} back, R stops stops' →
    R (front ++ (stops ++ back)) (front ++ (stops' ++ back))

theorem local_eq : Local Eq := ⟨fun _ => rfl, fun front _ _ back h => by rw [h]⟩

theorem Local.cons {R : List Stop → List Stop → Prop} (hR : Local R) (stop : Stop)
    {stops stops' : List Stop} (h : R stops stops') : R (stop :: stops) (stop :: stops') := by
  simpa using hR.within [stop] [] h

section Altered

variable (walk : Walk) {R : List Stop → List Stop → Prop} (hR : Local R) {f : Node → Node}
  (hf : IsOwn f)

include hR hf

/-- An entry that is altered alters the stops in the directory around it where it lies. -/
theorem stopsIn_alter {node child : Node} {name : Text} {rest : Location} {passable : Bool}
    {location : Location} {path : Text} (hnodup : node.childNames.Nodup)
    (hchild : node.child? name = some child)
    (h : R (stopsAt walk passable (location ++ [name]) (path ++ name) (child.alter f rest))
      (stopsAt walk passable (location ++ [name]) (path ++ name) child)) :
    R (stopsIn walk passable location path (node.alter f (name :: rest)).inNameOrder)
      (stopsIn walk passable location path node.inNameOrder) := by
  obtain ⟨hmem, hname⟩ := (child?_eq_some_iff hnodup).1 hchild
  subst hname
  have hordered : (node.inNameOrder.map (·.name)).Nodup := by
    rw [map_name_inNameOrder]
    exact (List.mergeSort_perm _ _).nodup_iff.2 hnodup
  obtain ⟨before, after, hsplit⟩ := List.append_of_mem (List.mem_mergeSort.2 hmem)
  have horder : node.inNameOrder = before ++ child :: after := hsplit
  have hperm : node.inNameOrder.Perm (child :: (before ++ after)) := horder ▸ List.perm_middle
  rw [(hperm.map Node.name).nodup_iff, List.map_cons, List.nodup_cons] at hordered
  have hothers : ∀ other ∈ before ++ after,
      (if other.name = child.name then alter f rest other else other) = other :=
    fun other hother => if_neg fun (heq : other.name = child.name) =>
      hordered.1 (heq ▸ List.mem_map_of_mem hother)
  have hbefore := List.map_congr_left fun other hother =>
    hothers other (List.mem_append_left after hother)
  have hafter := List.map_congr_left fun other hother =>
    hothers other (List.mem_append_right before hother)
  rw [inNameOrder_alter hf _ _ hnodup, horder, List.map_append, List.map_cons, if_pos rfl, hbefore,
    hafter, List.map_id', List.map_id', stopsIn_eq_flatMap, stopsIn_eq_flatMap, List.flatMap_append,
    List.flatMap_append, List.flatMap_cons, List.flatMap_cons, hf.name_alter]
  exact hR.within _ _ h

omit hf in
theorem entered_of_inside {node : Node} {children : List Node} {location : Location} {entry : Entry}
    {stop : SystemError → Stop} {inside inside' : Int → List Stop}
    (h : ∀ mode, R (inside mode) (inside' mode)) :
    R (entered walk location entry { node with children } stop inside)
      (entered walk location entry node stop inside') := by
  have hmode : settledMode walk entry { node with children } = settledMode walk entry node := rfl
  have hlisting (mode : Int) : listing mode { node with children } = listing mode node := rfl
  unfold entered
  refine hR.cons _ ?_
  rw [hmode, hlisting]
  cases listing (settledMode walk entry node) node with
  | error failure => exact hR.refl _
  | ok _ => exact h _

omit hf in
/-- Other stops in a directory make no difference at the directory itself. -/
theorem stopsAt_children {node : Node} {children : List Node} {location : Location} {path : Text}
    (h : ∀ passable, R
      (stopsIn walk passable location (path ++ "/") { node with children }.inNameOrder)
      (stopsIn walk passable location (path ++ "/") node.inNameOrder)) (passable : Bool) :
    R (stopsAt walk passable location path { node with children })
      (stopsAt walk passable location path node) := by
  unfold stopsAt
  dsimp only
  split
  · cases node.failures.lstat with
    | some failure => exact hR.refl _
    | none =>
      cases hkind : node.type.kind with
      | symlink => exact hR.refl _
      | other => exact hR.refl _
      | file => exact hR.refl _
      | directory =>
        rw [entryOf_directory hkind]
        exact entered_of_inside walk hR fun mode => h _
  · exact hR.refl _

theorem stopsAt_alter {target : Node} (rest : Location) :
    ∀ (node : Node) (location : Location) (path : Text), node.DistinctNames →
      node.at? rest = some target →
      (∀ passable, R
        (stopsAt walk passable (location ++ rest) (path ++ Pattern.slashed rest) (f target))
        (stopsAt walk passable (location ++ rest) (path ++ Pattern.slashed rest) target)) →
      ∀ passable, R (stopsAt walk passable location path (node.alter f rest))
        (stopsAt walk passable location path node) := by
  induction rest with
  | nil =>
    intro node location path _ hat h passable
    cases hat
    simpa [alter] using h passable
  | cons name rest ih =>
    intro node location path hnames hat h passable
    rw [at?_cons] at hat
    obtain ⟨child, hchild, hat⟩ := Option.bind_eq_some_iff.1 hat
    refine stopsAt_children walk hR (fun passable => ?_) passable
    refine stopsIn_alter walk hR hf (hnames [] node rfl) hchild ?_
    refine ih child _ _ (hnames.child hchild) hat (fun passable => ?_) passable
    simpa using h passable

omit hf in
theorem stops_children {tree : Node} {children : List Node}
    (h : ∀ passable, R (stopsIn walk passable [] [] { tree with children }.inNameOrder)
      (stopsIn walk passable [] [] tree.inNameOrder)) :
    R (stops walk { tree with children }) (stops walk tree) := by
  unfold stops
  dsimp only
  cases tree.failures.stat with
  | some failure => exact hR.refl _
  | none =>
    dsimp only
    split
    · exact entered_of_inside walk hR fun mode => hR.within [] [.finish] (h _)
    · exact hR.refl _

theorem stops_alter {tree target : Node} {name : Text} {rest : Location}
    (hnames : tree.DistinctNames) (hat : tree.at? (name :: rest) = some target)
    (h : ∀ passable, R
      (stopsAt walk passable (name :: rest) (List.intercalate ['/'] (name :: rest)) (f target))
      (stopsAt walk passable (name :: rest) (List.intercalate ['/'] (name :: rest)) target)) :
    R (stops walk (tree.alter f (name :: rest))) (stops walk tree) := by
  rw [at?_cons] at hat
  obtain ⟨child, hchild, hat⟩ := Option.bind_eq_some_iff.1 hat
  have hpath : List.intercalate ['/'] (name :: rest) = name ++ Pattern.slashed rest :=
    Pattern.intercalate_cons name rest
  have hinside (passable : Bool) : R
      (stopsIn walk passable [] [] (tree.alter f (name :: rest)).inNameOrder)
      (stopsIn walk passable [] [] tree.inNameOrder) := by
    refine stopsIn_alter walk hR hf (hnames [] tree rfl) hchild ?_
    rw [hpath] at h
    exact stopsAt_alter walk hR hf rest child _ _ (hnames.child hchild) hat h passable
  exact stops_children walk hR hinside

end Altered

/-! ### Modes that are set already -/

/-- The mode that a walk leaves the entry at a place with. -/
def finalMode (walk : Walk) (place : Location) (target : Node) : Int :=
  settledMode walk (entryOf (List.intercalate ['/'] place) target.type) target

theorem settledMode_settled (walk : Walk) (entry : Entry) (node : Node) :
    settledMode walk entry { node with mode := settledMode walk entry node } =
      settledMode walk entry node := by
  unfold settledMode
  split
  · dsimp only
    split <;> rfl
  · rfl
  · rfl

/-- A directory that has its settled mode already is no different to the walk. -/
theorem entered_settled (walk : Walk) (location : Location) (entry : Entry) (node : Node)
    (stop : SystemError → Stop) (inside : Int → List Stop) :
    entered walk location entry { node with mode := settledMode walk entry node } stop inside =
      entered walk location entry node stop inside := by
  unfold entered
  rw [settledMode_settled]
  rfl

theorem stopsAt_settled (walk : Walk) (passable : Bool) (location : Location) (path : Text)
    (node : Node) :
    stopsAt walk passable location path
        { node with mode := settledMode walk (entryOf path node.type) node } =
      stopsAt walk passable location path node := by
  have horder (mode : Int) : { node with mode }.inNameOrder = node.inNameOrder := rfl
  unfold stopsAt
  dsimp only
  rw [entered_settled, horder]

theorem stops_settled (walk : Walk) (tree : Node) :
    stops walk { tree with mode := finalMode walk [] tree } = stops walk tree := by
  have horder (mode : Int) : { tree with mode }.inNameOrder = tree.inNameOrder := rfl
  have hmode : finalMode walk [] tree = settledMode walk (entryOf [] tree.type) tree := rfl
  unfold stops
  dsimp only
  rw [hmode, entered_settled, horder]

theorem stops_setMode (walk : Walk) {tree target : Node} {place : Location}
    (hnames : tree.DistinctNames) (hat : tree.at? place = some target) :
    stops walk (tree.setMode (finalMode walk place target) place) = stops walk tree := by
  cases place with
  | nil =>
    cases hat
    exact stops_settled walk tree
  | cons name rest =>
    rw [setMode_eq_alter]
    refine stops_alter walk local_eq (isOwn_mode _) hnames hat fun passable => ?_
    exact stopsAt_settled walk passable _ _ target

/-- A walk changes an entry to its final mode. -/
theorem finalMode_of_mem_changes (walk : Walk) {tree : Node} (hnames : tree.DistinctNames)
    {change : Location × Int} (h : change ∈ changes (deeds walk tree)) :
    ∃ target, tree.at? change.1 = some target ∧ change.2 = finalMode walk change.1 target := by
  unfold deeds at h
  rw [changes_flatMap_deeds] at h
  obtain ⟨stop, hstop, h⟩ := List.mem_flatMap.1 h
  obtain ⟨entry, failures, role, rule, rfl, hdecide, hdry, hchmod, hmode⟩ := handle_of_mem_changes h
  obtain ⟨target, hmet, rfl⟩ := met_of_mem_stops walk hnames hstop
  refine ⟨target, hmet.found, ?_⟩
  unfold finalMode settledMode
  rw [← hmet.entry, hdecide, hmode]
  simp [hdry, hchmod]

/-- A tree in which a walk has made some of its changes has the stops that it had at first. -/
theorem stops_setModes (walk : Walk) {tree : Node} (hnames : tree.DistinctNames)
    {changed : List (Location × Int)}
    (h : ∀ change ∈ changed, change ∈ changes (deeds walk tree)) :
    (tree.setModes changed).DistinctNames ∧
      stops walk (tree.setModes changed) = stops walk tree := by
  induction changed generalizing tree with
  | nil => exact ⟨hnames, rfl⟩
  | cons change changed ih =>
    obtain ⟨hchange, hchanged⟩ := List.forall_mem_cons.1 h
    obtain ⟨target, hat, hmode⟩ := finalMode_of_mem_changes walk hnames hchange
    have hnames' : (tree.setMode change.2 change.1).DistinctNames :=
      hnames.of_sameNames ((SameNames.refl tree).setMode change.2 change.1).symm
    have hstops : stops walk (tree.setMode change.2 change.1) = stops walk tree := by
      rw [hmode]
      exact stops_setMode walk hnames hat
    have hdeeds : deeds walk (tree.setMode change.2 change.1) = deeds walk tree :=
      congrArg (List.flatMap (Stop.deeds walk)) hstops
    rw [setModes_cons, ← hstops]
    exact ih hnames' (hdeeds ▸ hchanged)

end Walk

namespace Node

theorem setMode_setMode (mode mode' : Int) (location : Location) (tree : Node) :
    (tree.setMode mode' location).setMode mode location = tree.setMode mode location := by
  simp only [setMode_eq_alter]
  exact alter_alter (isOwn_mode mode') location tree

theorem setMode_comm {location location' : Location} (hne : location ≠ location')
    (mode mode' : Int) (tree : Node) :
    (tree.setMode mode' location').setMode mode location =
      (tree.setMode mode location).setMode mode' location' := by
  simp only [setMode_eq_alter]
  exact alter_comm (isOwn_mode mode) (isOwn_mode mode') hne tree

/-- A change that is made later anyway makes no difference, if no place gets two modes. -/
theorem setModes_setMode {changes : List (Location × Int)} {change : Location × Int}
    (hone : ∀ other ∈ changes, other.1 = change.1 → other = change) (hmem : change ∈ changes)
    (tree : Node) : (tree.setMode change.2 change.1).setModes changes = tree.setModes changes := by
  induction changes generalizing tree with
  | nil => cases hmem
  | cons first changes ih =>
    obtain ⟨hfirst, hothers⟩ := List.forall_mem_cons.1 hone
    rw [setModes_cons, setModes_cons]
    by_cases hplace : first.1 = change.1
    · rw [hfirst hplace, setMode_setMode]
    · have hmem' : change ∈ changes := by
        rcases List.mem_cons.1 hmem with rfl | hmem
        · exact absurd rfl hplace
        · exact hmem
      rw [setMode_comm hplace, ih hothers hmem']

theorem setModes_setModes {changes changed : List (Location × Int)}
    (hone : ∀ change ∈ changes, ∀ other ∈ changes, other.1 = change.1 → other = change)
    (hchanged : ∀ change ∈ changed, change ∈ changes) (tree : Node) :
    (tree.setModes changed).setModes changes = tree.setModes changes := by
  induction changed generalizing tree with
  | nil => rfl
  | cons change changed ih =>
    obtain ⟨hchange, hchanged⟩ := List.forall_mem_cons.1 hchanged
    rw [setModes_cons, ih hchanged, setModes_setMode (hone change hchange) hchange]

end Node

namespace Walk

open Node

/-- A walk that finds some of its changes made already does what it would have done without them. -/
theorem traverse_setModes (walk : Walk) {tree : Node} (hnames : tree.DistinctNames)
    {changed : List (Location × Int)}
    (h : ∀ change ∈ changed, change ∈ changes (done (deeds walk tree))) :
    walk.traverse (tree.setModes changed) = walk.traverse tree := by
  obtain ⟨hnames', hstops⟩ :=
    stops_setModes walk hnames fun change hchange => mem_of_mem_changes_done (h change hchange)
  have hdeeds : deeds walk (tree.setModes changed) = deeds walk tree :=
    congrArg (List.flatMap (Stop.deeds walk)) hstops
  -- no entry is changed to two modes, so a change that is there already may as well be made later
  have hone : ∀ change ∈ changes (done (deeds walk tree)),
      ∀ other ∈ changes (done (deeds walk tree)), other.1 = change.1 → other = change := by
    intro change hchange other hother hplace
    obtain ⟨target, hat, hmode⟩ :=
      finalMode_of_mem_changes walk hnames (mem_of_mem_changes_done hchange)
    obtain ⟨target', hat', hmode'⟩ :=
      finalMode_of_mem_changes walk hnames (mem_of_mem_changes_done hother)
    rw [hplace] at hat' hmode'
    obtain rfl : target = target' := Option.some.inj (hat.symm.trans hat')
    exact Prod.ext hplace (hmode'.trans hmode.symm)
  have hsame := foldl_apply_with_tree walk.manner (done (deeds walk tree)) (Session.start tree) tree
  have hchanged := foldl_apply_with_tree walk.manner (done (deeds walk tree)) (Session.start tree)
    (tree.setModes changed)
  rw [setModes_setModes hone h, ← hsame] at hchanged
  rw [traverse_eq_carryOut walk hnames', traverse_eq_carryOut walk hnames, hdeeds]
  exact Prod.ext rfl hchanged

end Walk

/-! ### Walks that are broken off -/

/-- A call fails for a reason that ends work. -/
def Failure.Ends (failure : Option Failure) : Prop := (failure.bind Failure.abort?).isSome

/-- Some of the calls on an entry end the work instead. -/
structure Failures.OrEnd (failures failures' : Failures) : Prop where
  stat : failures'.stat = failures.stat ∨ Failure.Ends failures'.stat
  lstat : failures'.lstat = failures.lstat ∨ Failure.Ends failures'.lstat
  list : failures'.list = failures.list ∨ Failure.Ends failures'.list
  chown : failures'.chown = failures.chown ∨ Failure.Ends failures'.chown
  chmod : failures'.chmod = failures.chmod ∨ Failure.Ends failures'.chmod

namespace Deed

/-- Deeds that are the first of a whole and then end the work. -/
def CutShort (deeds whole : List Deed) : Prop :=
  ∃ front reason back more, deeds = front ++ .abort reason :: back ∧ whole = front ++ more

theorem cutShort_of_ends (reason : Abort) (back whole : List Deed) :
    CutShort (.abort reason :: back) whole :=
  ⟨[], reason, back, whole, rfl, rfl⟩

theorem CutShort.append {deeds whole : List Deed} (h : CutShort deeds whole)
    (back more : List Deed) : CutShort (deeds ++ back) (whole ++ more) := by
  obtain ⟨front, reason, back', more', rfl, rfl⟩ := h
  exact ⟨front, reason, back' ++ back, more' ++ more, by simp, by simp⟩

theorem CutShort.after {deeds whole : List Deed} (h : CutShort deeds whole) (front : List Deed) :
    CutShort (front ++ deeds) (front ++ whole) := by
  obtain ⟨front', reason, back, more, rfl, rfl⟩ := h
  exact ⟨front ++ front', reason, back, more, by simp, by simp⟩

theorem CutShort.done_eq {deeds whole : List Deed} (h : CutShort deeds whole) :
    ∃ n, done deeds = done (whole.take n) := by
  obtain ⟨front, reason, back, more, rfl, rfl⟩ := h
  refine ⟨front.length, ?_⟩
  rw [List.take_left' rfl, done_append]
  split
  · next hall =>
    rw [(prefix_done front).eq_of_length hall]
    exact List.append_nil front
  · rfl

end Deed

namespace Walk

open Node

/-- Stops whose deeds are those of others, or these cut short. -/
def OrCutShort (walk : Walk) (stops stops' : List Stop) : Prop :=
  stops.flatMap (Stop.deeds walk) = stops'.flatMap (Stop.deeds walk) ∨
    CutShort (stops.flatMap (Stop.deeds walk)) (stops'.flatMap (Stop.deeds walk))

theorem OrCutShort.after {walk : Walk} {front front' back back' : List Stop}
    (h : OrCutShort walk back back')
    (hfront : front.flatMap (Stop.deeds walk) = front'.flatMap (Stop.deeds walk)) :
    OrCutShort walk (front ++ back) (front' ++ back') := by
  unfold OrCutShort at h ⊢
  rw [List.flatMap_append, List.flatMap_append, hfront]
  rcases h with h | h
  · rw [h]
    exact Or.inl rfl
  · exact Or.inr (h.after _)

theorem local_orCutShort (walk : Walk) : Local (OrCutShort walk) where
  refl _ := Or.inl rfl
  within := by
    intro front stops stops' back h
    refine OrCutShort.after ?_ rfl
    unfold OrCutShort at h ⊢
    rw [List.flatMap_append, List.flatMap_append]
    rcases h with h | h
    · rw [h]
      exact Or.inl rfl
    · exact Or.inr (h.append _ _)

theorem Stop.ofFailure_ends {failure : Option Failure} (h : Failure.Ends failure) :
    ∃ f reason, failure = some f ∧ ∀ stop, Stop.ofFailure stop f = .abort reason := by
  cases failure with
  | none => cases h
  | some failure =>
    cases failure with
    | system error => cases h
    | crash fault => exact ⟨_, .crash fault, rfl, fun _ => rfl⟩
    | interrupt => exact ⟨_, .interrupt, rfl, fun _ => rfl⟩

theorem operationDeeds_ends {manner : Manner} {would told : Event} {made : Call}
    {failure failure' : Option Failure} {changed : List (Location × Int)}
    (hdry : manner.dryRun = false) (h : Failure.Ends failure') :
    CutShort (operationDeeds manner would told made failure' changed)
      (operationDeeds manner would told made failure changed) := by
  have hdry' : ¬ manner.dryRun = true := by simp [hdry]
  unfold operationDeeds
  rw [if_neg hdry', if_neg hdry']
  cases failure' with
  | none => cases h
  | some failure' =>
    cases failure' with
    | system error => cases h
    | crash fault => exact (cutShort_of_ends _ _ _).after [.call made]
    | interrupt => exact (cutShort_of_ends _ _ _).after [.call made]

/-- An entry whose calls may end the work is handled as it would be otherwise, up to such a call. -/
theorem handleDeeds_orEnd (walk : Walk) (location : Location) (entry : Entry) {node : Node}
    {failures : Failures} (h : node.failures.OrEnd failures) :
    (handleDeeds walk location entry failures = handleDeeds walk location entry node.failures ∧
        settledMode walk entry { node with failures } = settledMode walk entry node) ∨
      CutShort (handleDeeds walk location entry failures)
        (handleDeeds walk location entry node.failures) := by
  unfold handleDeeds settledMode
  cases walk.table.decide entry with
  | leave rule => exact Or.inl ⟨rfl, rfl⟩
  | unmatched => exact Or.inl ⟨rfl, rfl⟩
  | apply role rule =>
    dsimp only
    cases hdry : walk.manner.dryRun with
    | true =>
      left
      unfold roleDeeds operationDeeds operationError
      simp [hdry]
    | false =>
      -- the owner comes first: where that ends the work, the mode is not tried any more
      rcases h.chown with hchown | hchown
      · rcases h.chmod with hchmod | hchmod
        · left
          unfold roleDeeds
          simp [hchown, hchmod]
        · right
          have hrole : CutShort (roleDeeds walk location entry failures role)
              (roleDeeds walk location entry node.failures role) := by
            unfold roleDeeds
            rw [hchown]
            exact ((operationDeeds_ends hdry hchmod).append _ _).after _
          exact hrole.after [_, _, _]
      · right
        have hrole : CutShort (roleDeeds walk location entry failures role)
            (roleDeeds walk location entry node.failures role) :=
          (operationDeeds_ends hdry hchown).append _ _
        exact hrole.after [_, _, _]

theorem entered_orEnd (walk : Walk) {node : Node} {failures : Failures}
    (h : node.failures.OrEnd failures) (location : Location) (entry : Entry)
    (stop : SystemError → Stop) (inside : Int → List Stop) :
    OrCutShort walk (entered walk location entry { node with failures } stop inside)
      (entered walk location entry node stop inside) := by
  unfold entered
  dsimp only
  rcases handleDeeds_orEnd walk location entry h with ⟨hsame, hmode⟩ | hcut
  · have hhandle : [Stop.handle location entry failures].flatMap (Stop.deeds walk) =
        [Stop.handle location entry node.failures].flatMap (Stop.deeds walk) := by
      rw [List.flatMap_singleton, List.flatMap_singleton]
      exact hsame
    refine OrCutShort.after ?_ hhandle
    rw [hmode]
    unfold listing
    rcases h.list with hlist | hlist
    · dsimp only
      rw [hlist]
      exact Or.inl rfl
    · obtain ⟨failure, reason, hsome, hstop⟩ := Stop.ofFailure_ends hlist
      rw [hsome]
      right
      dsimp only
      rw [hstop, List.flatMap_singleton]
      exact cutShort_of_ends reason [] _
  · right
    exact hcut.append _ _

/-- The same of the stops at an entry and in it. -/
theorem stopsAt_orEnd (walk : Walk) {node : Node} {failures : Failures}
    (h : node.failures.OrEnd failures) (passable : Bool) (location : Location) (path : Text) :
    OrCutShort walk (stopsAt walk passable location path { node with failures })
      (stopsAt walk passable location path node) := by
  have hlocal := local_orCutShort walk
  unfold stopsAt
  dsimp only
  split
  · rcases h.lstat with hlstat | hlstat
    · rw [hlstat]
      cases node.failures.lstat with
      | some failure => exact hlocal.refl _
      | none =>
        cases hkind : node.type.kind with
        | symlink => exact hlocal.refl _
        | other => exact hlocal.refl _
        | file =>
          rcases handleDeeds_orEnd walk location (entryOf path node.type) h with ⟨hsame, -⟩ | hcut
          · left
            simpa [Stop.deeds] using hsame
          · right
            simpa [Stop.deeds] using hcut
        | directory => exact entered_orEnd walk h _ _ _ _
    · obtain ⟨failure, reason, hsome, hstop⟩ := Stop.ofFailure_ends hlstat
      rw [hsome]
      right
      dsimp only
      rw [hstop, List.flatMap_singleton]
      exact cutShort_of_ends reason [] _
  · exact hlocal.refl _

end Walk

namespace Node

/-- The tree with other failures of the entry at a place. -/
def setFailures (failures : Failures) (location : Location) (tree : Node) : Node :=
  tree.alter (fun node => { node with failures }) location

theorem isOwn_failures (failures : Failures) : IsOwn fun node => { node with failures } :=
  ⟨fun _ => rfl, fun _ _ => rfl⟩

theorem setFailures_setModes (failures : Failures) (location : Location)
    (changes : List (Location × Int)) (tree : Node) :
    (tree.setModes changes).setFailures failures location =
      (tree.setFailures failures location).setModes changes := by
  induction changes generalizing tree with
  | nil => rfl
  | cons change changes ih =>
    rw [setModes_cons, ih, setModes_cons]
    congr 1
    unfold setFailures
    rw [setMode_eq_alter]
    by_cases hplace : location = change.1
    · rw [hplace, alter_alter (isOwn_mode _), alter_alter (isOwn_failures _)]
      rfl
    · exact alter_comm (isOwn_failures failures) (isOwn_mode change.2) hplace tree

theorem setFailures_back {tree node : Node} {location : Location}
    (hat : tree.at? location = some node) (failures : Failures) :
    (tree.setFailures failures location).setFailures node.failures location = tree := by
  unfold setFailures
  rw [alter_alter (isOwn_failures failures)]
  refine alter_eq_self hat ?_
  cases node
  rfl

end Node

namespace Walk

open Node

theorem stops_orEnd (walk : Walk) {tree node : Node} {location : Location} {failures : Failures}
    (hnames : tree.DistinctNames) (hat : tree.at? location = some node)
    (h : node.failures.OrEnd failures) :
    OrCutShort walk (stops walk (tree.setFailures failures location)) (stops walk tree) := by
  cases location with
  | cons name rest =>
    exact stops_alter walk (local_orCutShort walk) (isOwn_failures failures) hnames hat
      fun passable => stopsAt_orEnd walk h passable _ _
  | nil =>
    cases hat
    show OrCutShort walk (stops walk { tree with failures }) _
    unfold stops
    dsimp only
    rcases h.stat with hstat | hstat
    · rw [hstat]
      cases tree.failures.stat with
      | some failure => exact Or.inl rfl
      | none =>
        dsimp only
        split
        · exact entered_orEnd walk h _ _ _ _
        · exact Or.inl rfl
    · obtain ⟨failure, reason, hsome, hstop⟩ := Stop.ofFailure_ends hstat
      rw [hsome]
      right
      dsimp only
      rw [hstop, List.flatMap_singleton]
      exact cutShort_of_ends reason [] _

/-- The walk broken off for a reason, with its first deeds done. -/
def brokenOff (walk : Walk) (tree : Node) (n : Nat) (reason : Abort) :
    Except Abort Unit × Session :=
  carryOut walk.manner ((deeds walk tree).take n ++ [.abort reason]) (Session.start tree)

/-- Deeds of a walk that are cut short leave a tree that the walk takes for the first one. -/
theorem traverse_cutShort (walk : Walk) {tree : Node} (hnames : tree.DistinctNames)
    {cut : List Deed} (h : CutShort cut (deeds walk tree)) :
    walk.traverse (tree.setModes (changes (done cut))) = walk.traverse tree := by
  obtain ⟨n, hn⟩ := h.done_eq
  rw [hn]
  exact traverse_setModes walk hnames fun _ hchange =>
    ((prefix_done_take (deeds walk tree) n).sublist.filterMap _).subset hchange

/-- A walk can be repeated and resumed. Over the tree that it left behind, whether it came to its
end, calls on some entry ended it or it was broken off anywhere among its deeds, the walk does what
it does over the first tree: it comes to the same end, with the same calls, events and counts, and
leaves the same tree. -/
theorem traverse_resumes (walk : Walk) (tree : Node) (hnames : tree.DistinctNames) :
    walk.traverse (walk.traverse tree).2.tree = walk.traverse tree ∧
      (walk.traverse (walk.traverse tree).2.tree).2.tree = (walk.traverse tree).2.tree ∧
      (∀ location node failures, tree.at? location = some node → node.failures.OrEnd failures →
        walk.traverse ((walk.traverse (tree.setFailures failures location)).2.tree.setFailures
          node.failures location) = walk.traverse tree) ∧
      walk.traverse tree = carryOut walk.manner (deeds walk tree) (Session.start tree) ∧
      ∀ n reason, walk.traverse (brokenOff walk tree n reason).2.tree = walk.traverse tree := by
  have hdeeds := traverse_eq_carryOut walk hnames
  have hagain : walk.traverse (walk.traverse tree).2.tree = walk.traverse tree := by
    have hleft : (walk.traverse tree).2.tree =
        tree.setModes (changes (done (deeds walk tree))) := by
      rw [hdeeds]
      exact carryOut_tree walk.manner _ _
    rw [hleft]
    exact traverse_setModes walk hnames fun _ hchange => hchange
  refine ⟨hagain, congrArg (fun w => w.2.tree) hagain, fun location node failures hat h => ?_,
    hdeeds, fun n reason => ?_⟩
  · have hnames' : (tree.setFailures failures location).DistinctNames :=
      hnames.alter (isOwn_failures failures) location
    rw [traverse_eq_carryOut walk hnames', carryOut_tree]
    show walk.traverse (((tree.setFailures failures location).setModes _).setFailures _ _) = _
    rw [setFailures_setModes, setFailures_back hat]
    rcases stops_orEnd walk hnames hat h with hsame | hcut
    · have hsame' : deeds walk (tree.setFailures failures location) = deeds walk tree := hsame
      rw [hsame']
      exact traverse_setModes walk hnames fun _ hchange => hchange
    · exact traverse_cutShort walk hnames hcut
  · unfold brokenOff
    rw [carryOut_tree]
    refine traverse_cutShort walk hnames ⟨_, reason, [], (deeds walk tree).drop n, rfl, ?_⟩
    exact (List.take_append_drop n _).symm

theorem traverse_resumes_closedTree :
    closedTree.DistinctNames ∧
      openingWalk.traverse (openingWalk.traverse closedTree).2.tree =
        openingWalk.traverse closedTree ∧
      (let failures : Failures := { Failures.none with list := some .interrupt }
      let stopped := openingWalk.traverse (closedTree.setFailures failures ["a".toList])
      stopped.1 = .error .interrupt ∧ stopped.2.calls = (openingWalk.traverse closedTree).2.calls ∧
        openingWalk.traverse (stopped.2.tree.setFailures .none ["a".toList]) =
          openingWalk.traverse closedTree) := by
  obtain ⟨hagain, -, hended, -, -⟩ :=
    traverse_resumes openingWalk closedTree distinctNames_closedTree
  have hended' := hended ["a".toList]
    ⟨"a", .directory, 0, .none, [⟨"c", .regular, 0o644, .none, []⟩]⟩
    { Failures.none with list := some .interrupt } rfl
    ⟨Or.inl rfl, Or.inl rfl, Or.inr rfl, Or.inl rfl, Or.inl rfl⟩
  exact ⟨distinctNames_closedTree, hagain, by cbv, by cbv, hended'⟩

end Walk

end PathRights
