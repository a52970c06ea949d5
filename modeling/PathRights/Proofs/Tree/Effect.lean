import Mathlib.Data.List.Nodup
import PathRights.Proofs.Pattern.Components
import PathRights.Proofs.Rule.Table
import PathRights.Proofs.Tree.Itinerary
import PathRights.Proofs.Tree.Rearrangement

/-! What a walk does to a tree. The calls of a walk are those due for the entries that it handles,
in their order: two for an entry that gets a role, and none for any other. Different entries have
different paths, so no call is made twice, and none is made on what is not handled. -/

namespace PathRights

/-! ### Paths of places -/

namespace Path

open Pattern

/-- A directory with a `/` behind it, if it needs one. -/
def inside (directory : Text) : Text :=
  if directory.isEmpty ∨ directory.getLast? = some '/' then directory else directory ++ "/"

theorem join_name {name : Text} (hname : IsName name) (directory : Text) :
    join directory name = inside directory ++ name := by
  have hhead : ¬ name.head? = some '/' := by
    intro h
    obtain ⟨rest, rfl⟩ := List.head?_eq_some_iff.1 h
    exact hname.2 List.mem_cons_self
  unfold join inside
  rw [if_neg hhead]
  split <;> rfl

theorem inside_append_name {name : Text} (hname : IsName name) (front : Text) :
    inside (front ++ name) = front ++ name ++ "/" := by
  refine if_neg ?_
  rw [List.isEmpty_iff, List.append_eq_nil_iff, List.getLast?_append_of_ne_nil _ hname.1]
  rintro (h | h)
  · exact hname.1 h.2
  · exact hname.2 (List.mem_of_getLast? h)

theorem below_cons {name : Text} {names : List Text} (hname : IsName name)
    (hnames : ∀ name ∈ names, IsName name) (root : Text) :
    below root (name :: names) = inside root ++ (name ++ slashed names) := by
  unfold below
  rw [List.foldl_cons, join_name hname]
  generalize inside root = front
  induction names generalizing front name with
  | nil => simp
  | cons next names ih =>
    obtain ⟨hnext, hnames⟩ := List.forall_mem_cons.1 hnames
    rw [List.foldl_cons, join_name hnext, inside_append_name hname, ih hnext hnames]
    simp

/-- No two places have one path. -/
theorem below_inj {names names' : List Text} (hnames : ∀ name ∈ names, IsName name)
    (hnames' : ∀ name ∈ names', IsName name) {root : Text}
    (h : below root names = below root names') : names = names' := by
  have hroot {name : Text} {names : List Text} (hname : IsName name)
      (hnames : ∀ name ∈ names, IsName name) : below root (name :: names) ≠ root := by
    rw [below_cons hname hnames]
    intro heq
    have hlength := congrArg List.length heq
    have hinside : root.length ≤ (inside root).length := by
      unfold inside
      split
      · exact Nat.le_refl _
      · simp
    have hpos := List.length_pos_of_ne_nil hname.1
    simp only [List.length_append] at hlength
    omega
  cases names with
  | nil =>
    cases names' with
    | nil => rfl
    | cons name' names' =>
      obtain ⟨hname', hnames'⟩ := List.forall_mem_cons.1 hnames'
      exact absurd h.symm (hroot hname' hnames')
  | cons name names =>
    obtain ⟨hname, hrest⟩ := List.forall_mem_cons.1 hnames
    cases names' with
    | nil => exact absurd h (hroot hname hrest)
    | cons name' names' =>
      obtain ⟨hname', hrest'⟩ := List.forall_mem_cons.1 hnames'
      rw [below_cons hname hrest, below_cons hname' hrest'] at h
      have hslashed : slashed (name :: names) = slashed (name' :: names') :=
        congrArg ('/' :: ·) (List.append_cancel_left h)
      exact slashed_inj (fun n hn => (hnames n hn).2) (fun n hn => (hnames' n hn).2) hslashed

end Path

namespace Node

/-- The names in the tree are names of entries, and no directory holds two entries of one name. -/
structure WellNamed (tree : Node) : Prop where
  distinct : tree.DistinctNames
  names : ∀ place target, tree.at? place = some target → ∀ name ∈ place, Pattern.IsName name

theorem wellNamed_of_children {tree : Node} (hnodup : tree.childNames.Nodup)
    (h : ∀ child ∈ tree.children, Pattern.IsName child.name ∧ child.WellNamed) :
    tree.WellNamed where
  distinct := distinctNames_of_children hnodup fun child hchild => (h child hchild).2.distinct
  names := by
    intro place target hat
    cases place with
    | nil => exact fun name hname => absurd hname List.not_mem_nil
    | cons first rest =>
      rw [at?_cons] at hat
      obtain ⟨child, hchild, hat⟩ := Option.bind_eq_some_iff.1 hat
      obtain ⟨hname, hwell⟩ := h child (List.mem_of_find?_eq_some hchild)
      rw [name_of_child? hchild] at hname
      exact List.forall_mem_cons.2 ⟨hname, hwell.names rest target hat⟩

theorem at?_setModes_of_ne {changes : List (Location × Int)} {place : Location}
    (h : ∀ change ∈ changes, change.1 ≠ place) (tree : Node) :
    ((tree.setModes changes).at? place).map (·.mode) = (tree.at? place).map (·.mode) := by
  induction changes generalizing tree with
  | nil => rfl
  | cons change changes ih =>
    obtain ⟨hne, hchanges⟩ := List.forall_mem_cons.1 h
    have hmode (node : Node) (name : Text) (rest : Location) :
        (node.setMode change.2 (name :: rest)).mode = node.mode := rfl
    rw [setModes_cons, ih hchanges, at?_setMode_map change.2 change.1 place tree hmode, if_neg hne]

end Node

namespace Walk

open Deed Node Work

/-! ### The entries that are handled -/

/-- The entry that is handled at a stop, with its place. -/
def Stop.handled? : Stop → Option (Location × Entry)
  | .handle location entry _ => some (location, entry)
  | _ => none

/-- The entries that are handled at some stops. -/
def handledAt (stops : List Stop) : List (Location × Entry) := stops.filterMap Stop.handled?

/-- The entries that a walk handles, in the order in which it comes to them. -/
def handled (walk : Walk) (tree : Node) : List (Location × Entry) := handledAt (stops walk tree)

theorem mem_handledAt {stops : List Stop} {place : Location} {entry : Entry} :
    (place, entry) ∈ handledAt stops ↔ ∃ failures, .handle place entry failures ∈ stops := by
  unfold handledAt
  rw [List.mem_filterMap]
  constructor
  · rintro ⟨stop, hmem, hstop⟩
    cases stop with
    | handle place' entry' failures =>
      cases hstop
      exact ⟨failures, hmem⟩
    | _ => cases hstop
  · rintro ⟨failures, hmem⟩
    exact ⟨_, hmem, rfl⟩

/-- The places of the entries that are handled at some stops. -/
def placesAt (stops : List Stop) : List Location := (handledAt stops).map (·.1)

theorem mem_placesAt {stops : List Stop} {place : Location} :
    place ∈ placesAt stops ↔ ∃ entry failures, .handle place entry failures ∈ stops := by
  unfold placesAt
  rw [List.mem_map]
  constructor
  · rintro ⟨⟨place, entry⟩, hmem, rfl⟩
    obtain ⟨failures, hmem⟩ := mem_handledAt.1 hmem
    exact ⟨entry, failures, hmem⟩
  · rintro ⟨entry, failures, hmem⟩
    exact ⟨(place, entry), mem_handledAt.2 ⟨failures, hmem⟩, rfl⟩

theorem placesAt_ofFailure {stop : SystemError → Stop} (h : ∀ error, (stop error).handled? = none)
    (failure : Failure) : placesAt [Stop.ofFailure stop failure] = [] := by
  cases failure with
  | system error => simp [placesAt, handledAt, Stop.ofFailure, h]
  | crash fault => rfl
  | interrupt => rfl

theorem nodup_placesAt_entered {walk : Walk} {location : Location} {entry : Entry} {node : Node}
    {stop : SystemError → Stop} {inside : Int → List Stop}
    (hstop : ∀ error, (stop error).handled? = none)
    (hinside : ∀ mode, (placesAt (inside mode)).Nodup ∧ location ∉ placesAt (inside mode)) :
    (placesAt (entered walk location entry node stop inside)).Nodup := by
  unfold entered
  show (location :: placesAt _).Nodup
  rw [List.nodup_cons]
  split
  · rw [placesAt_ofFailure hstop]
    simp
  · exact (hinside _).symm

/-- Where the entries in a directory are handled. -/
theorem nodup_placesAt_stopsIn (walk : Walk) {node : Node} (hnames : node.DistinctNames)
    {passable : Bool} {location : Location} {path : Text}
    (h : ∀ child ∈ node.children, child.DistinctNames → (placesAt
      (stopsAt walk passable (location ++ [child.name]) (path ++ child.name) child)).Nodup) :
    (placesAt (stopsIn walk passable location path node.inNameOrder)).Nodup ∧
      location ∉ placesAt (stopsIn walk passable location path node.inNameOrder) := by
  have hchild (child : Node) (hmem : child ∈ node.inNameOrder) : child ∈ node.children :=
    List.mem_mergeSort.1 hmem
  have hdistinct (child : Node) (hmem : child ∈ node.inNameOrder) : child.DistinctNames :=
    hnames.child (child?_eq_some (hnames [] node rfl) (hchild child hmem))
  have hplace (child : Node) (hmem : child ∈ node.inNameOrder) {place : Location}
      (hplace : place ∈ placesAt
        (stopsAt walk passable (location ++ [child.name]) (path ++ child.name) child)) :
      ∃ rest, place = location ++ child.name :: rest := by
    obtain ⟨entry, failures, hstop⟩ := mem_placesAt.1 hplace
    obtain ⟨rest, target, rfl, -⟩ :=
      met_of_mem_stopsAt walk child (hdistinct child hmem) _ _ _ hstop
    exact ⟨rest, by simp⟩
  have hsplit : placesAt (stopsIn walk passable location path node.inNameOrder) =
      node.inNameOrder.flatMap fun child => placesAt
        (stopsAt walk passable (location ++ [child.name]) (path ++ child.name) child) := by
    unfold placesAt handledAt
    rw [stopsIn_eq_flatMap, List.filterMap_flatMap, List.map_flatMap]
  have hnodup : (node.inNameOrder.map (·.name)).Nodup := by
    rw [map_name_inNameOrder]
    exact (List.mergeSort_perm _ _).nodup_iff.2 (hnames [] node rfl)
  rw [hsplit]
  constructor
  · rw [List.nodup_flatMap]
    refine ⟨fun child hmem => h child (hchild child hmem) (hdistinct child hmem), ?_⟩
    refine (List.pairwise_map.1 hnodup).imp_of_mem fun {child other} hmem hmem' hne => ?_
    intro place hfirst hsecond
    obtain ⟨rest, hrest⟩ := hplace child hmem hfirst
    obtain ⟨rest', hrest'⟩ := hplace other hmem' hsecond
    rw [hrest] at hrest'
    exact hne (List.cons.inj (List.append_cancel_left hrest')).1
  · rw [List.mem_flatMap]
    rintro ⟨child, hmem, hlocation⟩
    obtain ⟨rest, hrest⟩ := hplace child hmem hlocation
    simp at hrest

theorem nodup_placesAt_stopsAt (walk : Walk) (node : Node) (hnames : node.DistinctNames) :
    ∀ (passable : Bool) (location : Location) (path : Text),
      (placesAt (stopsAt walk passable location path node)).Nodup := by
  induction node using Node.induct with
  | h node ih =>
    intro passable location path
    unfold stopsAt
    split
    · split
      · rw [placesAt_ofFailure fun _ => rfl]
        exact List.nodup_nil
      · split
        · exact List.nodup_nil
        · exact List.nodup_nil
        · exact List.nodup_singleton location
        · exact nodup_placesAt_entered (fun _ => rfl) fun mode =>
            nodup_placesAt_stopsIn walk hnames fun child hchild hnames' =>
              ih child hchild hnames' _ _ _
    · exact List.nodup_nil

/-- No entry is handled twice. -/
theorem nodup_handled (walk : Walk) {tree : Node} (hnames : tree.DistinctNames) :
    ((handled walk tree).map (·.1)).Nodup := by
  show (placesAt (stops walk tree)).Nodup
  unfold stops
  split
  · rw [placesAt_ofFailure fun _ => rfl]
    exact List.nodup_nil
  · split
    · refine nodup_placesAt_entered (fun _ => rfl) fun mode => ?_
      have hfinish (stops : List Stop) : placesAt (stops ++ [.finish]) = placesAt stops := by
        simp [placesAt, handledAt, Stop.handled?]
      rw [hfinish]
      exact nodup_placesAt_stopsIn walk hnames fun child _ hnames' =>
        nodup_placesAt_stopsAt walk child hnames' _ _ _
    · exact List.nodup_nil

/-! ### The calls that are due -/

/-- The calls that are due for an entry at a place: owner and mode, if a role gets it. -/
def callsDue (walk : Walk) : Location × Entry → List Call
  | (place, entry) =>
    match walk.table.decide entry with
    | .apply role _ =>
      match role.modeFor entry.isDirectory with
      | some mode =>
        [.chown (Path.below walk.rootPath place) role.userId role.groupId,
          .chmod (Path.below walk.rootPath place) mode]
      | none => []
    | .leave _ | .unmatched => []

theorem calls_append (front back : List Deed) : calls (front ++ back) = calls front ++ calls back :=
  List.filterMap_append

theorem calls_callDeeds (failure : Option Failure) (changed : List (Location × Int)) :
    calls (callDeeds failure changed) = [] := by
  cases failure with
  | none =>
    refine List.filterMap_eq_nil_iff.2 fun deed hdeed => ?_
    obtain ⟨change, -, rfl⟩ := List.mem_map.1 hdeed
    rfl
  | some failure => cases failure <;> rfl

theorem calls_operationDeeds {manner : Manner} (hdry : manner.dryRun = false) (would told : Event)
    (made : Call) (failure : Option Failure) (changed : List (Location × Int)) :
    calls (operationDeeds manner would told made failure changed) = [made] := by
  have hreport :
      calls (if (failure.bind Failure.error?).isNone then [.report told] else []) = [] := by
    split <;> rfl
  unfold operationDeeds
  rw [if_neg (by simp [hdry])]
  show made :: calls (callDeeds failure changed ++ _) = [made]
  rw [calls_append, calls_callDeeds, hreport]
  rfl

theorem calls_failureDeeds (path : Text) (operation : OperationName)
    (error : Option SystemError) : calls (failureDeeds path operation error) = [] := by
  cases error <;> rfl

theorem calls_handleDeeds {walk : Walk} (hdry : walk.manner.dryRun = false) {location : Location}
    {entry : Entry} (failures : Failures)
    (hmode : ∀ role rule, walk.table.decide entry = .apply role rule →
      ∃ mode, role.modeFor entry.isDirectory = some mode) :
    calls (handleDeeds walk location entry failures) = callsDue walk (location, entry) := by
  unfold handleDeeds callsDue
  dsimp only
  cases hdecide : walk.table.decide entry with
  | leave rule => rfl
  | unmatched => rfl
  | apply role rule =>
    obtain ⟨mode, hmode⟩ := hmode role rule hdecide
    show calls (roleDeeds walk location entry failures role) = _
    unfold roleDeeds modeOf
    dsimp only
    rw [calls_append, calls_append, calls_append, calls_operationDeeds hdry,
      calls_operationDeeds hdry, calls_failureDeeds, calls_failureDeeds, hmode]
    rfl

/-- The calls among the deeds of some stops are those that are due for the entries handled there. -/
theorem calls_stops {walk : Walk} (hdry : walk.manner.dryRun = false)
    (hmode : ∀ entry role rule, walk.table.decide entry = .apply role rule →
      ∃ mode, role.modeFor entry.isDirectory = some mode) (stops : List Stop) :
    calls (stops.flatMap (Stop.deeds walk)) = (handledAt stops).flatMap (callsDue walk) := by
  induction stops with
  | nil => rfl
  | cons stop stops ih =>
    rw [List.flatMap_cons, calls_append, ih]
    cases stop with
    | handle location entry failures =>
      rw [Stop.deeds, calls_handleDeeds hdry failures (hmode entry)]
      rfl
    | _ => rfl

/-! ### Reasons to stop -/

end Walk

/-- The walk foresees that it may end for this reason. -/
def Abort.isForeseen : Abort → Bool
  | .rootFailed .. | .rootNotDirectory _ => true
  | .crash _ | .interrupt => false

namespace Walk

open Deed Node Work

/-- A stop at an entry, as against one that the root of the tree is the reason for. -/
inductive Stop.IsOrdinary : Stop → Prop where
  | handle (location : Location) (entry : Entry) (failures : Failures) :
    IsOrdinary (.handle location entry failures)
  | cannotInspect (path : Text) (error : SystemError) :
    IsOrdinary (.skip (.cannotInspect path error))
  | symlink (path : Text) : IsOrdinary (.skip (.skippedSymlink path))
  | special (path : Text) : IsOrdinary (.skip (.skippedSpecial path))
  | unreadable (path : Text) (error : SystemError) : IsOrdinary (.unreadable path error)
  | ended {reason : Abort} (h : reason.isForeseen = false) : IsOrdinary (.abort reason)

theorem isOrdinary_ofFailure {stop : SystemError → Stop} (h : ∀ error, (stop error).IsOrdinary)
    (failure : Failure) : (Stop.ofFailure stop failure).IsOrdinary := by
  cases failure with
  | system error => exact h error
  | crash fault => exact .ended rfl
  | interrupt => exact .ended rfl

theorem isOrdinary_entered {walk : Walk} {location : Location} {entry : Entry} {node : Node}
    {stop : SystemError → Stop} {inside : Int → List Stop}
    (hstop : ∀ error, (stop error).IsOrdinary)
    (hinside : ∀ mode, ∀ stop' ∈ inside mode, stop'.IsOrdinary) :
    ∀ stop' ∈ entered walk location entry node stop inside, stop'.IsOrdinary := by
  refine List.forall_mem_cons.2 ⟨.handle location entry node.failures, ?_⟩
  split
  · exact List.forall_mem_singleton.2 (isOrdinary_ofFailure hstop _)
  · exact hinside _

theorem isOrdinary_stopsIn (walk : Walk) {passable : Bool} {location : Location} {path : Text}
    {nodes : List Node} (h : ∀ node ∈ nodes, ∀ stop ∈
      stopsAt walk passable (location ++ [node.name]) (path ++ node.name) node, stop.IsOrdinary) :
    ∀ stop ∈ stopsIn walk passable location path nodes, stop.IsOrdinary := by
  intro stop hstop
  rw [stopsIn_eq_flatMap] at hstop
  obtain ⟨node, hnode, hstop⟩ := List.mem_flatMap.1 hstop
  exact h node hnode stop hstop

theorem isOrdinary_stopsAt (walk : Walk) (node : Node) :
    ∀ (passable : Bool) (location : Location) (path : Text),
      ∀ stop ∈ stopsAt walk passable location path node, stop.IsOrdinary := by
  induction node using Node.induct with
  | h node ih =>
    intro passable location path
    unfold stopsAt
    split
    · split
      · exact List.forall_mem_singleton.2 (isOrdinary_ofFailure (fun _ => .cannotInspect ..) _)
      · split
        · exact List.forall_mem_singleton.2 (.symlink path)
        · exact List.forall_mem_singleton.2 (.special path)
        · exact List.forall_mem_singleton.2 (.handle ..)
        · exact isOrdinary_entered (fun _ => .unreadable ..) fun mode =>
            isOrdinary_stopsIn walk fun child hchild => ih child (List.mem_mergeSort.1 hchild) _ _ _
    · exact List.forall_mem_singleton.2 (.cannotInspect ..)

/-- Nothing but the root of the tree can end a walk for a reason that it foresees. -/
theorem stops_split (walk : Walk) (tree : Node) :
    ∃ front last, stops walk tree = front ++ last ∧ (∀ stop ∈ front, stop.IsOrdinary) ∧
      ∀ stop ∈ last, stop = .finish ∨ ∃ reason, stop = .abort reason := by
  have hnone : ∀ stop ∈ ([] : List Stop), stop.IsOrdinary := fun _ h => absurd h List.not_mem_nil
  have hfailed (failure : Failure) : ∀ stop ∈ [Stop.ofFailure
      (fun error => .abort (.rootFailed walk.root error)) failure],
      stop = .finish ∨ ∃ reason, stop = .abort reason := by
    refine List.forall_mem_singleton.2 (Or.inr ?_)
    cases failure <;> exact ⟨_, rfl⟩
  unfold stops
  split
  · exact ⟨[], _, rfl, hnone, hfailed _⟩
  · split
    · unfold entered
      dsimp only
      have hroot := Stop.IsOrdinary.handle [] (entryOf [] tree.type) tree.failures
      split
      · exact ⟨[_], _, rfl, List.forall_mem_singleton.2 hroot, hfailed _⟩
      · refine ⟨_ :: _, [.finish], rfl, List.forall_mem_cons.2 ⟨hroot, ?_⟩,
          List.forall_mem_singleton.2 (Or.inl rfl)⟩
        exact isOrdinary_stopsIn walk fun child _ => isOrdinary_stopsAt walk child _ _ _
    · exact ⟨[], _, rfl, hnone, List.forall_mem_singleton.2 (Or.inr ⟨_, rfl⟩)⟩

theorem unforeseen_operationDeeds {manner : Manner} {would told : Event} {made : Call}
    {failure : Option Failure} {changed : List (Location × Int)} {reason : Abort}
    (h : .abort reason ∈ operationDeeds manner would told made failure changed) :
    reason.isForeseen = false := by
  unfold operationDeeds at h
  split at h
  · simp at h
  · have hcall : .abort reason ∈ callDeeds failure changed := by
      split at h <;> simpa using h
    cases failure with
    | none => simp [callDeeds] at hcall
    | some failure =>
      cases failure with
      | system error => simp [callDeeds, Failure.abort?] at hcall
      | crash fault =>
        simp [callDeeds, Failure.abort?] at hcall
        simp [hcall, Abort.isForeseen]
      | interrupt =>
        simp [callDeeds, Failure.abort?] at hcall
        simp [hcall, Abort.isForeseen]

theorem unforeseen_handleDeeds {walk : Walk} {location : Location} {entry : Entry}
    {failures : Failures} {reason : Abort}
    (h : .abort reason ∈ handleDeeds walk location entry failures) : reason.isForeseen = false := by
  have hfailure (operation : OperationName) (error : Option SystemError) :
      .abort reason ∉ failureDeeds entry.path operation error := by
    cases error <;> simp [failureDeeds]
  unfold handleDeeds at h
  split at h
  · unfold roleDeeds at h
    simp only [List.mem_cons, List.mem_append, reduceCtorEq, hfailure, false_or, or_false] at h
    rcases h with h | h
    · exact unforeseen_operationDeeds h
    · exact unforeseen_operationDeeds h
  · simp at h
  · simp at h

theorem Stop.IsOrdinary.unforeseen {walk : Walk} {stop : Stop} (hstop : stop.IsOrdinary)
    {reason : Abort} (h : .abort reason ∈ stop.deeds walk) : reason.isForeseen = false := by
  cases hstop with
  | handle location entry failures => exact unforeseen_handleDeeds h
  | ended hreason =>
    simp only [Stop.deeds, List.mem_singleton, Deed.abort.injEq] at h
    rw [h, hreason]
  | _ => simp [Stop.deeds] at h

/-- Unless the work ends for an unforeseen reason, all calls among the deeds are made. -/
theorem calls_done {front last : List Deed} (hlast : calls last = [])
    (hfront : ∀ reason, .abort reason ∈ front → reason.isForeseen = false)
    (hend : ∀ reason, ending (front ++ last) = .error reason → reason.isForeseen = true) :
    calls (done (front ++ last)) = calls (front ++ last) := by
  have hending : ending front = .ok () := by
    unfold ending at hend ⊢
    cases hfound : front.findSome? abort? with
    | none => rfl
    | some reason =>
      obtain ⟨deed, hmem, hdeed⟩ := List.exists_of_findSome?_eq_some hfound
      have hforeseen := hend reason (by rw [List.findSome?_append, hfound]; rfl)
      cases deed with
      | abort reason' =>
        cases hdeed
        rw [hfront reason hmem] at hforeseen
        cases hforeseen
      | _ => cases hdeed
  have hnil : calls (done last) = [] := by
    have hsub := ((prefix_done last).sublist.filterMap call?)
    exact List.sublist_nil.1 (hlast ▸ hsub)
  rw [done_append, if_pos (congrArg List.length (done_eq_self hending)), calls_append, calls_append,
    hnil, hlast]

/-! ### The effect -/

/-- The entry that a call is made on and which operation it is. -/
def operationOf : Call → OperationName × Text
  | .chown path _ _ => (.chown, path)
  | .chmod path _ => (.chmod, path)

/-- A walk handles the entry at a place and gives it a role. -/
structure Assigned (walk : Walk) (tree : Node) (place : Location) (entry : Entry) (target : Node)
    (role : Role) : Prop where
  handled : (place, entry) ∈ handled walk tree
  met : Met tree (List.intercalate ['/'] place) place entry target
  decision : ∃ rule, walk.table.decide entry = .apply role rule

theorem assigned_of_mem_callsDue {walk : Walk} {tree : Node} (hnames : tree.DistinctNames)
    {place : Location} {entry : Entry} {call : Call} (hhandled : (place, entry) ∈ handled walk tree)
    (hcall : call ∈ callsDue walk (place, entry)) :
    (operationOf call).2 = Path.below walk.rootPath place ∧
      ∃ target role, Assigned walk tree place entry target role := by
  obtain ⟨failures, hstop⟩ := mem_handledAt.1 hhandled
  obtain ⟨target, hmet, -⟩ := met_of_mem_stops walk hnames hstop
  unfold callsDue at hcall
  dsimp only at hcall
  split at hcall
  · next role rule hdecide =>
    refine ⟨?_, target, role, hhandled, hmet, rule, hdecide⟩
    split at hcall
    · rcases List.mem_pair.1 hcall with rfl | rfl <;> rfl
    · cases hcall
  · cases hcall
  · cases hcall

theorem nodup_callsDue (walk : Walk) (handled : Location × Entry) :
    ((callsDue walk handled).map operationOf).Nodup := by
  unfold callsDue
  dsimp only
  split
  · split
    · simp [operationOf]
    · exact List.nodup_nil
  · exact List.nodup_nil
  · exact List.nodup_nil

/-- The calls that are due for the entries of a walk are on different paths. -/
theorem nodup_calls_due (walk : Walk) {tree : Node} (hnames : tree.WellNamed) :
    (((handled walk tree).flatMap (callsDue walk)).map operationOf).Nodup := by
  rw [List.map_flatMap, List.nodup_flatMap]
  refine ⟨fun entry _ => nodup_callsDue walk entry, ?_⟩
  have hplaces := List.pairwise_map.1 (nodup_handled walk hnames.distinct)
  refine hplaces.imp_of_mem fun {first second} hfirst hsecond hne => ?_
  obtain ⟨place, entry⟩ := first
  obtain ⟨place', entry'⟩ := second
  intro operation hmem hmem'
  obtain ⟨call, hcall, rfl⟩ := List.mem_map.1 hmem
  obtain ⟨call', hcall', hsame⟩ := List.mem_map.1 hmem'
  obtain ⟨hpath, target, role, hassigned⟩ := assigned_of_mem_callsDue hnames.distinct hfirst hcall
  obtain ⟨hpath', target', role', hassigned'⟩ :=
    assigned_of_mem_callsDue hnames.distinct hsecond hcall'
  rw [hsame, hpath] at hpath'
  exact hne (Path.below_inj (hnames.names place target hassigned.met.found)
    (hnames.names place' target' hassigned'.met.found) hpath')

theorem traverse_calls (walk : Walk) {tree : Node} (hnames : tree.DistinctNames) :
    (walk.traverse tree).2.calls = calls (done (deeds walk tree)) := by
  rw [traverse_eq_carryOut walk hnames, carryOut_calls]
  exact List.nil_append _

/-- Unless a walk ends for an unforeseen reason, it makes all calls among its deeds. -/
theorem calls_done_deeds {walk : Walk} {tree : Node} (hdry : walk.manner.dryRun = false)
    (hmode : ∀ entry role rule, walk.table.decide entry = .apply role rule →
      ∃ mode, role.modeFor entry.isDirectory = some mode)
    (hend : ∀ reason, ending (deeds walk tree) = .error reason → reason.isForeseen = true) :
    calls (done (deeds walk tree)) = calls (deeds walk tree) := by
  -- a foreseen reason ends a walk at its last stop only, where no call is due
  obtain ⟨front, last, hsplit, hfront, hlast⟩ := stops_split walk tree
  have hdeeds : deeds walk tree =
      front.flatMap (Stop.deeds walk) ++ last.flatMap (Stop.deeds walk) := by
    rw [deeds, hsplit, List.flatMap_append]
  have hnone : calls (last.flatMap (Stop.deeds walk)) = [] := by
    rw [calls_stops hdry hmode, List.flatMap_eq_nil_iff]
    rintro ⟨place, entry⟩ hmem
    obtain ⟨failures, hmem⟩ := mem_handledAt.1 hmem
    rcases hlast _ hmem with heq | ⟨reason, heq⟩ <;> cases heq
  rw [hdeeds]
  refine calls_done hnone (fun reason hmem => ?_) (hdeeds ▸ hend)
  obtain ⟨stop, hstop, hmem⟩ := List.mem_flatMap.1 hmem
  exact (hfront stop hstop).unforeseen hmem

/-- An entry that a walk gives no role keeps its mode. -/
theorem mode_of_not_assigned (walk : Walk) {tree : Node} (hnames : tree.DistinctNames)
    {place : Location} (hplace :
      ∀ entry target role, ¬ Assigned walk tree place entry target role) :
    ((walk.traverse tree).2.tree.at? place).map (·.mode) = (tree.at? place).map (·.mode) := by
  rw [traverse_eq_carryOut walk hnames, carryOut_tree]
  refine at?_setModes_of_ne (fun change hchange heq => ?_) tree
  have hchange' : change ∈ changes (deeds walk tree) := mem_of_mem_changes_done hchange
  rw [deeds, changes_flatMap_deeds] at hchange'
  obtain ⟨stop, hstop, hmem⟩ := List.mem_flatMap.1 hchange'
  obtain ⟨entry, failures, role, rule, rfl, hdecide, -⟩ := handle_of_mem_changes hmem
  obtain ⟨target, hmet, -⟩ := met_of_mem_stops walk hnames hstop
  rw [heq] at hstop hmet
  exact hplace entry target role ⟨mem_handledAt.2 ⟨failures, hstop⟩, hmet, rule, hdecide⟩

/-- The effect of a walk with a loaded table that is no dry run. Its calls are those due for the
entries that it handles, in their order, and all of them unless something unforeseen ends it. Each
call is on the path of a regular file or a directory that gets a role and that only directories lead
to, and on no other entry; no operation is done twice on a path, and no other entry has its mode
changed. -/
theorem calls_are_those_due (walk : Walk) (registry : Registry) (source : Text) (lines : List Text)
    (tree : Node) (hload : RuleTable.load registry source lines = .ok walk.table)
    (hdry : walk.manner.dryRun = false) (hnames : tree.WellNamed) :
    (walk.traverse tree).2.calls <+: (handled walk tree).flatMap (callsDue walk) ∧
      ((∀ reason, (walk.traverse tree).1 = .error reason → reason.isForeseen = true) →
        (walk.traverse tree).2.calls = (handled walk tree).flatMap (callsDue walk)) ∧
      (∀ call ∈ (walk.traverse tree).2.calls, ∃ place entry target role,
        Assigned walk tree place entry target role ∧ call ∈ callsDue walk (place, entry) ∧
          ∀ place' target', tree.at? place' = some target' →
            (operationOf call).2 = Path.below walk.rootPath place' → place' = place) ∧
      ((walk.traverse tree).2.calls.map operationOf).Nodup ∧
      ∀ place, (∀ entry target role, ¬ Assigned walk tree place entry target role) →
        ((walk.traverse tree).2.tree.at? place).map (·.mode) =
          (tree.at? place).map (·.mode) := by
  have hmode (entry : Entry) (role : Role) (rule : Rule)
      (hdecide : walk.table.decide entry = .apply role rule) :
      ∃ mode, role.modeFor entry.isDirectory = some mode :=
    (RuleTable.givesModes_of_load hload).modeFor hdecide
  have hdue : calls (deeds walk tree) = (handled walk tree).flatMap (callsDue walk) :=
    calls_stops hdry hmode (stops walk tree)
  have hcalls := traverse_calls walk hnames.distinct
  have hcalled : (walk.traverse tree).2.calls <+: (handled walk tree).flatMap (callsDue walk) := by
    rw [hcalls, ← hdue]
    exact (prefix_done _).filterMap _
  refine ⟨hcalled, fun hend => ?_, fun call hcall => ?_, ?_, fun place hplace => ?_⟩
  · rw [traverse_eq_carryOut walk hnames.distinct] at hend
    rw [hcalls, ← hdue]
    exact calls_done_deeds hdry hmode hend
  · obtain ⟨⟨place, entry⟩, hhandled, hmem⟩ := List.mem_flatMap.1 (hcalled.subset hcall)
    obtain ⟨hpath, target, role, hassigned⟩ :=
      assigned_of_mem_callsDue hnames.distinct hhandled hmem
    refine ⟨place, entry, target, role, hassigned, hmem, fun place' target' hat hpath' => ?_⟩
    exact Path.below_inj (hnames.names place' target' hat)
      (hnames.names place target hassigned.met.found) (hpath'.symm.trans hpath)
  · exact (hcalled.sublist.map operationOf).nodup (nodup_calls_due walk hnames)
  · exact mode_of_not_assigned walk hnames.distinct hplace

theorem wellNamed_closedTree : closedTree.WellNamed := by
  have hleaf (name : Text) : WellNamed ⟨name, .regular, 0o644, .none, []⟩ :=
    wellNamed_of_children List.nodup_nil fun _ h => absurd h List.not_mem_nil
  refine wellNamed_of_children (by decide) fun child hchild => ?_
  rcases List.mem_pair.1 hchild with rfl | rfl
  · exact ⟨by decide, hleaf _⟩
  · refine ⟨by decide, wellNamed_of_children (by decide) fun child hchild => ?_⟩
    obtain rfl := List.mem_singleton.1 hchild
    exact ⟨by decide, hleaf _⟩

/-- A registry of one role, and a line that gives it to every directory. -/
theorem load_openingWalk : RuleTable.load ⟨[⟨"open", "u", 1, "g", 2, 0o755, none⟩]⟩ "rules"
    ["**/ open".toList] = .ok openingWalk.table := by
  with_unfolding_all rfl

theorem calls_are_those_due_closedTree :
    RuleTable.load ⟨[⟨"open", "u", 1, "g", 2, 0o755, none⟩]⟩ "rules" ["**/ open".toList] =
        .ok openingWalk.table ∧
      openingWalk.manner.dryRun = false ∧ closedTree.WellNamed ∧
      handled openingWalk closedTree =
        [([], ⟨"/", .directory⟩), (["a".toList], ⟨"a/", .directory⟩),
          (["a".toList, "c".toList], ⟨"a/c", .file⟩), (["b".toList], ⟨"b", .file⟩)] ∧
      (openingWalk.traverse closedTree).2.calls =
        (handled openingWalk closedTree).flatMap (callsDue openingWalk) ∧
      (openingWalk.traverse closedTree).2.calls =
        [.chown "/srv" 1 2, .chmod "/srv" 0o755, .chown "/srv/a" 1 2, .chmod "/srv/a" 0o755] := by
  obtain ⟨-, hall, -, -, -⟩ :=
    calls_are_those_due openingWalk _ "rules" _ closedTree load_openingWalk rfl wellNamed_closedTree
  have hok : (openingWalk.traverse closedTree).1 = .ok () := by cbv
  have hcalls := hall fun reason h => by
    rw [hok] at h
    cases h
  exact ⟨load_openingWalk, rfl, wellNamed_closedTree, by cbv, hcalls, by cbv⟩

end Walk

end PathRights
