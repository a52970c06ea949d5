import PathRights.Proofs.Pattern.Literal
import PathRights.Proofs.Tree.Tally

/-! Where the visits of a walk go. A walk that comes to its end has been at the root and at every
name that a listing returned, once each: the places of its visits are a rearrangement of the root
and the places inside those that were listed. `Visit.Within` says what else holds of every visit. -/

namespace PathRights

open Node Walk

/-- The places that the listing of a visit leads to. -/
def Visit.inside (v : Visit) : List Location := v.names.map (v.location ++ [·])

theorem Visit.frame?_cases (v : Visit) :
    v.frame? = some ⟨v.location, v.path ++ "/", v.names⟩ ∨ v.frame? = none ∧ v.names = [] := by
  unfold frame? names
  rcases v.listed? with _ | _ | names
  · exact Or.inr ⟨rfl, rfl⟩
  · exact Or.inr ⟨rfl, rfl⟩
  · exact Or.inl rfl

namespace Walk

variable {walk : Walk}

/-- The places that a stack still leads to. -/
def ahead (stack : List Frame) : List Location :=
  stack.flatMap fun frame => frame.pending.map (frame.location ++ [·])

theorem ahead_frame? (v : Visit) (stack : List Frame) :
    ahead (v.frame?.toList ++ stack) = v.inside ++ ahead stack := by
  unfold ahead Visit.inside
  rw [List.flatMap_append]
  rcases v.frame?_cases with hframe | ⟨hframe, hnames⟩
  · rw [hframe]
    exact congrArg (· ++ _) (List.append_nil _)
  · rw [hframe, hnames]
    rfl

/-- The visits from a stack on go to the places ahead of it and to those inside what they list. -/
theorem Descends.locations {stack : List Frame} {visits : List Visit} {s s' : Session}
    (h : Descends walk stack visits s s') :
    (visits.map (·.location)).Perm (ahead stack ++ visits.flatMap (·.inside)) := by
  induction h with
  | done => exact .nil
  | leave _ ih => exact ih
  | @visit v location path name names stack visits _ _ _ place _ _ _ ih =>
    rw [ahead_frame?, List.append_assoc] at ih
    rw [List.map_cons, List.flatMap_cons, place]
    calc (location ++ [name]) :: visits.map (·.location)
      _ |>.Perm ((location ++ [name]) ::
          (v.inside ++ (ahead (⟨location, path, names⟩ :: stack) ++ visits.flatMap (·.inside)))) :=
        ih.cons _
      _ |>.Perm ((location ++ [name]) ::
          (ahead (⟨location, path, names⟩ :: stack) ++ (v.inside ++ visits.flatMap (·.inside)))) :=
        (List.perm_append_comm_assoc ..).cons _

/-- A walk that comes to its end has been at the root, and at every name that a listing returned. -/
theorem Returns.locations {tree : Node} {names : List Text} {below : List Visit} {s t : Session}
    (h : Returns walk tree names below s t) :
    ((walk.visits tree).map (·.location)).Perm ([] :: (walk.visits tree).flatMap (·.inside)) := by
  have hinside : (rootVisit tree s.tree).inside = ahead [⟨[], [], names⟩] := by
    have hnames : (rootVisit tree s.tree).names = names := by
      simp [Visit.names, Visit.listed?, rootVisit, h.found, h.listed]
    unfold Visit.inside ahead
    rw [hnames]
    simp [rootVisit]
  rw [h.visits, List.flatMap_cons, hinside]
  exact h.below.locations.cons _

end Walk

/-! ### No place twice -/

theorem Visit.count_inside_le {visits : List Visit} (hnames : ∀ v ∈ visits, v.names.Nodup)
    (location : Location) (name : Text) :
    (visits.flatMap (·.inside)).count (location ++ [name]) ≤
      (visits.map (·.location)).count location := by
  induction visits with
  | nil => exact Nat.le_refl 0
  | cons v visits ih =>
    obtain ⟨hv, hvisits⟩ := List.forall_mem_cons.1 hnames
    have hrest := ih hvisits
    rw [List.flatMap_cons, List.count_append, List.map_cons, List.count_cons]
    have hinside : v.inside.count (location ++ [name]) ≤
        if v.location == location then 1 else 0 := by
      unfold inside
      split
      · next heq =>
        obtain rfl := eq_of_beq heq
        have hdistinct : (v.names.map (v.location ++ [·])).Nodup :=
          hv.map fun _ _ h => by simpa using h
        exact List.nodup_iff_count_le_one.1 hdistinct _
      · next hne =>
        refine (List.count_eq_zero.2 fun hmem => ?_).le
        obtain ⟨other, -, heq⟩ := List.mem_map.1 hmem
        exact hne (beq_of_eq (List.append_inj_left' heq rfl))
    omega

/-- Visits whose places are the root and the places inside them are at different places. -/
theorem Visit.nodup_locations {visits : List Visit} (hnames : ∀ v ∈ visits, v.names.Nodup)
    (hlocations : (visits.map (·.location)).Perm ([] :: visits.flatMap (·.inside))) :
    (visits.map (·.location)).Nodup := by
  rw [List.nodup_iff_count_le_one]
  intro location
  -- a place is visited as often as it is listed, and it is listed where the place above is visited
  induction location using List.reverseRecOn with
  | nil =>
    have hroot : [] ∉ visits.flatMap (·.inside) := by
      simp [inside]
    rw [hlocations.count_eq, List.count_cons_self, List.count_eq_zero.2 hroot]
  | append_singleton location name ih =>
    rw [hlocations.count_eq, List.count_cons_of_ne (by simp)]
    exact (count_inside_le hnames location name).trans ih

/-! ### The places of a tree -/

namespace Walk

/-- The path of a frame leads to the directory that it is for. -/
def Frame.Leads (frame : Frame) : Prop :=
  ∀ name, List.intercalate ['/'] (frame.location ++ [name]) = frame.path ++ name

end Walk

/-- A visit is to an entry of a tree, by its path there, and lists names that are all different. -/
structure Visit.Within (tree : Node) (v : Visit) : Prop where
  found : ∃ node, tree.at? v.location = some node
  path : v.path = List.intercalate ['/'] v.location
  names : v.names.Nodup

namespace Walk

variable {walk : Walk}

theorem nodup_names {tree : Node} (hnames : tree.DistinctNames) {v : Visit}
    (hsame : SameNames v.after tree) : v.names.Nodup := by
  rcases v.frame?_cases with hframe | ⟨-, hnil⟩
  · obtain ⟨names, hlist, heq⟩ := Visit.frame?_eq_some hframe
    obtain ⟨node, hnode, rfl⟩ := names_of_list hsame hlist
    rw [(Frame.mk.inj heq).2.2]
    exact (List.mergeSort_perm _ _).nodup_iff.2 (hnames _ node hnode)
  · rw [hnil]
    exact List.nodup_nil

/-- What a visit gives to the stack leads to entries of the tree. -/
theorem leads_of_frame? {tree : Node} (hnames : tree.DistinctNames) {v : Visit}
    (hsame : SameNames v.after tree) (hv : v.Within tree) (hne : v.location ≠ []) {frame : Frame}
    (h : v.frame? = some frame) : frame.Fits tree ∧ frame.Leads := by
  obtain ⟨node, hnode⟩ := hv.found
  refine ⟨(opened_of_frame? hnames hsame hnode h).fits, ?_⟩
  obtain ⟨names, -, rfl⟩ := Visit.frame?_eq_some h
  intro name
  rw [hv.path]
  exact Pattern.intercalate_concat hne name

theorem Descends.within {tree : Node} (hnames : tree.DistinctNames) {stack : List Frame}
    {visits : List Visit} {s s' : Session} (h : Descends walk stack visits s s')
    (hsame : SameNames s.tree tree) (hstack : ∀ frame ∈ stack, frame.Fits tree ∧ frame.Leads) :
    ∀ v ∈ visits, v.Within tree := by
  induction h with
  | done => exact fun _ h => absurd h List.not_mem_nil
  | leave _ ih => exact ih hsame (List.forall_mem_cons.1 hstack).2
  | @visit v location path name names stack visits s t s' place relative made _ ih =>
    obtain ⟨⟨hfits, hleads⟩, hstack⟩ := List.forall_mem_cons.1 hstack
    have hafter : SameNames t.tree tree := made.sameNames hsame
    obtain ⟨hname, hnames'⟩ := List.forall_mem_cons.1 hfits
    have hv : v.Within tree := by
      refine ⟨?_, ?_, nodup_names hnames (made.after ▸ hafter)⟩
      · obtain ⟨node, hnode, -⟩ := hname
        exact ⟨node, place ▸ hnode⟩
      · rw [relative, place]
        exact (hleads name).symm
    refine List.forall_mem_cons.2 ⟨hv, ih hafter fun frame hframe => ?_⟩
    rcases List.mem_append.1 hframe with hframe | hframe
    · exact leads_of_frame? hnames (made.after ▸ hafter) hv (by simp [place])
        (Option.mem_toList.1 hframe)
    · rcases List.mem_cons.1 hframe with rfl | hframe
      · exact ⟨hnames', hleads⟩
      · exact hstack frame hframe

theorem Returns.within {tree : Node} (hnames : tree.DistinctNames) {names : List Text}
    {below : List Visit} {s t : Session} (h : Returns walk tree names below s t) :
    ∀ v ∈ walk.visits tree, v.Within tree := by
  have hsame : SameNames s.tree tree := h.root.sameNames (.refl tree)
  obtain ⟨node, hnode, rfl⟩ := names_of_list hsame h.listed
  rw [h.visits]
  refine List.forall_mem_cons.2 ⟨⟨⟨tree, rfl⟩, rfl, nodup_names hnames hsame⟩, ?_⟩
  refine h.below.within hnames hsame (List.forall_mem_singleton.2 ⟨fits_list hnames hnode [], ?_⟩)
  exact fun name => List.intercalate_singleton

end Walk

end PathRights
