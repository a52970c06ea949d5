import PathRights.Proofs.Run.ExitCode
import PathRights.Proofs.Tree.Accounting

/-! How a walk gets into a tree and into the directories of it. Where calls fail with errors of the
system only, nothing but the root can end the walk: before its own decision, when the root cannot be
found or looked at or is no directory, or behind it, when the root cannot be listed even then;
`EndsAtRoot` has these ways. `Opens` says when a decision makes a directory readable, and a
directory that is visited is then listed. -/

namespace PathRights

open Deed Node Walk Work

theorem Answered.eq_system {α : Type} {answer : Except Failure α} (h : Answered answer)
    {failure : Failure} (hfailure : answer = .error failure) :
    ∃ error, failure = .system error := by
  have hnone := h failure hfailure
  cases failure with
  | system error => exact ⟨error, rfl⟩
  | crash fault => cases hnone
  | interrupt => cases hnone

namespace Walk

variable {walk : Walk} {tree : Node}

/-! ### The root -/

/-- The session of a walk once its root was handled. -/
def rootHandled (walk : Walk) (tree : Node) : Session :=
  (outcome (handle walk [] ⟨"/", .directory⟩) (.start tree)).2

/-- A root that cannot be looked at ends the walk before anything is done. -/
theorem traverse_of_statRoot_error {error : SystemError}
    (hstat : tree.statRoot = .error (.system error)) :
    walk.traverse tree = (.error (.rootFailed walk.root error), .start tree) := by
  have hask : outcome (ask Node.statRoot) (.start tree) = (.ok (.error error), .start tree) := by
    rw [outcome_ask]
    exact congrArg (fun answered => outcome (answer answered) (.start tree)) hstat
  show outcome walk.run (Session.start tree) = _
  unfold run checkRoot
  rw [bind_assoc, outcome_bind, hask]
  rfl

/-- A root that is no directory ends the walk before anything is done. -/
theorem traverse_of_not_directory {type : FileType} (hstat : tree.statRoot = .ok type)
    (htype : type ≠ .directory) :
    walk.traverse tree = (.error (.rootNotDirectory walk.root), .start tree) := by
  show outcome walk.run (Session.start tree) = _
  unfold run checkRoot
  rw [bind_assoc, outcome_ask_bind_ok hstat]
  dsimp only
  rw [if_neg htype]
  rfl

theorem outcome_handle_root (hforeseen : tree.Foreseen) :
    outcome (handle walk [] ⟨"/", .directory⟩) (.start tree) = (.ok (), rootHandled walk tree) ∧
      (rootHandled walk tree).tree.Foreseen := by
  obtain ⟨_, s, hhandle, hs⟩ := completes_handle walk [] ⟨"/", .directory⟩ (.start tree) hforeseen
  have hsession : rootHandled walk tree = s := congrArg Prod.snd hhandle
  rw [hsession]
  exact ⟨hhandle, hs⟩

/-- A walk that finds its root to be a directory handles it, lists it, and visits what is in it. -/
theorem traverse_of_directory (hforeseen : tree.Foreseen) (hstat : tree.statRoot = .ok .directory) :
    walk.traverse tree = outcome (do
      let names ← listRoot walk
      descend walk (2 * (← get).tree.size + 1) [⟨[], [], names⟩]
      complete walk) (rootHandled walk tree) := by
  show outcome walk.run (Session.start tree) = _
  unfold run checkRoot
  rw [bind_assoc, outcome_ask_bind_ok hstat]
  dsimp only
  rw [if_pos rfl, pure_bind, outcome_bind, (outcome_handle_root hforeseen).1]
  rfl

/-- A root that cannot be listed once it was handled ends the walk there. -/
theorem traverse_of_list_error {error : SystemError} (hforeseen : tree.Foreseen)
    (hstat : tree.statRoot = .ok .directory)
    (hlist : (rootHandled walk tree).tree.list [] = .error (.system error)) :
    walk.traverse tree = (.error (.rootFailed walk.root error), rootHandled walk tree) := by
  have hask : outcome (ask (·.list [])) (rootHandled walk tree) =
      (.ok (.error error), rootHandled walk tree) := by
    rw [outcome_ask, hlist]
    rfl
  rw [traverse_of_directory hforeseen hstat]
  unfold listRoot
  rw [bind_assoc, outcome_bind, hask]
  rfl

/-- A root that can be listed once it was handled lets the walk come to its end. -/
theorem traverse_of_list_ok {names : List Text} (hforeseen : tree.Foreseen)
    (hstat : tree.statRoot = .ok .directory)
    (hlist : (rootHandled walk tree).tree.list [] = .ok names) :
    (walk.traverse tree).1 = .ok () := by
  obtain ⟨_, s', hdescent, -⟩ :=
    completes_descent walk names (rootHandled walk tree) (outcome_handle_root hforeseen).2
  rw [traverse_of_directory hforeseen hstat]
  unfold listRoot
  rw [bind_assoc, outcome_ask_bind_ok hlist]
  exact congrArg Prod.fst hdescent

theorem done_root (hforeseen : tree.Foreseen) :
    carryOut walk.manner (handleDeeds walk [] ⟨"/", .directory⟩ tree.failures) (.start tree) =
      (.ok (), rootHandled walk tree) :=
  carryOut_of_does (does_handle walk ⟨"/", .directory⟩ rfl) (outcome_handle_root hforeseen).1

/-- The calls by then are those that the decision on the root asks for. -/
theorem calls_rootHandled (hforeseen : tree.Foreseen) (hstat : tree.statRoot = .ok .directory) :
    (rootHandled walk tree).calls = (rootVisit tree (rootHandled walk tree).tree).calls walk := by
  have hentry : (rootVisit tree (rootHandled walk tree).tree).handled? =
      some ⟨"/", .directory⟩ := by
    unfold Visit.handled? rootVisit
    rw [hstat]
    rfl
  exact (Visit.yields_handleDeeds hentry rfl _ _ (done_root hforeseen)).2.1

/-! ### Directories that a decision opens -/

/-- The decision on an entry makes it readable: it gets a role that lets its owner read, the change
of its mode does not fail, and neither is the listing set up to fail. -/
structure Opens (walk : Walk) (entry : Entry) (node : Node) : Prop where
  real : walk.manner.dryRun = false
  reads : ∃ role rule, walk.table.decide entry = .apply role rule ∧
    ownerReads (modeOf role entry) = true
  chmod : node.failures.chmod = none
  list : node.failures.list = none

/-- An entry that its decision opens can be listed once it was handled. -/
theorem Opens.list_of_handled {entry : Entry} {node : Node} (h : walk.Opens entry node)
    {s s' : Session} {location : Location} (hresolve : s.tree.resolve location = .ok node)
    (hdone :
      carryOut walk.manner (handleDeeds walk location entry node.failures) s = (.ok (), s')) :
    s'.tree.list location = .ok (node.childNames.mergeSort Text.isAtMost) := by
  obtain ⟨role, rule, hdecide, hreads⟩ := h.reads
  have hmode : settledMode walk entry node = modeOf role entry := by
    unfold settledMode
    rw [hdecide]
    exact if_neg (by simp [h.real, h.chmod])
  rw [list_eq_listing (resolve_handled walk hresolve hdone), hmode]
  unfold listing
  rw [h.list]
  dsimp only
  rw [if_pos hreads]
  rfl

/-! ### Directories below the root -/

/-- What the decision on an entry cannot change: how calls on it fail, and the names in it. -/
def lasting (node : Node) : Failures × List Text := (node.failures, node.childNames)

/-- The entries of two trees have the same in all that lasts. -/
def Lasts (now tree : Node) : Prop :=
  ∀ location, (now.at? location).map lasting = (tree.at? location).map lasting

theorem Lasts.setModes {now : Node} (h : Lasts now tree) (changes : List (Location × Int)) :
    Lasts (now.setModes changes) tree := by
  induction changes generalizing now with
  | nil => exact h
  | cons change changes ih =>
    refine ih fun location => ?_
    have hview : ∀ (node : Node) (mode : Int) (place : Location),
        (node.setMode mode place).failures = node.failures := by
      intro node mode place
      cases place <;> rfl
    have hlasting : ∀ (node : Node) (mode : Int) (place : Location),
        lasting (node.setMode mode place) = lasting node := fun node mode place =>
      Prod.ext (hview node mode place) (childNames_setMode mode place node)
    rw [at?_setMode_map change.2 change.1 location now fun node _ _ => hlasting node _ _,
      ← h location]
    split
    · simp only [hlasting]
    · rfl

theorem Lasts.at? {now node : Node} (h : Lasts now tree) {location : Location}
    (hnode : now.at? location = some node) :
    ∃ before, tree.at? location = some before ∧ before.failures = node.failures ∧
      before.childNames = node.childNames := by
  have hlasting := h location
  rw [hnode] at hlasting
  obtain ⟨before, hbefore, heq⟩ := Option.map_eq_some_iff.1 hlasting.symm
  exact ⟨before, hbefore, congrArg Prod.fst heq, congrArg Prod.snd heq⟩

theorem Lasts.of_made {v : Visit} {s s' : Session} (h : Lasts s.tree tree)
    (hmade : v.Made walk s s') :
    Lasts s'.tree tree := by
  rw [tree_of_carryOut hmade.done]
  exact h.setModes _

/-- Each visit of a descent was made in a tree in which all that lasts is as it was. -/
theorem Descends.made {stack : List Frame} {visits : List Visit} {s s' : Session}
    (h : Descends walk stack visits s s') (hlasts : Lasts s.tree tree) :
    ∀ v ∈ visits, ∃ t t', v.Made walk t t' ∧ Lasts t.tree tree := by
  induction h with
  | done => simp
  | leave _ ih => exact ih hlasts
  | @visit v _ _ _ _ _ _ s t _ _ _ made _ ih =>
    intro w hw
    rcases List.mem_cons.1 hw with rfl | hw
    · exact ⟨s, t, made, hlasts⟩
    · exact ih (hlasts.of_made made) w hw

end Walk

namespace Visit

variable {walk : Walk} {tree : Node}

/-- What is done after a directory was handled changes no mode. -/
theorem Made.handled {v : Visit} {s s' : Session} (h : v.Made walk s s')
    (hfound : v.found = .ok .directory) :
    ∃ t,
      carryOut walk.manner (handleDeeds walk v.location ⟨v.path ++ "/", .directory⟩ v.failures) s =
        (.ok (), t) ∧ s'.tree = t.tree := by
  have hdone := h.done
  unfold Visit.deeds at hdone
  rw [Visit.stops_directory hfound, List.flatMap_cons, carryOut_append] at hdone
  rcases hhandled : carryOut walk.manner
    (Stop.deeds walk (.handle v.location ⟨v.path ++ "/", .directory⟩ v.failures)) s with ⟨result, t⟩
  rw [hhandled] at hdone
  cases result with
  | error reason => cases hdone
  | ok _ =>
    refine ⟨t, hhandled, (tree_of_carryOut hdone).trans ?_⟩
    cases v.after.list v.location with
    | ok names => rfl
    | error failure => cases failure <;> rfl

/-- A directory is listed when it is visited and its decision opens it. -/
theorem Made.listed {v : Visit} {s s' : Session} {node : Node} (h : v.Made walk s s')
    (hlasts : Lasts s.tree tree) (hfound : v.found = .ok .directory)
    (hnode : tree.at? v.location = some node)
    (hopens : walk.Opens ⟨v.path ++ "/", .directory⟩ node) :
    v.listed? = some (.ok (node.childNames.mergeSort Text.isAtMost)) := by
  obtain ⟨now, hresolve⟩ := h.reached _ hfound
  obtain ⟨before, hbefore, hfailures, hchildren⟩ := hlasts.at? (h.before ▸ at?_of_resolve hresolve)
  obtain rfl : node = before := Option.some.inj (hnode.symm.trans hbefore)
  obtain ⟨t, hhandled, htree⟩ := h.handled hfound
  rw [failures_of_resolve hresolve] at hhandled
  have hopens' : walk.Opens ⟨v.path ++ "/", .directory⟩ now :=
    ⟨hopens.real, hopens.reads, hfailures ▸ hopens.chmod, hfailures ▸ hopens.list⟩
  have hlist := hopens'.list_of_handled (h.before ▸ hresolve) hhandled
  unfold Visit.listed?
  rw [hfound]
  dsimp only
  rw [← h.after, htree, hlist, hchildren]

end Visit

namespace Walk

variable {walk : Walk} {tree : Node}

/-- The visits of a walk that comes to its end were made in trees in which all that lasts is as it
was. -/
theorem Returns.made {names : List Text} {below : List Visit} {s t : Session}
    (h : Returns walk tree names below s t) :
    ∀ v ∈ walk.visits tree, ∃ t t', v.Made walk t t' ∧ Lasts t.tree tree := by
  have hstart : Lasts (Session.start tree).tree tree := fun _ => rfl
  rw [h.visits]
  refine List.forall_mem_cons.2 ⟨⟨_, s, h.root, hstart⟩, ?_⟩
  exact h.below.made (hstart.of_made h.root)

/-- What a visit lists is visited. -/
theorem Returns.exists_visit_inside {names : List Text} {below : List Visit} {s t : Session}
    (h : Returns walk tree names below s t) {v : Visit} (hv : v ∈ walk.visits tree) {name : Text}
    (hname : name ∈ v.names) : ∃ w ∈ walk.visits tree, w.location = v.location ++ [name] := by
  refine List.mem_map.1 (h.locations.mem_iff.2 (List.mem_cons_of_mem _ ?_))
  exact List.mem_flatMap.2 ⟨v, hv, List.mem_map_of_mem hname⟩

theorem visits_of_list_error {failure : Failure}
    (hlist : (rootHandled walk tree).tree.list [] = .error failure) :
    walk.visits tree = [rootVisit tree (rootHandled walk tree).tree] := by
  have hsession : (outcome (handle walk [] ⟨"/", .directory⟩) (.start tree)).2 =
      rootHandled walk tree :=
    rfl
  unfold visits
  dsimp only
  rw [hsession, hlist]
  rfl

/-- A walk that has its decision open a directory comes to its end. -/
theorem ok_of_opens (hforeseen : tree.Foreseen) (hstat : tree.statRoot = .ok .directory) {v : Visit}
    (hv : v ∈ walk.visits tree) {node : Node} (hnode : tree.at? v.location = some node)
    (hopens : walk.Opens ⟨v.path ++ "/", .directory⟩ node) : (walk.traverse tree).1 = .ok () := by
  cases hlist : (rootHandled walk tree).tree.list [] with
  | ok names => exact traverse_of_list_ok hforeseen hstat hlist
  | error failure =>
    -- nothing but the root is visited then, and its own decision opens it
    rw [visits_of_list_error hlist] at hv
    obtain rfl := List.mem_singleton.1 hv
    obtain rfl : tree = node := Option.some.inj hnode
    cases hlist.symm.trans (hopens.list_of_handled rfl (done_root hforeseen))

/-- A directory is listed, and the walk goes on to what is in it, when its decision opens it. -/
theorem listed_of_opens (hforeseen : tree.Foreseen) (hnames : tree.DistinctNames)
    (hstat : tree.statRoot = .ok .directory) {v : Visit} (hv : v ∈ walk.visits tree)
    (hfound : v.found = .ok .directory) {node : Node} (hnode : tree.at? v.location = some node)
    (hopens : walk.Opens ⟨v.path ++ "/", .directory⟩ node) :
    v.listed? = some (.ok (node.childNames.mergeSort Text.isAtMost)) ∧
      ∀ name ∈ node.childNames, ∃ w ∈ walk.visits tree, w.location = v.location ++ [name] := by
  obtain ⟨names, below, s, t, h⟩ :=
    returns_of_ok hnames (ok_of_opens hforeseen hstat hv hnode hopens)
  obtain ⟨t₁, t₂, hmade, hlasts⟩ := h.made v hv
  have hlisted := hmade.listed hlasts hfound hnode hopens
  refine ⟨hlisted, fun name hname => h.exists_visit_inside hv ?_⟩
  unfold Visit.names
  rw [hlisted]
  exact List.mem_mergeSort.2 hname

/-! ### The end at the root -/

/-- How a walk ends at its root, as this is found at a site: for which reason, and after which
calls. -/
inductive EndsAtRoot (walk : Walk) : Except Failure Node → Abort → List Call → Prop where
  | unreachable (failure : Failure) :
    EndsAtRoot walk (.error failure) (.ofRoot walk.root failure) []
  | unseen {tree : Node} {error : SystemError} (stat : tree.statRoot = .error (.system error)) :
    EndsAtRoot walk (.ok tree) (.rootFailed walk.root error) []
  | notDirectory {tree : Node} {type : FileType} (stat : tree.statRoot = .ok type)
    (other : type ≠ .directory) : EndsAtRoot walk (.ok tree) (.rootNotDirectory walk.root) []
  | unlisted {tree : Node} {error : SystemError} (stat : tree.statRoot = .ok .directory)
    (list : (rootHandled walk tree).tree.list [] = .error (.system error)) :
    EndsAtRoot walk (.ok tree) (.rootFailed walk.root error)
      ((rootVisit tree (rootHandled walk tree).tree).calls walk)

theorem EndsAtRoot.walkOver {site : Option Run.Site} (hsite : Run.Foreseen site) {reason : Abort}
    {calls : List Call} (h : walk.EndsAtRoot (Run.Site.entry? site walk.rootPath) reason calls) :
    (Run.walkOver walk site).outcome = .error reason ∧
      (Run.walkOver walk site).calls = calls := by
  unfold Run.walkOver
  generalize hentry : Run.Site.entry? site walk.rootPath = entry at h
  cases h with
  | unreachable failure => exact ⟨rfl, rfl⟩
  | @unseen tree error stat =>
    have htraverse := @traverse_of_statRoot_error walk tree error stat
    exact ⟨congrArg Prod.fst htraverse, congrArg (·.2.calls) htraverse⟩
  | @notDirectory tree type stat other =>
    have htraverse := @traverse_of_not_directory walk tree type stat other
    exact ⟨congrArg Prod.fst htraverse, congrArg (·.2.calls) htraverse⟩
  | @unlisted tree error stat list =>
    have hforeseen := Run.foreseen_entry hsite hentry
    have htraverse := traverse_of_list_error hforeseen stat list
    rw [← calls_rootHandled hforeseen stat]
    exact ⟨congrArg Prod.fst htraverse, congrArg (·.2.calls) htraverse⟩

theorem endsAtRoot_or_ok (walk : Walk) (hforeseen : tree.Foreseen) :
    (∃ reason calls, walk.EndsAtRoot (.ok tree) reason calls) ∨
    (walk.traverse tree).1 = .ok () := by
  cases hstat : tree.statRoot with
  | error failure =>
    have hanswered : Answered tree.statRoot :=
      (hforeseen.reach [] fun _ => by simp [Failures.all]).map _
    obtain ⟨error, rfl⟩ := hanswered.eq_system hstat
    exact Or.inl ⟨_, _, .unseen hstat⟩
  | ok type =>
    by_cases hdirectory : type = .directory
    · subst hdirectory
      cases hlist : (rootHandled walk tree).tree.list [] with
      | error failure =>
        obtain ⟨error, rfl⟩ := ((outcome_handle_root hforeseen).2.list []).eq_system hlist
        exact Or.inl ⟨_, _, .unlisted hstat hlist⟩
      | ok names => exact Or.inr (traverse_of_list_ok hforeseen hstat hlist)
    · exact Or.inl ⟨_, _, .notDirectory hstat hdirectory⟩

/-- A walk ends before its time exactly as it does at its root. -/
theorem walkOver_eq_error_iff (walk : Walk) {site : Option Run.Site} (hsite : Run.Foreseen site)
    (reason : Abort) (calls : List Call) :
    (Run.walkOver walk site).outcome = .error reason ∧
        (Run.walkOver walk site).calls = calls ↔
      walk.EndsAtRoot (Run.Site.entry? site walk.rootPath) reason calls := by
  refine ⟨fun ⟨houtcome, hcalls⟩ => ?_, fun h => h.walkOver hsite⟩
  have hends : ∃ reason calls,
      walk.EndsAtRoot (Run.Site.entry? site walk.rootPath) reason calls := by
    cases hentry : Run.Site.entry? site walk.rootPath with
    | error failure => exact ⟨_, _, .unreachable failure⟩
    | ok tree =>
      refine (endsAtRoot_or_ok walk (Run.foreseen_entry hsite hentry)).resolve_right fun hok => ?_
      unfold Run.walkOver at houtcome
      rw [hentry] at houtcome
      cases houtcome.symm.trans hok
  obtain ⟨reason', calls', h⟩ := hends
  obtain ⟨houtcome', hcalls'⟩ := h.walkOver hsite
  obtain rfl : reason' = reason := Except.error.inj (houtcome'.symm.trans houtcome)
  obtain rfl : calls' = calls := hcalls'.symm.trans hcalls
  exact h

/-- The status of a run whose walk ends at its root goes by the number of the error, unless the root
is not even looked for. -/
theorem EndsAtRoot.status {site : Option Run.Site} (hsite : Run.Foreseen site) {reason : Abort}
    {calls : List Call} (h : walk.EndsAtRoot (Run.Site.entry? site walk.rootPath) reason calls) :
    '\x00' ∈ walk.rootPath ∧ reason = .crash .nullCharacter ∨
      reason = .rootNotDirectory walk.root ∧ reason.status = .invalidInput ∨
      ∃ error, reason = .rootFailed walk.root error ∧
        reason.status =
          if error.number? = some 2 then .notFound
          else if error.number? = some 13 ∨ error.number? = some 1 then .permissionDenied
          else .invalidInput := by
  have hfailed (error : SystemError) : (Abort.rootFailed walk.root error).status =
      if error.number? = some 2 then .notFound
      else if error.number? = some 13 ∨ error.number? = some 1 then .permissionDenied
      else .invalidInput := by
    cases error <;> rfl
  by_cases hnull : '\x00' ∈ walk.rootPath
  · rw [Run.entry?_of_null hnull] at h
    cases h
    exact Or.inl ⟨hnull, rfl⟩
  · refine Or.inr ?_
    rcases Run.entry?_cases hnull hsite with ⟨error, hentry⟩ | ⟨tree, hentry, -⟩
    · rw [hentry] at h
      cases h
      exact Or.inr ⟨_, rfl, hfailed _⟩
    · rw [hentry] at h
      cases h with
      | notDirectory => exact Or.inl ⟨rfl, rfl⟩
      | unseen => exact Or.inr ⟨_, rfl, hfailed _⟩
      | unlisted => exact Or.inr ⟨_, rfl, hfailed _⟩

/-- Only calls on the root are made by then. -/
theorem EndsAtRoot.path_of_mem {entry : Except Failure Node} {reason : Abort} {calls : List Call}
    (h : walk.EndsAtRoot entry reason calls) {made : Call} (hmade : made ∈ calls) :
    (operationOf made).2 = walk.rootPath := by
  cases h with
  | unlisted =>
    unfold Visit.calls at hmade
    split at hmade
    · cases hmade
    · exact Visit.path_of_mem_due hmade
  | unreachable | unseen | notDirectory => cases hmade

/-- Only the root is fatal. Where calls fail with errors of the system only, a walk ends before its
time exactly when its root cannot be reached or looked at, is no directory, or cannot be listed once
the decision on it was carried out. Then only the last way there were calls, those for the root, and
the status goes by the number of the error; errors without a number stand for all whose number makes
no difference to a walk. No tree stands at a path with a null character, and no call is made for
one. In earnest a directory that its decision opens is listed, the root like any other that the walk
comes to, and everything in it is visited. -/
theorem root_alone_is_fatal (walk : Walk) (site : Option Run.Site) (hforeseen : Run.Foreseen site) :
    let walked := Run.walkOver walk site
    let entry := Run.Site.entry? site walk.rootPath
    (∀ reason calls, walked.outcome = .error reason ∧ walked.calls = calls ↔
      walk.EndsAtRoot entry reason calls) ∧
    (∀ reason, walked.outcome = .error reason →
      (∀ made ∈ walked.calls, (operationOf made).2 = walk.rootPath) ∧
        ('\x00' ∈ walk.rootPath ∧ reason = .crash .nullCharacter ∨
          reason = .rootNotDirectory walk.root ∧ reason.status = .invalidInput ∨
          ∃ error, reason = .rootFailed walk.root error ∧
            reason.status =
              if error.number? = some 2 then .notFound
              else if error.number? = some 13 ∨ error.number? = some 1 then .permissionDenied
              else .invalidInput)) ∧
    ∀ tree, entry = .ok tree → tree.DistinctNames → tree.statRoot = .ok .directory →
      ∀ v ∈ walk.visits tree, v.found = .ok .directory → ∀ node, tree.at? v.location = some node →
        walk.Opens ⟨v.path ++ "/", .directory⟩ node →
          v.listed? = some (.ok (node.childNames.mergeSort Text.isAtMost)) ∧
            ∀ name ∈ node.childNames, ∃ w ∈ walk.visits tree,
              w.location = v.location ++ [name] := by
  intro walked entry
  refine ⟨walkOver_eq_error_iff walk hforeseen, fun reason hreason => ?_, ?_⟩
  · have hends := (walkOver_eq_error_iff walk hforeseen reason walked.calls).1 ⟨hreason, rfl⟩
    exact ⟨fun made hmade => hends.path_of_mem hmade, hends.status hforeseen⟩
  · intro tree htree hnames hstat v hv hfound node hnode hopens
    exact listed_of_opens (Run.foreseen_entry hforeseen htree) hnames hstat hv hfound hnode hopens

theorem distinctNames_lockedTree (chmod : Option Failure) :
    (Run.lockedTree chmod).DistinctNames := by
  refine distinctNames_of_children (List.nodup_singleton _) fun child hchild => ?_
  obtain rfl := List.mem_singleton.1 hchild
  refine distinctNames_of_children (List.nodup_singleton _) fun child hchild => ?_
  obtain rfl := List.mem_singleton.1 hchild
  exact distinctNames_of_children List.nodup_nil fun _ h => absurd h List.not_mem_nil

theorem root_alone_is_fatal_lockedTree :
    let barred : Option Run.Site := some ⟨"/srv", Run.lockedTree (some (.system .notPermitted))⟩
    let free : Option Run.Site := some ⟨"/srv", Run.lockedTree none⟩
    Run.Foreseen barred ∧ Run.Foreseen free ∧
      (Run.walkOver openingWalk barred).outcome = .error (.rootFailed "srv" .accessDenied) ∧
      (Run.walkOver openingWalk barred).calls = [.chown "/srv" 1 2, .chmod "/srv" 0o755] ∧
      (openingWalk.visits (Run.lockedTree none)).head?.map Visit.listed? =
      some (some (.ok ["a".toList])) ∧
      ∃ w ∈ openingWalk.visits (Run.lockedTree none), w.location = ["a".toList] := by
  intro barred free
  have hbarred : Run.Foreseen barred :=
    Run.foreseen_lockedTree fun failure h => Option.some.inj h ▸ rfl
  have hfree : Run.Foreseen free := Run.foreseen_lockedTree nofun
  obtain ⟨hends, -, -⟩ := root_alone_is_fatal openingWalk barred hbarred
  obtain ⟨-, -, hlisted⟩ := root_alone_is_fatal openingWalk free hfree
  have hroot : EndsAtRoot openingWalk (.ok (Run.lockedTree (some (.system .notPermitted))))
      (.rootFailed "srv" .accessDenied) [.chown "/srv" 1 2, .chmod "/srv" 0o755] :=
    .unlisted rfl (by cbv)
  obtain ⟨houtcome, hcalls⟩ := (hends _ _).2 hroot
  have hopens : openingWalk.Opens ⟨"/", .directory⟩ (Run.lockedTree none) :=
    ⟨rfl, ⟨_, _, by cbv, by decide⟩, rfl, rfl⟩
  obtain ⟨hnames, hinside⟩ :=
    hlisted (Run.lockedTree none) (by cbv) (distinctNames_lockedTree none) rfl _
    List.mem_cons_self rfl (Run.lockedTree none) rfl hopens
  have hsorted : (Run.lockedTree none).childNames.mergeSort Text.isAtMost = ["a".toList] :=
    List.mergeSort_singleton _
  rw [hsorted] at hnames
  exact ⟨hbarred, hfree, houtcome, hcalls, congrArg some hnames, hinside _ (by decide)⟩

end Walk

end PathRights
