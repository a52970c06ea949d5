import PathRights.Proofs.Tree.Itinerary

/-! The visits of a walk, one after the other. A visit is written down with the answers that the
walk got in it and with the trees before and after it, so that what was tried in it can be tried
again. `Made` says what a visit that comes to its end does between two sessions; the walk, where it
comes to its end, makes its visits and then tells the counts. -/

namespace PathRights

open Deed Node Walk Work

/-- A visit: where it goes, what the entry is found to be, and the trees before and after it. -/
structure Visit where
  location : Location
  path : Text
  found : Except Failure FileType
  before : Node
  after : Node

namespace Visit

/-- The entry that is handled, if one is. -/
def handled? (v : Visit) : Option Entry :=
  match v.found with
  | .error _ => none
  | .ok type =>
    match type.kind with
    | .symlink | .other => none
    | .file => some ⟨v.path, .file⟩
    | .directory => some ⟨v.path ++ "/", .directory⟩

/-- What the listing answers, if a directory is handled. -/
def listed? (v : Visit) : Option (Except Failure (List Text)) :=
  match v.found with
  | .ok .directory => some (v.after.list v.location)
  | _ => none

/-- The frame that the visit gives to the stack. -/
def frame? (v : Visit) : Option Frame :=
  match v.listed? with
  | some (.ok names) => some ⟨v.location, v.path ++ "/", names⟩
  | _ => none

/-- How calls on the entry fail. -/
def failures (v : Visit) : Failures :=
  match v.before.resolve v.location with
  | .ok node => node.failures
  | .error _ => .none

/-- The stops of a walk that the visit comes to. -/
def stops (v : Visit) : List Stop :=
  match v.found with
  | .error failure => [.ofFailure (fun error => .skip (.cannotInspect v.path error)) failure]
  | .ok type =>
    match type.kind with
    | .symlink => [.skip (.skippedSymlink v.path)]
    | .other => [.skip (.skippedSpecial v.path)]
    | .file => [.handle v.location ⟨v.path, .file⟩ v.failures]
    | .directory =>
      .handle v.location ⟨v.path ++ "/", .directory⟩ v.failures ::
        match v.after.list v.location with
        | .ok _ => []
        | .error failure => [.ofFailure (.unreadable (v.path ++ "/")) failure]

/-- The deeds of the visit. -/
def deeds (walk : Walk) (v : Visit) : List Deed := v.stops.flatMap (Stop.deeds walk)

/-- The visit was made between two sessions, and came to its end. -/
structure Made (walk : Walk) (v : Visit) (s s' : Session) : Prop where
  before : s.tree = v.before
  after : s'.tree = v.after
  reached : ∀ type, v.found = .ok type → ∃ node, v.before.resolve v.location = .ok node
  done : carryOut walk.manner (v.deeds walk) s = (.ok (), s')

theorem stops_directory {v : Visit} (h : v.found = .ok .directory) :
    v.stops = .handle v.location ⟨v.path ++ "/", .directory⟩ v.failures ::
      match v.after.list v.location with
      | .ok _ => []
      | .error failure => [.ofFailure (.unreadable (v.path ++ "/")) failure] := by
  unfold stops
  rw [h]
  rfl

theorem frame?_directory {v : Visit} (h : v.found = .ok .directory) :
    v.frame? =
      match v.after.list v.location with
      | .ok names => some ⟨v.location, v.path ++ "/", names⟩
      | .error _ => none := by
  unfold frame? listed?
  rw [h]
  dsimp only
  cases v.after.list v.location <;> rfl

theorem listed?_eq_none {v : Visit} (h : v.found ≠ .ok .directory) : v.listed? = none := by
  unfold listed?
  split
  · next hfound => exact absurd hfound h
  · rfl

theorem frame?_eq_none {v : Visit} (h : v.found ≠ .ok .directory) : v.frame? = none := by
  unfold frame?
  rw [listed?_eq_none h]

end Visit

namespace Work

variable {α β : Type} {manner : Manner} {s s' : Session}

/-- Work that comes to its end has done all that its deeds say. -/
theorem Does.of_outcome {deeds : List Deed} {a b : α} {work : Work α}
    (h : Does manner deeds a work s) (hreturns : outcome work s = (.ok b, s')) :
    carryOut manner deeds s = (.ok (), s') ∧ b = a := by
  unfold Does at h
  rw [hreturns] at h
  rcases hdeeds : carryOut manner deeds s with ⟨result, t⟩
  rw [hdeeds] at h
  cases result with
  | error reason => cases h
  | ok _ =>
    cases h
    exact ⟨rfl, rfl⟩

theorem outcome_bind_ok {work : Work α} {next : α → Work β} {b : β}
    (h : outcome (work >>= next) s = (.ok b, s')) :
    ∃ a t, outcome work s = (.ok a, t) ∧ outcome (next a) t = (.ok b, s') := by
  rw [outcome_bind] at h
  rcases hwork : outcome work s with ⟨result, t⟩
  rw [hwork] at h
  cases result with
  | error reason => cases h
  | ok a => exact ⟨a, t, rfl, h⟩

theorem outcome_ask_ok {question : Node → Except Failure α} {reply : Except SystemError α}
    (h : outcome (ask question) s = (.ok reply, s')) :
    s' = s ∧ ((∃ a, question s.tree = .ok a ∧ reply = .ok a) ∨
      ∃ error, question s.tree = .error (.system error) ∧ reply = .error error) := by
  rw [outcome_ask] at h
  cases hquestion : question s.tree with
  | ok a =>
    rw [hquestion] at h
    cases h
    exact ⟨rfl, Or.inl ⟨a, rfl, rfl⟩⟩
  | error failure =>
    rw [hquestion] at h
    cases failure with
    | system error =>
      cases h
      exact ⟨rfl, Or.inr ⟨error, rfl, rfl⟩⟩
    | crash fault => cases h
    | interrupt => cases h

end Work

namespace Walk

variable {walk : Walk} {location : Location} {path : Text} {s s' : Session}

theorem resolve_of_reach {tree node : Node} {failure : Failures → Option Failure}
    (h : tree.reach location failure = .ok node) : tree.resolve location = .ok node := by
  unfold Node.reach at h
  split at h
  · cases h
  · next hresolve =>
    split at h
    · cases h
    · cases h
      exact hresolve

theorem resolve_of_lstat {tree : Node} {type : FileType} (h : tree.lstat location = .ok type) :
    ∃ node, tree.resolve location = .ok node := by
  unfold Node.lstat at h
  cases hreach : tree.reach location (·.lstat) with
  | error failure =>
    rw [hreach] at h
    cases h
  | ok node => exact ⟨node, resolve_of_reach hreach⟩

theorem failures_of_resolve {v : Visit} {node : Node} (h : v.before.resolve v.location = .ok node) :
    v.failures = node.failures := by
  unfold Visit.failures
  rw [h]

section

variable {v : Visit} (hbefore : s.tree = v.before) (hafter : s'.tree = v.after)

include hbefore hafter

/-- A visit with one stop, which gives no frame. -/
theorem made_of_stop {stop : Stop} {work : Work Unit} {child : Option Frame}
    (hreached : ∀ type, v.found = .ok type → ∃ node, v.before.resolve v.location = .ok node)
    (hstops : v.stops = [stop]) (hframe : v.frame? = none)
    (hdoes : Does walk.manner (stop.deeds walk) () work s)
    (h : outcome (work >>= fun _ => pure none) s = (.ok child, s')) :
    v.Made walk s s' ∧ child = v.frame? := by
  obtain ⟨_, t, hwork, hpure⟩ := outcome_bind_ok h
  cases hpure
  refine ⟨⟨hbefore, hafter, hreached, ?_⟩, hframe.symm⟩
  unfold Visit.deeds
  rw [hstops, List.flatMap_singleton]
  exact (hdoes.of_outcome hwork).1

/-- A directory that is handled and then asked for its names. -/
theorem made_enter {child : Option Frame} {node : Node} (hfound : v.found = .ok .directory)
    (hresolve : v.before.resolve v.location = .ok node)
    (h : outcome (enter walk v.location (v.path ++ "/")) s = (.ok child, s')) :
    v.Made walk s s' ∧ child = v.frame? := by
  obtain ⟨_, t, hhandle, hlisting⟩ := outcome_bind_ok h
  obtain ⟨hhandled, -⟩ := (does_handle walk ⟨v.path ++ "/", .directory⟩
    (hbefore ▸ hresolve)).of_outcome hhandle
  obtain ⟨reply, t', hask, hrest⟩ := outcome_bind_ok hlisting
  have hstops := Visit.stops_directory hfound
  rw [failures_of_resolve hresolve, ← hafter] at hstops
  have hframe := Visit.frame?_directory hfound
  rw [← hafter] at hframe
  have hmade : carryOut walk.manner (v.deeds walk) s = (.ok (), s') → v.Made walk s s' :=
    fun hdone => ⟨hbefore, hafter, fun _ _ => ⟨node, hresolve⟩, hdone⟩
  unfold Visit.deeds at hmade
  rw [hstops, List.flatMap_cons] at hmade
  obtain ⟨rfl, ⟨names, hlist, rfl⟩ | ⟨error, hlist, rfl⟩⟩ := outcome_ask_ok hask
  · cases hrest
    rw [hlist] at hframe hmade
    exact ⟨hmade (by simpa [Stop.deeds] using hhandled), hframe.symm⟩
  · have htell : Does walk.manner ((Stop.unreadable (v.path ++ "/") error).deeds walk)
        (none : Option Frame)
        (do
          count fun s => { s with unreadable := s.unreadable + 1 }
          report walk.manner (.cannotReadDirectory (v.path ++ "/") error)
          return none) t' :=
      does_bind (does_count _) fun _ _ => does_bind (does_report _) fun _ _ => does_pure none
    obtain ⟨htold, rfl⟩ := htell.of_outcome hrest
    have htree : s'.tree = t'.tree := tree_of_carryOut htold
    rw [htree, hlist] at hframe hmade
    refine ⟨hmade ?_, hframe.symm⟩
    rw [List.flatMap_singleton, carryOut_append]
    unfold Stop.deeds
    dsimp only
    rw [hhandled]
    exact htold

end

/-- A visit to a place, between two sessions. -/
def visitBetween (location : Location) (path : Text) (s s' : Session) : Visit :=
  ⟨location, path, s.tree.lstat location, s.tree, s'.tree⟩

/-- A visit that comes to its end is made, and its frame is what is to be visited next. -/
theorem made_visit {child : Option Frame}
    (h : outcome (visit walk location path) s = (.ok child, s')) :
    (visitBetween location path s s').Made walk s s' ∧
      child = (visitBetween location path s s').frame? := by
  obtain ⟨reply, t, hask, hrest⟩ := outcome_bind_ok h
  have hreached : ∀ type, (visitBetween location path s s').found = .ok type →
      ∃ node, s.tree.resolve location = .ok node := fun _ hfound => resolve_of_lstat hfound
  obtain ⟨rfl, ⟨type, hlstat, rfl⟩ | ⟨error, hlstat, rfl⟩⟩ := outcome_ask_ok hask
  · have hfound : (visitBetween location path t s').found = .ok type := hlstat
    have hframe (hkind : type.kind ≠ .directory) :
        (visitBetween location path t s').frame? = none := by
      refine Visit.frame?_eq_none fun hdirectory => hkind ?_
      cases hfound.symm.trans hdirectory
      rfl
    obtain ⟨node, hresolve⟩ := hreached type hfound
    dsimp only at hrest
    cases hkind : type.kind with
    | symlink =>
      rw [hkind] at hrest hframe
      refine made_of_stop rfl rfl hreached ?_ (hframe nofun)
        (does_skip walk (.skippedSymlink path)) hrest
      simp [Visit.stops, visitBetween, hlstat, hkind]
    | other =>
      rw [hkind] at hrest hframe
      refine made_of_stop rfl rfl hreached ?_ (hframe nofun)
        (does_skip walk (.skippedSpecial path)) hrest
      simp [Visit.stops, visitBetween, hlstat, hkind]
    | file =>
      rw [hkind] at hrest hframe
      have hdoes : Does walk.manner (Stop.deeds walk (.handle location ⟨path, .file⟩ node.failures))
          () (handle walk location ⟨path, .file⟩) t := does_handle walk _ hresolve
      refine made_of_stop rfl rfl hreached ?_ (hframe nofun) hdoes hrest
      have hfailures : (visitBetween location path t s').failures = node.failures :=
        failures_of_resolve hresolve
      unfold Visit.stops
      rw [hfound, hfailures]
      dsimp only
      rw [hkind]
      rfl
    | directory =>
      rw [hkind] at hrest
      obtain rfl := eq_directory_of_kind hkind
      exact made_enter rfl rfl hfound hresolve hrest
  · have hfound : (visitBetween location path t s').found = .error (.system error) := hlstat
    have hframe : (visitBetween location path t s').frame? = none :=
      Visit.frame?_eq_none fun hdirectory => by cases hfound.symm.trans hdirectory
    refine made_of_stop rfl rfl hreached ?_ hframe
      (does_skip walk (.cannotInspect path error)) hrest
    simp [Visit.stops, visitBetween, hlstat, Stop.ofFailure]

/-! ### All visits -/

/-- The visits of what a stack holds, as the walk makes them from a session on. -/
def visitsFrom (walk : Walk) : (steps : Nat) → List Frame → Session → List Visit
  | 0, _, _ | _ + 1, [], _ => []
  | steps + 1, ⟨location, path, pending⟩ :: stack, s =>
    match pending with
    | [] => visitsFrom walk steps stack s
    | name :: names =>
      let (result, after) := outcome (visit walk (location ++ [name]) (path ++ name)) s
      visitBetween (location ++ [name]) (path ++ name) s after ::
        match result with
        | .ok child =>
          visitsFrom walk steps (child.toList ++ ⟨location, path, names⟩ :: stack) after
        | .error _ => []

/-- The visits of a walk: that of the root, and all others if the root can be listed. -/
def visits (walk : Walk) (tree : Node) : List Visit :=
  let s := (outcome (handle walk [] ⟨"/", .directory⟩) (.start tree)).2
  ⟨[], [], tree.statRoot, tree, s.tree⟩ ::
    match s.tree.list [] with
    | .ok names => visitsFrom walk (2 * s.tree.size + 1) [⟨[], [], names⟩] s
    | .error _ => []

/-- From one session to another, the walk makes visits until the stack is empty. -/
inductive Descends (walk : Walk) : List Frame → List Visit → Session → Session → Prop
  | done (s : Session) : Descends walk [] [] s s
  | leave {location : Location} {path : Text} {stack : List Frame} {visits : List Visit}
    {s s' : Session} (rest : Descends walk stack visits s s') :
    Descends walk (⟨location, path, []⟩ :: stack) visits s s'
  | visit {v : Visit} {location : Location} {path name : Text} {names : List Text}
    {stack : List Frame} {visits : List Visit} {s t s' : Session}
    (place : v.location = location ++ [name]) (relative : v.path = path ++ name)
    (made : v.Made walk s t)
    (rest : Descends walk (v.frame?.toList ++ ⟨location, path, names⟩ :: stack) visits t s') :
    Descends walk (⟨location, path, name :: names⟩ :: stack) (v :: visits) s s'

end Walk

theorem Node.SameNames.setModes {tree tree' : Node} (h : SameNames tree tree')
    (changes : List (Location × Int)) : SameNames (tree.setModes changes) tree' := by
  induction changes generalizing tree with
  | nil => exact h
  | cons change changes ih => exact ih (h.setMode change.2 change.1)

theorem Node.size_setModes (tree : Node) (changes : List (Location × Int)) :
    (tree.setModes changes).size = tree.size := by
  induction changes generalizing tree with
  | nil => rfl
  | cons change changes ih => exact (ih _).trans (size_setMode change.2 change.1 tree)

namespace Visit

variable {walk : Walk} {v : Visit} {s s' : Session}

theorem Made.sameNames (h : v.Made walk s s') {tree : Node} (hsame : SameNames s.tree tree) :
    SameNames s'.tree tree := by
  rw [tree_of_carryOut h.done]
  exact hsame.setModes _

theorem frame?_eq_some {frame : Frame} (h : v.frame? = some frame) :
    ∃ names, v.after.list v.location = .ok names ∧
      frame = ⟨v.location, v.path ++ "/", names⟩ := by
  unfold frame? listed? at h
  split at h
  · next names hlisted =>
    split at hlisted
    · exact ⟨names, Option.some.inj hlisted, (Option.some.inj h).symm⟩
    · cases hlisted
  · cases h

end Visit

namespace Walk

variable {walk : Walk} {s s' : Session}

/-- The frame of a visit holds the names of the directory that is visited. -/
theorem opened_of_frame? {tree node : Node} (hnames : tree.DistinctNames) {v : Visit}
    (hsame : SameNames v.after tree) (hnode : tree.at? v.location = some node) {frame : Frame}
    (h : v.frame? = some frame) : Opened tree node frame := by
  obtain ⟨names, hlist, rfl⟩ := Visit.frame?_eq_some h
  obtain ⟨node', hnode', rfl⟩ := names_of_list hsame hlist
  obtain rfl : node = node' := Option.some.inj (hnode.symm.trans hnode')
  refine ⟨fits_list hnames hnode _, ?_⟩
  rw [entries_list hnames hnode]
  exact sizeAll_inNameOrder node

/-- A descent that comes to its end makes the visits of its stack, when it may take as many steps as
that needs. -/
theorem descends_of_descend {tree : Node} (hnames : tree.DistinctNames) (steps : Nat)
    (stack : List Frame) (hsame : SameNames s.tree tree) (henough : Enough tree steps stack)
    (h : outcome (descend walk steps stack) s = (.ok (), s')) :
    Descends walk stack (visitsFrom walk steps stack s) s s' := by
  induction steps generalizing stack s with
  | zero =>
    obtain rfl := henough.eq_nil
    cases h
    exact .done _
  | succ steps ih =>
    cases stack with
    | nil =>
      cases h
      exact .done _
    | cons frame stack =>
      obtain ⟨location, path, pending⟩ := frame
      unfold descend at h
      cases pending with
      | nil => exact .leave (ih stack hsame henough.leave h)
      | cons name names =>
        obtain ⟨node, hnode, -, hrest, hopens⟩ := henough.visit
        obtain ⟨child, t, hvisit, h⟩ := outcome_bind_ok h
        obtain ⟨hmade, hchild⟩ := made_visit hvisit
        have hsame' := hmade.sameNames hsame
        unfold visitsFrom
        dsimp only
        rw [hvisit]
        refine .visit rfl rfl hmade ?_
        rw [← hchild]
        cases child with
        | none => exact ih _ hsame' hrest h
        | some frame =>
          exact ih _ hsame' (hopens frame (opened_of_frame? hnames hsame' hnode hchild.symm)) h

/-- The visit of the root, which is looked at in a way of its own. -/
def rootVisit (tree after : Node) : Visit := ⟨[], [], tree.statRoot, tree, after⟩

/-- The parts of a walk that comes to its end: it visits the root, from there it descends, and in
the end it tells the counts. -/
structure Returns (walk : Walk) (tree : Node) (names : List Text) (below : List Visit)
    (s t : Session) : Prop where
  visits : walk.visits tree = rootVisit tree s.tree :: below
  found : tree.statRoot = .ok .directory
  root : (rootVisit tree s.tree).Made walk (.start tree) s
  listed : s.tree.list [] = .ok names
  below : Descends walk [⟨[], [], names⟩] below s t
  told : (walk.traverse tree).2 =
    { t with events := t.events ++ [Event.walkComplete t.stats].filter walk.manner.reports }

theorem checkRoot_ok {t : Session} (h : outcome (checkRoot walk) s = (.ok (), t)) :
    t = s ∧ s.tree.statRoot = .ok .directory := by
  obtain ⟨reply, t', hask, h⟩ := outcome_bind_ok h
  obtain ⟨rfl, ⟨type, hstat, rfl⟩ | ⟨error, -, rfl⟩⟩ := outcome_ask_ok hask
  · by_cases htype : type = .directory
    · subst htype
      cases h
      exact ⟨rfl, hstat⟩
    · dsimp only at h
      rw [if_neg htype] at h
      cases h
  · cases h

theorem listRoot_ok {t : Session} {names : List Text}
    (h : outcome (listRoot walk) s = (.ok names, t)) : t = s ∧ s.tree.list [] = .ok names := by
  obtain ⟨reply, t', hask, h⟩ := outcome_bind_ok h
  obtain ⟨rfl, ⟨names', hlist, rfl⟩ | ⟨error, -, rfl⟩⟩ := outcome_ask_ok hask
  · cases h
    exact ⟨rfl, hlist⟩
  · cases h

theorem complete_ok {t : Session} (h : outcome (complete walk) s = (.ok (), t)) :
    t = { s with events :=
      s.events ++ [Event.walkComplete s.stats].filter walk.manner.reports } := by
  obtain rfl : (if walk.manner.reports (.walkComplete s.stats) then
      { s with events := s.events ++ [.walkComplete s.stats] } else s) = t := congrArg Prod.snd h
  cases hreports : walk.manner.reports (.walkComplete s.stats) <;> simp [hreports]

theorem returns_of_ok {tree : Node} (hnames : tree.DistinctNames)
    (h : (walk.traverse tree).1 = .ok ()) :
    ∃ names below s t, Returns walk tree names below s t := by
  have hrun : outcome walk.run (.start tree) = (.ok (), (walk.traverse tree).2) :=
    Prod.ext h rfl
  unfold run at hrun
  obtain ⟨_, s₀, hcheck, hrun₁⟩ := outcome_bind_ok hrun
  obtain ⟨rfl, hfound⟩ := checkRoot_ok hcheck
  obtain ⟨_, s, hhandle, hrun₂⟩ := outcome_bind_ok hrun₁
  obtain ⟨names, s', hlist, hrun₃⟩ := outcome_bind_ok hrun₂
  obtain ⟨rfl, hlisted⟩ := listRoot_ok hlist
  obtain ⟨_, t, hdescend, hcomplete⟩ := outcome_bind_ok
    (show outcome (descend walk (2 * s'.tree.size + 1) [⟨[], [], names⟩] >>= fun _ => complete walk)
      s' = _ from hrun₃)
  have hdoes : Does walk.manner (handleDeeds walk [] ⟨"/", .directory⟩ tree.failures) ()
      (handle walk [] ⟨"/", .directory⟩) (.start tree) := does_handle walk _ rfl
  have hvisits : walk.visits tree = rootVisit tree s'.tree ::
      visitsFrom walk (2 * s'.tree.size + 1) [⟨[], [], names⟩] s' := by
    unfold visits
    dsimp only
    rw [hhandle]
    dsimp only
    rw [hlisted]
    rfl
  have hroot : (rootVisit tree s'.tree).Made walk (.start tree) s' := by
    refine ⟨rfl, rfl, fun _ _ => ⟨tree, rfl⟩, ?_⟩
    unfold Visit.deeds
    rw [Visit.stops_directory hfound]
    dsimp only [rootVisit]
    rw [hlisted, List.flatMap_singleton]
    exact (hdoes.of_outcome hhandle).1
  have hsame : SameNames s'.tree tree := hroot.sameNames (.refl tree)
  have hsize : s'.tree.size = tree.size := by
    rw [tree_of_carryOut hroot.done]
    exact size_setModes tree _
  obtain ⟨node, hnode, rfl⟩ := names_of_list hsame hlisted
  cases hnode
  exact ⟨_, _, s', t, hvisits, hfound, hroot, hlisted,
    descends_of_descend hnames _ _ hsame (.root hnames (by omega)) hdescend, complete_ok hcomplete⟩

end Walk

end PathRights
