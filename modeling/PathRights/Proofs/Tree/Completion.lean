import PathRights.Proofs.Tree.Itinerary

/-! Walks over trees in which calls fail with errors of the system only. Nothing below the root ends
such a walk, in whatever order the calls fail, so that the root alone decides how it ends:
`entering` says how, from the root's own failures and the mode that its role leaves it with. The
names in a directory need not differ here. -/

namespace PathRights

/-- The failures of all calls. -/
def Failures.all (failures : Failures) : List (Option Failure) :=
  [failures.stat, failures.lstat, failures.list, failures.chown, failures.chmod]

/-- Every call that is set up to fail does so with an error of the system. -/
def Failures.Foreseen (failures : Failures) : Prop :=
  ∀ failure, some failure ∈ failures.all → failure.abort? = .none

namespace Node

/-- The calls on the entries of a tree fail with errors of the system only. -/
def Foreseen (tree : Node) : Prop :=
  ∀ location node, tree.at? location = some node → node.failures.Foreseen

theorem Foreseen.setMode {tree : Node} (h : tree.Foreseen) (mode : Int) (location : Location) :
    (tree.setMode mode location).Foreseen := by
  intro other node hnode
  obtain ⟨before, hbefore, hfailures, -⟩ := at?_of_setMode hnode
  rw [hfailures]
  exact h other before hbefore

theorem Foreseen.of_resolve {tree node : Node} {location : Location} (h : tree.Foreseen)
    (hresolve : tree.resolve location = .ok node) : node.Foreseen := by
  intro rest target htarget
  refine h (location ++ rest) target ?_
  rw [at?_append, at?_of_resolve hresolve]
  exact htarget

theorem foreseen_of_children {tree : Node} (hfailures : tree.failures.Foreseen)
    (hchildren : ∀ child ∈ tree.children, child.Foreseen) : tree.Foreseen := by
  intro location node hnode
  cases location with
  | nil =>
    cases hnode
    exact hfailures
  | cons name rest =>
    rw [at?_cons] at hnode
    obtain ⟨child, hchild, hnode⟩ := Option.bind_eq_some_iff.1 hnode
    exact hchildren child (List.mem_of_find?_eq_some hchild) rest node hnode

end Node

/-- A failure, if there is one, is an error of the system. -/
def Answered {α : Type} (answer : Except Failure α) : Prop :=
  ∀ failure, answer = .error failure → failure.abort? = none

theorem Answered.map {α β : Type} {answer : Except Failure α} (h : Answered answer) (f : α → β) :
    Answered (answer.map f) := by
  intro met hmet
  cases answer with
  | ok a => cases hmet
  | error failure =>
    cases hmet
    exact h met rfl

namespace Node

variable {tree : Node}

theorem Foreseen.reach (h : tree.Foreseen) (location : Location)
    {failure : Failures → Option Failure}
    (hcall : ∀ failures : Failures, failure failures ∈ failures.all) :
    Answered (tree.reach location failure) := by
  intro met hmet
  unfold Node.reach at hmet
  split at hmet
  · cases hmet
    rfl
  · next node hresolve =>
    split at hmet
    · next hfailure =>
      cases hmet
      exact h location node (at?_of_resolve hresolve) met (hfailure ▸ hcall node.failures)
    · cases hmet

theorem Foreseen.lstat (h : tree.Foreseen) (location : Location) : Answered (tree.lstat location) :=
  (h.reach location fun _ => by simp [Failures.all]).map _

theorem Foreseen.chown (h : tree.Foreseen) (location : Location) : Answered (tree.chown location) :=
  (h.reach location fun _ => by simp [Failures.all]).map _

theorem Foreseen.chmod (h : tree.Foreseen) (location : Location) (mode : Int) :
    Answered (tree.chmod location mode) :=
  (h.reach location fun _ => by simp [Failures.all]).map _

theorem Foreseen.list (h : tree.Foreseen) (location : Location) :
    Answered (tree.list location) := by
  have hreach : Answered (tree.reach location (·.list)) :=
    h.reach location fun _ => by simp [Failures.all]
  intro failure hfailure
  unfold Node.list at hfailure
  split at hfailure
  · next hmet =>
    cases hfailure
    exact hreach failure hmet
  · split at hfailure
    · cases hfailure
    · cases hfailure
      rfl

end Node

namespace Work

variable {α β : Type}

/-- Work comes to its end on every tree in which calls fail with errors of the system only, and
leaves such a tree behind. -/
def Completes (work : Work α) : Prop :=
  ∀ s : Session, s.tree.Foreseen → ∃ a s', outcome work s = (.ok a, s') ∧ s'.tree.Foreseen

theorem completes_pure (a : α) : Completes (pure a : Work α) := fun s hs => ⟨a, s, rfl, hs⟩

theorem completes_bind {work : Work α} {next : α → Work β} (h : Completes work)
    (hnext : ∀ a, Completes (next a)) : Completes (work >>= next) := by
  intro s hs
  obtain ⟨a, s', hwork, hs'⟩ := h s hs
  rw [outcome_bind, hwork]
  exact hnext a s' hs'

theorem completes_modify {f : Session → Session} (h : ∀ s, (f s).tree = s.tree) :
    Completes (modify f : Work Unit) := fun s hs => ⟨(), f s, rfl, (h s).symm ▸ hs⟩

theorem completes_get {next : Session → Work α} (h : ∀ s, Completes (next s)) :
    Completes (get >>= next) := fun s hs => h s s hs

theorem completes_count (f : Stats → Stats) : Completes (count f) := completes_modify fun _ => rfl

theorem completes_report (manner : Manner) (event : Event) : Completes (report manner event) :=
  completes_modify fun s => by split <;> rfl

theorem completes_recordCall (call : Call) : Completes (recordCall call) :=
  completes_modify fun _ => rfl

theorem completes_ask {question : Node → Except Failure α}
    (h : ∀ tree, tree.Foreseen → Answered (question tree)) : Completes (ask question) := by
  intro s hs
  rw [outcome_ask]
  cases hquestion : question s.tree with
  | ok a => exact ⟨.ok a, s, rfl, hs⟩
  | error failure =>
    have hforeseen : failure.abort? = none := h s.tree hs failure hquestion
    cases failure with
    | system error => exact ⟨.error error, s, rfl, hs⟩
    | crash fault => cases hforeseen
    | interrupt => cases hforeseen

theorem completes_callOn (target : Target) {call : Location → Node → Except Failure Node}
    (h : ∀ tree, tree.Foreseen → ∀ location, Answered (call location tree) ∧
      ∀ tree', call location tree = .ok tree' → tree'.Foreseen) :
    Completes (callOn target call) := by
  intro s hs
  have hanswer : Answered (answerAt target call s.tree) ∧
      ∀ tree', answerAt target call s.tree = .ok tree' → tree'.Foreseen := by
    unfold answerAt
    split
    · exact h s.tree hs _
    · refine ⟨fun failure hfailure => ?_, fun _ htree => by cases htree⟩
      cases hfailure
      rfl
  rw [outcome_callOn]
  cases hcall : answerAt target call s.tree with
  | ok tree => exact ⟨none, { s with tree }, rfl, hanswer.2 tree hcall⟩
  | error failure =>
    have hforeseen : failure.abort? = none := hanswer.1 failure hcall
    cases failure with
    | system error => exact ⟨some error, s, rfl, hs⟩
    | crash fault => cases hforeseen
    | interrupt => cases hforeseen

theorem completes_operation (manner : Manner) (target : Target) (would done : Event) (made : Call)
    {call : Location → Node → Except Failure Node} (h : Completes (callOn target call)) :
    let operation : Work (Option SystemError) := do
      if manner.dryRun then
        report manner would
        return none
      else
        recordCall made
        let error ← callOn target call
        if error.isNone then report manner done
        return error
    Completes operation := by
  intro operation
  unfold operation
  split
  · exact completes_bind (completes_report manner _) fun _ => completes_pure _
  · refine completes_bind (completes_recordCall _) fun _ => completes_bind h fun error => ?_
    split
    · exact completes_bind (completes_report manner _) fun _ => completes_pure _
    · exact completes_pure _

theorem completes_chown (manner : Manner) (target : Target) (uid gid : Int) :
    Completes (chown manner target uid gid) := by
  refine completes_operation manner target _ _ _ (completes_callOn target ?_)
  intro tree htree location
  refine ⟨(htree.chown location).map _, fun tree' htree' => ?_⟩
  cases hchown : tree.chown location with
  | ok _ =>
    rw [hchown] at htree'
    cases htree'
    exact htree
  | error failure =>
    rw [hchown] at htree'
    cases htree'

theorem completes_chmod (manner : Manner) (target : Target) (mode : Int) :
    Completes (chmod manner target mode) := by
  refine completes_operation manner target _ _ _ (completes_callOn target ?_)
  intro tree htree location
  refine ⟨htree.chmod location mode, fun tree' htree' => ?_⟩
  unfold Node.chmod at htree'
  cases hreach : tree.reach location (·.chmod) with
  | ok node =>
    rw [hreach] at htree'
    cases htree'
    exact htree.setMode mode location
  | error failure =>
    rw [hreach] at htree'
    cases htree'

end Work

namespace Walk

open Deed Node Work

theorem completes_reportFailure (walk : Walk) (path : Text) (operation : OperationName)
    (error : Option SystemError) : Completes (reportFailure walk path operation error) := by
  cases error with
  | none => exact completes_pure ()
  | some error => exact completes_bind (completes_count _) fun _ => completes_report _ _

theorem completes_skip (walk : Walk) (event : Event) : Completes (skip walk event) :=
  completes_bind (completes_count _) fun _ => completes_report _ _

theorem completes_applyRole (walk : Walk) (location : Location) {entry : Entry} {role : Role}
    {rule : Rule} (h : walk.table.decide entry = .apply role rule) :
    Completes (applyRole walk location entry role) := by
  obtain ⟨mode, -, happly⟩ := @applyRole_of_decide walk location entry role rule h
  rw [happly]
  refine completes_bind (completes_chown _ _ _ _) fun _ => ?_
  refine completes_bind (completes_chmod _ _ _) fun _ => ?_
  exact completes_bind (completes_reportFailure walk _ _ _) fun _ =>
    completes_reportFailure walk _ _ _

theorem completes_handle (walk : Walk) (location : Location) (entry : Entry) :
    Completes (handle walk location entry) := by
  refine completes_bind (completes_count _) fun _ => ?_
  cases hdecide : walk.table.decide entry with
  | apply role rule =>
    refine completes_bind (completes_count _) fun _ => ?_
    refine completes_bind (completes_report _ _) fun _ => ?_
    exact completes_applyRole walk location hdecide
  | leave rule => exact completes_bind (completes_count _) fun _ => completes_report _ _
  | unmatched => exact completes_bind (completes_count _) fun _ => completes_report _ _

theorem completes_enter (walk : Walk) (location : Location) (path : Text) :
    Completes (enter walk location path) := by
  refine completes_bind (completes_handle walk _ _) fun _ => ?_
  refine completes_bind (completes_ask fun _ h => h.list location) fun reply => ?_
  cases reply with
  | ok names => exact completes_pure _
  | error error =>
    refine completes_bind (completes_count _) fun _ => ?_
    exact completes_bind (completes_report _ _) fun _ => completes_pure _

theorem completes_visit (walk : Walk) (location : Location) (path : Text) :
    Completes (visit walk location path) := by
  refine completes_bind (completes_ask fun _ h => h.lstat location) fun reply => ?_
  cases reply with
  | error error => exact completes_bind (completes_skip walk _) fun _ => completes_pure _
  | ok type =>
    dsimp only
    cases type.kind with
    | symlink => exact completes_bind (completes_skip walk _) fun _ => completes_pure _
    | other => exact completes_bind (completes_skip walk _) fun _ => completes_pure _
    | file => exact completes_bind (completes_handle walk _ _) fun _ => completes_pure _
    | directory => exact completes_enter walk location _

theorem completes_descend (walk : Walk) (steps : Nat) (stack : List Frame) :
    Completes (descend walk steps stack) := by
  induction steps generalizing stack with
  | zero => exact completes_pure ()
  | succ steps ih =>
    match stack with
    | [] => exact completes_pure ()
    | ⟨location, path, []⟩ :: stack => exact ih stack
    | ⟨location, path, name :: names⟩ :: stack =>
      exact completes_bind (completes_visit walk _ _) fun _ => ih _

/-- Once the root is listed, nothing ends the walk. -/
theorem completes_descent (walk : Walk) (names : List Text) :
    Completes (do
      descend walk (2 * (← get).tree.size + 1) [⟨[], [], names⟩]
      complete walk) := by
  refine completes_get fun s => completes_bind (completes_descend walk _ _) fun _ => ?_
  exact completes_get fun s => completes_report _ _

/-! ### The root -/

/-- How a walk ends, as far as its root decides it: the root must be a directory, and it must let
itself be listed once its own role was tried on it. -/
def entering (walk : Walk) (tree : Node) : Except Abort Unit :=
  match tree.failures.stat with
  | some failure => .error (.ofRoot walk.root failure)
  | none =>
    if tree.type = .directory then
      (listing (settledMode walk ⟨"/", .directory⟩ tree) tree).mapError (.ofRoot walk.root)
    else .error (.rootNotDirectory walk.root)

theorem carryOut_of_does {manner : Manner} {deeds : List Deed} {α : Type} {a result : α}
    {work : Work α} {s s' : Session} (h : Does manner deeds result work s)
    (hwork : outcome work s = (.ok a, s')) : carryOut manner deeds s = (.ok (), s') := by
  unfold Does at h
  rw [hwork] at h
  cases hdeeds : carryOut manner deeds s with
  | mk ending session =>
    rw [hdeeds, Prod.mk.injEq] at h
    cases ending with
    | ok _ => rw [h.2]
    | error reason => cases h.1

theorem outcome_ask_bind_ok {α β : Type} {question : Node → Except Failure α}
    {next : Except SystemError α → Work β} {s : Session} {a : α} (h : question s.tree = .ok a) :
    outcome (ask question >>= next) s = outcome (next (.ok a)) s := by
  rw [outcome_bind, outcome_ask, h]
  rfl

theorem outcome_ask_bind_error {walk : Walk} {α β : Type} {question : Node → Except Failure α}
    {next : Except SystemError α → Work β} {s : Session} {failure : Failure}
    (h : question s.tree = .error failure)
    (hnext : ∀ error, (outcome (next (.error error)) s).1 = .error (.rootFailed walk.root error)) :
    (outcome (ask question >>= next) s).1 = .error (.ofRoot walk.root failure) := by
  rw [outcome_bind, outcome_ask, h]
  cases failure with
  | system error => exact hnext error
  | crash fault => rfl
  | interrupt => rfl

/-- The root is handled, listed with the mode that this leaves it with, and then walked through. -/
theorem outcome_handle_listRoot (walk : Walk) {tree : Node} (hforeseen : tree.Foreseen) :
    (outcome (do
        handle walk [] ⟨"/", .directory⟩
        let names ← listRoot walk
        descend walk (2 * (← get).tree.size + 1) [⟨[], [], names⟩]
        complete walk) (Session.start tree)).1 =
      (listing (settledMode walk ⟨"/", .directory⟩ tree) tree).mapError (.ofRoot walk.root) := by
  obtain ⟨_, s, hhandle, hs⟩ := completes_handle walk [] ⟨"/", .directory⟩ (Session.start tree)
    hforeseen
  -- the root is listed with the mode that it settles at, whatever the calls on it led to
  have hstart : (Session.start tree).tree.resolve [] = .ok tree := rfl
  have hdone := carryOut_of_does (does_handle walk ⟨"/", .directory⟩ hstart) hhandle
  have hlist := list_eq_listing (resolve_handled walk hstart hdone)
  rw [outcome_bind, hhandle]
  unfold listRoot
  dsimp only
  rw [bind_assoc]
  cases hlisting : listing (settledMode walk ⟨"/", .directory⟩ tree) tree with
  | error failure =>
    rw [hlisting] at hlist
    exact outcome_ask_bind_error hlist fun error => rfl
  | ok _ =>
    rw [hlisting] at hlist
    rw [outcome_ask_bind_ok hlist]
    obtain ⟨_, s', hdescent, -⟩ := completes_descent walk _ s hs
    exact congrArg Prod.fst hdescent

/-- Where calls fail with errors of the system only, the root decides how a walk ends. -/
theorem traverse_eq_entering (walk : Walk) {tree : Node} (hforeseen : tree.Foreseen) :
    (walk.traverse tree).1 = entering walk tree := by
  show (outcome walk.run (Session.start tree)).1 = _
  have hstat : (Session.start tree).tree.statRoot =
      Failure.orElse tree.failures.stat tree.type := by
    show (tree.reach [] (·.stat)).map (·.type) = _
    rw [reach_of_resolve rfl]
    cases tree.failures.stat <;> rfl
  unfold run checkRoot entering
  rw [bind_assoc]
  cases hfailure : tree.failures.stat with
  | some failure =>
    rw [hfailure] at hstat
    exact outcome_ask_bind_error hstat fun error => rfl
  | none =>
    rw [hfailure] at hstat
    rw [outcome_ask_bind_ok hstat]
    dsimp only
    by_cases htype : tree.type = .directory
    · rw [if_pos htype, if_pos htype, pure_bind]
      exact outcome_handle_listRoot walk hforeseen
    · rw [if_neg htype, if_neg htype]
      rfl

end Walk

end PathRights
