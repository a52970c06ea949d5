import PathRights.Proofs.Tree.Pairing

/-! Work on trees that the calls do not tell apart. A relation between trees is a `Simulation` when
every call on related trees is answered alike and leaves related trees behind. Work that asks a tree
only by calls then comes to the same end on both, with the same calls made, the same events reported
and the same counts. -/

namespace PathRights

/-- Two sessions that differ at most in their trees, and these are related. -/
structure Session.Like (related : Node → Node → Prop) (s s' : Session) : Prop where
  tree : related s.tree s'.tree
  calls : s.calls = s'.calls
  events : s.events = s'.events
  stats : s.stats = s'.stats

/-- Two answers that are the same failure, or trees that are related. -/
inductive Likewise {ε : Type} (related : Node → Node → Prop) :
    Except ε Node → Except ε Node → Prop where
  | error (failure : ε) : Likewise related (.error failure) (.error failure)
  | ok {tree tree' : Node} (h : related tree tree') : Likewise related (.ok tree) (.ok tree')

/-- No call tells related trees apart, and the trees that calls leave behind are related again. -/
structure Simulation (related : Node → Node → Prop) : Prop where
  statRoot : ∀ {tree tree'}, related tree tree' → tree.statRoot = tree'.statRoot
  lstat : ∀ {tree tree'}, related tree tree' → ∀ location,
    tree.lstat location = tree'.lstat location
  list : ∀ {tree tree'}, related tree tree' → ∀ location, tree.list location = tree'.list location
  chown : ∀ {tree tree'}, related tree tree' → ∀ location,
    tree.chown location = tree'.chown location
  chmod : ∀ {tree tree'}, related tree tree' → ∀ location mode,
    Likewise related (tree.chmod location mode) (tree'.chmod location mode)

namespace Work

variable {α β : Type} {related : Node → Node → Prop}

/-- On sessions with related trees, two pieces of work end alike, with a result of some kind if they
have one. -/
def Agree (related : Node → Node → Prop) (Result : α → Prop) (work work' : Work α) : Prop :=
  ∀ s s', Session.Like related s s' →
    (outcome work s).1 = (outcome work' s').1 ∧
      (∀ a, (outcome work s).1 = .ok a → Result a) ∧
      Session.Like related (outcome work s).2 (outcome work' s').2

theorem agree_pure {P : α → Prop} {a : α} (h : P a) :
    Agree related P (pure a : Work α) (pure a) := paired_pure (R := Session.Like related) h

theorem agree_throw {P : α → Prop} (abort : Abort) :
    Agree related P (throw abort : Work α) (throw abort) :=
  paired_throw (R := Session.Like related) abort

theorem agree_bind {P : α → Prop} {Q : β → Prop} {work work' : Work α} {next next' : α → Work β}
    (h : Agree related P work work') (hnext : ∀ a, P a → Agree related Q (next a) (next' a)) :
    Agree related Q (work >>= next) (work' >>= next') :=
  paired_bind (R := Session.Like related) h hnext

theorem Agree.mono {P Q : α → Prop} {work work' : Work α} (h : Agree related P work work')
    (hPQ : ∀ a, P a → Q a) : Agree related Q work work' :=
  Paired.mono (R := Session.Like related) h hPQ

theorem agree_modify {f : Session → Session}
    (h : ∀ s s', Session.Like related s s' → Session.Like related (f s) (f s')) :
    Agree related Any (modify f : Work Unit) (modify f) :=
  paired_modify (R := Session.Like related) h

theorem agree_get_left {P : α → Prop} {next : Session → Work α} {work : Work α}
    (h : ∀ s s', Session.Like related s s' → Agree related P (next s) work) :
    Agree related P (get >>= next) work := paired_get_left (R := Session.Like related) h

theorem agree_count (f : Stats → Stats) : Agree related Any (count f) (count f) :=
  agree_modify fun _ _ h => ⟨h.tree, h.calls, h.events, congrArg f h.stats⟩

theorem agree_report (manner : Manner) (event : Event) :
    Agree related Any (report manner event) (report manner event) := by
  refine agree_modify fun s s' h => ?_
  split
  · exact ⟨h.tree, h.calls, congrArg (· ++ [event]) h.events, h.stats⟩
  · exact h

theorem agree_recordCall (call : Call) : Agree related Any (recordCall call) (recordCall call) :=
  agree_modify fun _ _ h => ⟨h.tree, congrArg (· ++ [call]) h.calls, h.events, h.stats⟩

/-- A question that related trees answer alike, with an answer of some kind. -/
theorem agree_ask (P : α → Prop) (question : Node → Except Failure α)
    (h : ∀ tree tree', related tree tree' → question tree = question tree')
    (hP : ∀ tree tree' a, related tree tree' → question tree = .ok a → P a) :
    Agree related (fun reply => ∀ a, reply = .ok a → P a) (ask question) (ask question) := by
  exact paired_ask (R := Session.Like related) P fun s s' hlike =>
    ⟨h _ _ hlike.tree, fun a ha => hP _ _ a hlike.tree ha⟩

theorem agree_ask_any (question : Node → Except Failure α)
    (h : ∀ tree tree', related tree tree' → question tree = question tree') :
    Agree related Any (ask question) (ask question) :=
  (agree_ask Any question h fun _ _ _ _ _ => trivial).mono fun _ _ => trivial

theorem agree_callOn (target : Target) {call : Location → Node → Except Failure Node}
    (h : ∀ {tree tree'}, related tree tree' → ∀ location,
      Likewise related (call location tree) (call location tree')) :
    Agree related Any (callOn target call) (callOn target call) := by
  intro s s' hlike
  have hanswer : Likewise related (answerAt target call s.tree) (answerAt target call s'.tree) := by
    unfold answerAt
    split
    · exact h hlike.tree _
    · exact .error _
  rw [outcome_callOn, outcome_callOn]
  generalize answerAt target call s.tree = answer at hanswer ⊢
  generalize answerAt target call s'.tree = answer' at hanswer ⊢
  cases hanswer with
  | error failure => cases failure <;> exact ⟨rfl, fun _ _ => trivial, hlike⟩
  | ok htree =>
    exact ⟨rfl, fun _ _ => trivial, htree, hlike.calls, hlike.events, hlike.stats⟩

/-- An operation is reported in a dry run, and otherwise recorded, carried out and reported. -/
theorem agree_operation (manner : Manner) (target : Target) (would done : Event) (made : Call)
    {call : Location → Node → Except Failure Node}
    (h : ∀ {tree tree'}, related tree tree' → ∀ location,
      Likewise related (call location tree) (call location tree')) :
    let operation : Work (Option SystemError) := do
      if manner.dryRun then
        report manner would
        return none
      else
        recordCall made
        let error ← callOn target call
        if error.isNone then report manner done
        return error
    Agree related Any operation operation :=
  paired_operate (R := Session.Like related) rfl (fun _ => agree_report manner would)
    (fun _ => agree_recordCall made) (fun _ => agree_callOn target h)
    fun _ => agree_report manner done

theorem agree_chown (simulation : Simulation related) (manner : Manner) (target : Target)
    (uid gid : Int) :
    Agree related Any (chown manner target uid gid) (chown manner target uid gid) := by
  refine agree_operation manner target _ _ _ fun {tree tree'} htree location => ?_
  rw [simulation.chown htree]
  cases tree'.chown location with
  | ok _ => exact .ok htree
  | error failure => exact .error failure

theorem agree_chmod (simulation : Simulation related) (manner : Manner) (target : Target)
    (mode : Int) : Agree related Any (chmod manner target mode) (chmod manner target mode) :=
  agree_operation manner target _ _ _ fun htree location => simulation.chmod htree location mode

end Work

namespace Walk

open Work

variable {related : Node → Node → Prop}

theorem agree_reportFailure (walk : Walk) (path : Text) (operation : OperationName)
    (error : Option SystemError) :
    Agree related Any (reportFailure walk path operation error)
      (reportFailure walk path operation error) := by
  cases error with
  | none => exact agree_pure trivial
  | some error => exact agree_bind (agree_count _) fun _ _ => agree_report _ _

theorem agree_skip (walk : Walk) (event : Event) :
    Agree related Any (skip walk event) (skip walk event) :=
  agree_bind (agree_count _) fun _ _ => agree_report _ _

theorem agree_complete (walk : Walk) : Agree related Any (complete walk) (complete walk) := by
  refine paired_get (R := Session.Like related) fun s s' hlike => ?_
  rw [hlike.stats]
  exact agree_report _ _

variable (simulation : Simulation related)

include simulation

theorem agree_applyRole (walk : Walk) (location : Location) {entry : Entry} {role : Role}
    {rule : Rule} (h : walk.table.decide entry = .apply role rule) :
    Agree related Any (applyRole walk location entry role)
      (applyRole walk location entry role) := by
  obtain ⟨mode, -, happly⟩ := @applyRole_of_decide walk location entry role rule h
  rw [happly]
  refine agree_bind (agree_chown simulation _ _ _ _) fun chownError _ => ?_
  refine agree_bind (agree_chmod simulation _ _ _) fun chmodError _ => ?_
  exact agree_bind (agree_reportFailure _ _ _ _) fun _ _ => agree_reportFailure _ _ _ _

/-- A walk goes over related trees alike. -/
theorem parallel (walk : Walk) : Parallel (Session.Like related) (fun _ _ => True) walk walk where
  table := rfl
  root := rfl
  stats hlike := hlike.stats
  count := agree_count
  report event _ := agree_report walk.manner event
  statRoot _ _ hlike := ⟨simulation.statRoot hlike.tree, fun _ _ => trivial⟩
  lstat location _ _ hlike := ⟨simulation.lstat hlike.tree location, fun _ _ => trivial⟩
  list location _ _ _ hlike := simulation.list hlike.tree location
  applyRole location _ _ _ hdecide _ := agree_applyRole simulation walk location hdecide

theorem agree_handle (walk : Walk) (location : Location) (entry : Entry) :
    Agree related Any (handle walk location entry) (handle walk location entry) := by
  obtain ⟨type, htype⟩ := FileType.exists_kind entry.kind
  exact (parallel simulation walk).handle ⟨type, trivial, htype⟩

theorem agree_lstat (location : Location) :
    Agree related Any (ask (·.lstat location)) (ask (·.lstat location)) :=
  agree_ask_any _ fun _ _ h => simulation.lstat h location

theorem agree_descend (walk : Walk) (steps : Nat) (stack : List Frame) :
    Agree related Any (descend walk steps stack) (descend walk steps stack) :=
  (parallel simulation walk).descend steps stack

theorem agree_checkRoot (walk : Walk) :
    Agree related Any (checkRoot walk) (checkRoot walk) := (parallel simulation walk).checkRoot

theorem agree_listRoot (walk : Walk) : Agree related Any (listRoot walk) (listRoot walk) :=
  (parallel simulation walk).listRoot trivial

end Walk

end PathRights
