import Mathlib.Logic.Basic
import PathRights.Tree.Walk

/-! Walks side by side. Two pieces of work are `Paired` when they end alike from any two sessions
that are related, and leave related sessions behind. A walk is a chain of questions to the tree,
counts, reports and operations on entries; when two walks are paired in each of these, they are
`Parallel`, and then they are paired as a whole. An invariant of one walk is the case of a walk
beside itself. -/

namespace PathRights

namespace Work

variable {α β : Type}

/-- What work ends in when it begins with a session. -/
def outcome (work : Work α) (session : Session) : Except Abort α × Session :=
  StateT.run (ExceptT.run work) session

theorem outcome_bind (work : Work α) (next : α → Work β) (session : Session) :
    outcome (work >>= next) session =
      match outcome work session with
      | (.ok a, session') => outcome (next a) session'
      | (.error abort, session') => (.error abort, session') := by
  unfold outcome
  rw [ExceptT.run_bind, StateT.run_bind]
  rcases StateT.run (ExceptT.run work) session with ⟨result, session'⟩
  cases result with
  | ok a => rfl
  | error abort => rfl

/-- What the answer of a tree makes of work. -/
def answer : Except Failure α → Work (Except SystemError α)
  | .ok a => return .ok a
  | .error (.system error) => return .error error
  | .error (.crash fault) => throw (.crash fault)
  | .error .interrupt => throw .interrupt

theorem outcome_ask (question : Node → Except Failure α) (s : Session) :
    outcome (ask question) s = outcome (answer (question s.tree)) s := by
  have hask : ask question = get >>= fun t => answer (question t.tree) := by
    unfold ask answer
    rfl
  rw [hask, outcome_bind]
  rfl

/-- The answer to a call on a target. -/
def answerAt (target : Target) (call : Location → Node → Except Failure Node) (tree : Node) :
    Except Failure Node :=
  match target.location with
  | some location => call location tree
  | none => .error (.system .noEntry)

theorem outcome_callOn (target : Target) (call : Location → Node → Except Failure Node)
    (s : Session) :
    outcome (callOn target call) s =
      match answerAt target call s.tree with
      | .ok tree => (.ok none, { s with tree })
      | .error (.system error) => (.ok (some error), s)
      | .error (.crash fault) => (.error (.crash fault), s)
      | .error .interrupt => (.error .interrupt, s) := by
  show outcome (ask (answerAt target call) >>= _) s = _
  rw [outcome_bind, outcome_ask]
  cases answerAt target call s.tree with
  | ok tree => rfl
  | error failure => cases failure <;> rfl

/-! ### Paired work -/

/-- From related sessions, two pieces of work end alike, with a result of some kind if they have
one, and the sessions are related again. -/
def Paired (R : Session → Session → Prop) (Result : α → Prop) (work work' : Work α) : Prop :=
  ∀ s s', R s s' →
    (outcome work s).1 = (outcome work' s').1 ∧
      (∀ a, (outcome work s).1 = .ok a → Result a) ∧
      R (outcome work s).2 (outcome work' s').2

/-- No more is said of a result. -/
abbrev Any (_ : α) : Prop := True

variable {R : Session → Session → Prop}

theorem paired_pure {P : α → Prop} {a : α} (h : P a) : Paired R P (pure a : Work α) (pure a) := by
  intro s s' hs
  refine ⟨rfl, fun b hb => ?_, hs⟩
  cases hb
  exact h

theorem paired_throw {P : α → Prop} (abort : Abort) :
    Paired R P (throw abort : Work α) (throw abort) := by
  intro s s' hs
  refine ⟨rfl, fun b hb => ?_, hs⟩
  cases hb

theorem paired_bind {P : α → Prop} {Q : β → Prop} {work work' : Work α} {next next' : α → Work β}
    (h : Paired R P work work') (hnext : ∀ a, P a → Paired R Q (next a) (next' a)) :
    Paired R Q (work >>= next) (work' >>= next') := by
  intro s s' hs
  obtain ⟨hresult, hP, hs'⟩ := h s s' hs
  rw [outcome_bind, outcome_bind]
  cases hwork : outcome work s with
  | mk result t =>
    cases hwork' : outcome work' s' with
    | mk result' t' =>
      rw [hwork, hwork'] at hresult hs'
      rw [hwork] at hP
      obtain rfl : result = result' := hresult
      cases result with
      | ok a => exact hnext a (hP a rfl) t t' hs'
      | error abort =>
        refine ⟨rfl, fun b hb => ?_, hs'⟩
        cases hb

theorem Paired.mono {P Q : α → Prop} {work work' : Work α} (h : Paired R P work work')
    (hPQ : ∀ a, P a → Q a) : Paired R Q work work' := by
  intro s s' hs
  obtain ⟨hresult, hP, hs'⟩ := h s s' hs
  exact ⟨hresult, fun a ha => hPQ a (hP a ha), hs'⟩

theorem paired_modify {f f' : Session → Session} (h : ∀ s s', R s s' → R (f s) (f' s')) :
    Paired R Any (modify f : Work Unit) (modify f') :=
  fun s s' hs => ⟨rfl, fun _ _ => trivial, h s s' hs⟩

/-- Work that goes on from the session, where other work goes on without it. -/
theorem paired_get_left {P : α → Prop} {next : Session → Work α} {work : Work α}
    (h : ∀ s s', R s s' → Paired R P (next s) work) : Paired R P (get >>= next) work :=
  fun s s' hs => h s s' hs s s' hs

theorem paired_get {P : α → Prop} {next next' : Session → Work α}
    (h : ∀ s s', R s s' → Paired R P (next s) (next' s')) :
    Paired R P (get >>= next) (get >>= next') :=
  fun s s' hs => h s s' hs s s' hs

/-- Questions that the trees of related sessions answer alike, with an answer of some kind. -/
theorem paired_ask (P : α → Prop) {question question' : Node → Except Failure α}
    (h : ∀ s s', R s s' → question s.tree = question' s'.tree ∧
      ∀ a, question s.tree = .ok a → P a) :
    Paired R (fun reply => ∀ a, reply = .ok a → P a) (ask question) (ask question') := by
  intro s s' hs
  obtain ⟨hsame, hP⟩ := h s s' hs
  rw [outcome_ask, outcome_ask, ← hsame]
  cases hquestion : question s.tree with
  | ok a =>
    refine ⟨rfl, fun reply hreply b hb => ?_, hs⟩
    cases hreply
    cases hb
    exact hP a hquestion
  | error failure =>
    cases failure with
    | system error =>
      refine ⟨rfl, fun reply hreply b hb => ?_, hs⟩
      cases hreply
      cases hb
    | crash fault =>
      refine ⟨rfl, fun reply hreply => ?_, hs⟩
      cases hreply
    | interrupt =>
      refine ⟨rfl, fun reply hreply => ?_, hs⟩
      cases hreply

theorem paired_ask_any {question question' : Node → Except Failure α}
    (h : ∀ s s', R s s' → question s.tree = question' s'.tree) :
    Paired R Any (ask question) (ask question') :=
  (paired_ask Any fun s s' hs => ⟨h s s' hs, fun _ _ => trivial⟩).mono fun _ _ => trivial

/-- An operation is told in a dry run, and otherwise recorded, carried out and told. -/
theorem paired_operate {manner manner' : Manner} (hdry : manner.dryRun = manner'.dryRun)
    {target : Target} {would done : Event} {made : Call}
    {call : Location → Node → Except Failure Node}
    (hwould : manner.dryRun = true → Paired R Any (report manner would) (report manner' would))
    (hmade : manner.dryRun = false → Paired R Any (recordCall made) (recordCall made))
    (hcall : manner.dryRun = false → Paired R Any (callOn target call) (callOn target call))
    (hdone : manner.dryRun = false → Paired R Any (report manner done) (report manner' done)) :
    Paired (α := Option SystemError) R Any
      (do
        if manner.dryRun then
          report manner would
          return none
        else
          recordCall made
          let error ← callOn target call
          if error.isNone then report manner done
          return error)
      (do
        if manner'.dryRun then
          report manner' would
          return none
        else
          recordCall made
          let error ← callOn target call
          if error.isNone then report manner' done
          return error) := by
  rw [← hdry]
  cases h : manner.dryRun with
  | true => exact paired_bind (hwould h) fun _ _ => paired_pure trivial
  | false =>
    refine paired_bind (hmade h) fun _ _ => paired_bind (hcall h) fun error _ => ?_
    split
    · exact paired_bind (hdone h) fun _ _ => paired_pure trivial
    · exact paired_pure trivial

/-! ### Invariants of work -/

/-- The work keeps what holds of a session. -/
abbrev Keeps (Inv : Session → Prop) (work : Work α) : Prop :=
  Paired (fun s s' => s = s' ∧ Inv s) Any work work

variable {Inv : Session → Prop}

theorem keeps_modify {f : Session → Session} (h : ∀ s, Inv s → Inv (f s)) :
    Keeps Inv (modify f : Work Unit) := by
  refine paired_modify fun s s' hs => ?_
  obtain ⟨rfl, hInv⟩ := hs
  exact ⟨rfl, h s hInv⟩

theorem keeps_report (manner : Manner) {event : Event}
    (h : ∀ s, Inv s → Inv { s with events := s.events ++ [event] }) :
    Keeps Inv (report manner event) := by
  refine keeps_modify fun s hInv => ?_
  split
  · exact h s hInv
  · exact hInv

theorem keeps_callOn (target : Target) (call : Location → Node → Except Failure Node)
    (h : ∀ s tree, Inv s → Inv { s with tree }) : Keeps Inv (callOn target call) := by
  intro s s' hs
  obtain ⟨rfl, hInv⟩ := hs
  refine ⟨rfl, fun _ _ => trivial, rfl, ?_⟩
  rw [outcome_callOn]
  cases answerAt target call s.tree with
  | ok tree => exact h s tree hInv
  | error failure => cases failure <;> exact hInv

/-- An operation keeps what its report keeps in a dry run, and what its record, the call and the
report of its success keep otherwise. -/
theorem keeps_operation (manner : Manner) (target : Target) {would done : Event} {made : Call}
    {call : Location → Node → Except Failure Node}
    (hwould : manner.dryRun = true → ∀ s, Inv s → Inv { s with events := s.events ++ [would] })
    (hmade : manner.dryRun = false → ∀ s, Inv s → Inv { s with calls := s.calls ++ [made] })
    (hcall : manner.dryRun = false → ∀ s tree, Inv s → Inv { s with tree })
    (hdone : manner.dryRun = false → ∀ s, Inv s → Inv { s with events := s.events ++ [done] }) :
    Keeps (α := Option SystemError) Inv do
      if manner.dryRun then
        report manner would
        return none
      else
        recordCall made
        let error ← callOn target call
        if error.isNone then report manner done
        return error :=
  paired_operate rfl (fun hdry => keeps_report manner (hwould hdry))
    (fun hdry => keeps_modify (hmade hdry)) (fun hdry => keeps_callOn target call (hcall hdry))
    fun hdry => keeps_report manner (hdone hdry)

end Work

theorem FileType.exists_kind (kind : EntryKind) : ∃ type : FileType, type.kind = kind := by
  cases kind with
  | file => exact ⟨.regular, rfl⟩
  | directory => exact ⟨.directory, rfl⟩
  | symlink => exact ⟨.symlink, rfl⟩
  | other => exact ⟨.fifo, rfl⟩

/-- The event tells of a change, made or only foretold. -/
def Event.tellsChange : Event → Bool
  | .ownerChanged .. | .modeChanged .. | .wouldChangeOwner .. | .wouldChangeMode .. => true
  | _ => false

namespace Walk

open Work

theorem eq_directory_of_kind {type : FileType} (h : type.kind = .directory) :
    type = .directory := by
  cases type <;> first | rfl | cases h

/-- The last report, of what was counted. -/
def complete (walk : Walk) : Work Unit := do
  report walk.manner (.walkComplete (← get).stats)

/-- Two walks by one table are paired in all that they do. What a walk learns of the type of an
entry is a `Fact` that its later steps may rely on: only a directory is listed, and an entry that is
given to a role was looked at. -/
structure Parallel (R : Session → Session → Prop) (Fact : Location → FileType → Prop)
    (walk walk' : Walk) : Prop where
  table : walk.table = walk'.table
  root : walk.root = walk'.root
  stats : ∀ {s s'}, R s s' → s.stats = s'.stats
  count : ∀ f, Paired R Any (Work.count f) (Work.count f)
  report : ∀ event, event.tellsChange = false →
    Paired R Any (Work.report walk.manner event) (Work.report walk'.manner event)
  statRoot : ∀ s s', R s s' → s.tree.statRoot = s'.tree.statRoot ∧
    ∀ type, s.tree.statRoot = .ok type → Fact [] type
  lstat : ∀ location s s', R s s' → s.tree.lstat location = s'.tree.lstat location ∧
    ∀ type, s.tree.lstat location = .ok type → Fact location type
  list : ∀ location, Fact location .directory → ∀ s s', R s s' →
    s.tree.list location = s'.tree.list location
  applyRole : ∀ location entry role rule, walk.table.decide entry = .apply role rule →
    (∃ type, Fact location type ∧ type.kind = entry.kind) →
    Paired R Any (applyRole walk location entry role) (applyRole walk' location entry role)

namespace Parallel

variable {R : Session → Session → Prop} {Fact : Location → FileType → Prop} {walk walk' : Walk}
  (parallel : Parallel R Fact walk walk')

include parallel

theorem complete : Paired R Any (complete walk) (complete walk') := by
  refine paired_get fun s s' hs => ?_
  rw [parallel.stats hs]
  exact parallel.report _ rfl

theorem skip {event : Event} (hevent : event.tellsChange = false) :
    Paired R Any (skip walk event) (skip walk' event) :=
  paired_bind (parallel.count _) fun _ _ => parallel.report _ hevent

theorem handle {location : Location} {entry : Entry}
    (hfact : ∃ type, Fact location type ∧ type.kind = entry.kind) :
    Paired R Any (handle walk location entry) (handle walk' location entry) := by
  refine paired_bind (parallel.count _) fun _ _ => ?_
  rw [← parallel.table]
  cases hdecide : walk.table.decide entry with
  | apply role rule =>
    refine paired_bind (parallel.count _) fun _ _ =>
      paired_bind (parallel.report _ rfl) fun _ _ => ?_
    exact parallel.applyRole location entry role rule hdecide hfact
  | leave rule => exact paired_bind (parallel.count _) fun _ _ => parallel.report _ rfl
  | unmatched => exact paired_bind (parallel.count _) fun _ _ => parallel.report _ rfl

theorem enter {location : Location} (path : Text) (hfact : Fact location .directory) :
    Paired R Any (enter walk location path) (enter walk' location path) := by
  refine paired_bind (parallel.handle ⟨_, hfact, rfl⟩) fun _ _ => ?_
  refine paired_bind (paired_ask_any (parallel.list location hfact)) fun reply _ => ?_
  cases reply with
  | ok names => exact paired_pure trivial
  | error error =>
    refine paired_bind (parallel.count _) fun _ _ =>
      paired_bind (parallel.report _ rfl) fun _ _ => ?_
    exact paired_pure trivial

theorem visit (location : Location) (path : Text) :
    Paired R Any (visit walk location path) (visit walk' location path) := by
  refine paired_bind (paired_ask (Fact location) (parallel.lstat location)) fun reply hreply => ?_
  cases reply with
  | error error => exact paired_bind (parallel.skip rfl) fun _ _ => paired_pure trivial
  | ok type =>
    have hfact : Fact location type := hreply type rfl
    dsimp only
    cases hkind : type.kind with
    | symlink => exact paired_bind (parallel.skip rfl) fun _ _ => paired_pure trivial
    | other => exact paired_bind (parallel.skip rfl) fun _ _ => paired_pure trivial
    | file =>
      exact paired_bind (parallel.handle ⟨type, hfact, hkind⟩) fun _ _ => paired_pure trivial
    | directory =>
      obtain rfl : type = .directory := eq_directory_of_kind hkind
      exact parallel.enter _ hfact

theorem descend (steps : Nat) (stack : List Frame) :
    Paired R Any (descend walk steps stack) (descend walk' steps stack) := by
  induction steps generalizing stack with
  | zero => exact paired_pure trivial
  | succ steps ih =>
    match stack with
    | [] => exact paired_pure trivial
    | ⟨location, path, []⟩ :: stack => exact ih stack
    | ⟨location, path, name :: names⟩ :: stack =>
      exact paired_bind (parallel.visit _ _) fun child _ => ih _

theorem checkRoot :
    Paired R (fun _ => Fact [] .directory) (checkRoot walk) (checkRoot walk') := by
  refine paired_bind (paired_ask (Fact []) parallel.statRoot) fun reply hreply => ?_
  rw [← parallel.root]
  cases reply with
  | error error => exact paired_throw _
  | ok type =>
    dsimp only
    split
    · next htype => exact paired_pure (htype ▸ hreply type rfl)
    · exact paired_throw _

theorem listRoot (hfact : Fact [] .directory) :
    Paired R Any (listRoot walk) (listRoot walk') := by
  refine paired_bind (paired_ask_any (parallel.list [] hfact)) fun reply _ => ?_
  rw [← parallel.root]
  cases reply with
  | error error => exact paired_throw _
  | ok names => exact paired_pure trivial

/-- Parallel walks over trees of one size come to the same end. -/
theorem run (hsize : ∀ {s s'}, R s s' → s.tree.size = s'.tree.size) :
    Paired R Any (run walk) (run walk') := by
  refine paired_bind parallel.checkRoot fun _ hfact => ?_
  refine paired_bind (parallel.handle ⟨_, hfact, rfl⟩) fun _ _ => ?_
  refine paired_bind (parallel.listRoot hfact) fun names _ => ?_
  refine paired_get fun s s' hs => ?_
  rw [hsize hs]
  exact paired_bind (parallel.descend _ _) fun _ _ => parallel.complete

end Parallel

/-! ### Invariants of a walk -/

/-- What each step of a walk keeps: to count, to report what is no change, and to operate on an
entry that is given to a role. -/
structure Invariant (walk : Walk) (Inv : Session → Prop) : Prop where
  count : ∀ s (f : Stats → Stats), Inv s → Inv { s with stats := f s.stats }
  report : ∀ s event, event.tellsChange = false → Inv s →
      Inv { s with events := s.events ++ [event] }
  chown : ∀ location entry role rule, walk.table.decide entry = .apply role rule →
    Keeps Inv (Work.chown walk.manner (walk.target location) role.userId role.groupId)
  chmod : ∀ location entry role rule mode, walk.table.decide entry = .apply role rule →
    role.modeFor entry.isDirectory = some mode →
    Keeps Inv (Work.chmod walk.manner (walk.target location) (mode : Nat))

namespace Invariant

variable {walk : Walk} {Inv : Session → Prop} (invariant : walk.Invariant Inv)

include invariant

theorem keeps_count (f : Stats → Stats) : Keeps Inv (Work.count f) :=
  keeps_modify fun s => invariant.count s f

theorem keeps_reportFailure (path : Text) (operation : OperationName)
    (error : Option SystemError) : Keeps Inv (reportFailure walk path operation error) := by
  cases error with
  | none => exact paired_pure trivial
  | some error =>
    refine paired_bind (invariant.keeps_count _) fun _ _ => ?_
    exact keeps_report _ fun s => invariant.report s _ rfl

theorem keeps_applyRole (location : Location) {entry : Entry} {role : Role} {rule : Rule}
    (h : walk.table.decide entry = .apply role rule) :
    Keeps Inv (applyRole walk location entry role) := by
  obtain ⟨mode, hmode, happly⟩ := @applyRole_of_decide walk location entry role rule h
  rw [happly]
  refine paired_bind (invariant.chown location entry role rule h) fun chownError _ => ?_
  refine paired_bind (invariant.chmod location entry role rule mode h hmode) fun chmodError _ => ?_
  exact paired_bind (invariant.keeps_reportFailure _ _ _) fun _ _ =>
    invariant.keeps_reportFailure _ _ _

theorem parallel : Parallel (fun s s' => s = s' ∧ Inv s) (fun _ _ => True) walk walk where
  table := rfl
  root := rfl
  stats hs := congrArg (·.stats) hs.1
  count := invariant.keeps_count
  report event hevent := keeps_report _ fun s => invariant.report s event hevent
  statRoot _ _ hs := ⟨congrArg (·.tree.statRoot) hs.1, fun _ _ => trivial⟩
  lstat location _ _ hs := ⟨congrArg (·.tree.lstat location) hs.1, fun _ _ => trivial⟩
  list location _ _ _ hs := congrArg (·.tree.list location) hs.1
  applyRole location _ _ _ hdecide _ := invariant.keeps_applyRole location hdecide

/-- What holds at the beginning of a walk and is kept by each step holds at its end, however it
ends. -/
theorem traverse {tree : Node} (hstart : Inv (.start tree)) : Inv (traverse walk tree).2 := by
  obtain ⟨-, -, -, hInv⟩ :=
    invariant.parallel.run (fun hs => congrArg (·.tree.size) hs.1) _ _ ⟨rfl, hstart⟩
  exact hInv

end Invariant

end Walk

end PathRights
