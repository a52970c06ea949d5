import PathRights.Proofs.Tree.Effect
import PathRights.Proofs.Tree.Visit

/-! What a walk counts, calls and tells, visit by visit. Every visit has an account of its own,
which can be read off the answers in it: `tally` is what it adds to the counts, `calls` are the
calls that it makes and `events` is what it tells, its warnings last. `Yields` finds the account of
a list of deeds piece by piece, and the accounts of all visits add up to what the walk leaves
behind. -/

namespace PathRights

open Deed Node Walk Work

/-! ### Sums of counts -/

namespace Stats

/-- Two sets of counts together. -/
def add (a b : Stats) : Stats :=
  ⟨a.visited + b.visited, a.applied + b.applied, a.noOp + b.noOp, a.unmatched + b.unmatched,
    a.skipped + b.skipped, a.unreadable + b.unreadable, a.failures + b.failures⟩

theorem add_assoc (a b c : Stats) : (a.add b).add c = a.add (b.add c) := by
  simp [add, Nat.add_assoc]

@[simp] theorem add_zero (a : Stats) : a.add .zero = a := rfl

@[simp] theorem zero_add (a : Stats) : add .zero a = a := by simp [add, zero]

/-- The counts of several visits together. -/
def sum (counts : List Stats) : Stats := counts.foldr add .zero

/-- A number that adds up over two sets of counts adds up over all. -/
theorem apply_sum {c : Stats → Nat} (hzero : c .zero = 0)
    (hadd : ∀ a b, c (a.add b) = c a + c b) (counts : List Stats) :
    c (sum counts) = (counts.map c).sum := by
  induction counts with
  | nil => exact hzero
  | cons first rest ih =>
    show c (first.add (sum rest)) = _
    rw [hadd, ih, List.map_cons, List.sum_cons]

end Stats

/-! ### Accounts of deeds -/

namespace Deed

variable {manner : Manner} {deeds more : List Deed} {stats stats' : Stats}
  {calls calls' : List Call} {events events' : List Event}

/-- Deeds that are all done add this much to the counts, make these calls and have these events to
tell. -/
def Yields (manner : Manner) (deeds : List Deed) (stats : Stats) (calls : List Call)
    (events : List Event) : Prop :=
  ∀ s s', carryOut manner deeds s = (.ok (), s') →
    s'.stats = s.stats.add stats ∧ s'.calls = s.calls ++ calls ∧
      s'.events = s.events ++ events.filter manner.reports

theorem yields_nil : Yields manner [] .zero [] [] := by
  intro s s' h
  obtain rfl : s = s' := congrArg Prod.snd h
  simp

theorem Yields.append (h : Yields manner deeds stats calls events)
    (hmore : Yields manner more stats' calls' events') :
    Yields manner (deeds ++ more) (stats.add stats') (calls ++ calls') (events ++ events') := by
  intro s s' hboth
  rw [carryOut_append] at hboth
  rcases hdeeds : carryOut manner deeds s with ⟨result, t⟩
  rw [hdeeds] at hboth
  cases result with
  | error reason => cases hboth
  | ok _ =>
    obtain ⟨hstats, hcalls, hevents⟩ := h s t hdeeds
    obtain ⟨hstats', hcalls', hevents'⟩ := hmore t s' hboth
    refine ⟨?_, ?_, ?_⟩
    · rw [hstats', hstats, Stats.add_assoc]
    · rw [hcalls', hcalls, List.append_assoc]
    · rw [hevents', hevents, List.append_assoc, List.filter_append]

theorem yields_count {f : Stats → Stats} (h : ∀ s, f s = s.add stats) :
    Yields manner [.count f] stats [] [] := by
  intro s s' hdone
  obtain rfl : apply manner (.count f) s = s' := congrArg Prod.snd hdone
  simp [apply, change?, call?, told, counted, h]

theorem yields_report (event : Event) : Yields manner [.report event] .zero [] [event] := by
  intro s s' hdone
  obtain rfl : apply manner (.report event) s = s' := congrArg Prod.snd hdone
  cases hreports : manner.reports event <;>
    simp [apply, change?, call?, told, counted, Option.filter, hreports]

theorem yields_call (made : Call) : Yields manner [.call made] .zero [made] [] := by
  intro s s' hdone
  obtain rfl : apply manner (.call made) s = s' := congrArg Prod.snd hdone
  simp [apply, change?, call?, told, counted]

theorem yields_changes (changed : List (Location × Int)) :
    Yields manner (changed.map fun (location, mode) => .change location mode) .zero [] [] := by
  intro s s' hdone
  rw [carryOut_changes] at hdone
  cases hdone
  simp

theorem yields_count_report {f : Stats → Stats} (h : ∀ s, f s = s.add stats) (event : Event) :
    Yields manner [.count f, .report event] stats [] [event] :=
  (yields_count h).append (yields_report event)

/-- Of deeds that end the work anything can be said. -/
theorem yields_abort (reason : Abort) :
    Yields manner (.abort reason :: deeds) stats calls events := by
  intro s s' hdone
  rw [carryOut_cons] at hdone
  cases hdone

end Deed

/-! ### Accounts of visits -/

/-- What a decision counts as. -/
def Decision.counts : Decision → Stats
  | .apply .. => { Stats.zero with visited := 1, applied := 1 }
  | .leave _ => { Stats.zero with visited := 1, noOp := 1 }
  | .unmatched => { Stats.zero with visited := 1, unmatched := 1 }

/-- What tells of a call that a dry run does not make. -/
def Call.foretelling : Call → Event
  | .chown path uid gid => .wouldChangeOwner path uid gid
  | .chmod path mode => .wouldChangeMode path mode

/-- What tells of a call that succeeds. -/
def Call.success : Call → Event
  | .chown path uid gid => .ownerChanged path uid gid
  | .chmod path mode => .modeChanged path mode

/-- The error of the system in an answer. -/
def Failure.errorOf? {α : Type} : Except Failure α → Option SystemError
  | .ok _ => none
  | .error failure => failure.error?

namespace Visit

variable (walk : Walk) (v : Visit)

/-- The decision on the entry, if it is handled. -/
def decision? : Option Decision := v.handled?.map walk.table.decide

/-- The path by which the entry is told of; that of a directory which is handled ends with `/`. -/
def entryPath : Text := v.handled?.elim v.path (·.path)

/-- The calls that the decision asks for. -/
def due : List Call :=
  match v.handled? with
  | none => []
  | some entry =>
    match walk.table.decide entry with
    | .apply role _ =>
      let path := Path.below walk.rootPath v.location
      [.chown path role.userId role.groupId, .chmod path (modeOf role entry)]
    | .leave _ | .unmatched => []

/-- The calls that are made. -/
def calls : List Call := if walk.manner.dryRun then [] else v.due walk

/-- The error that a call gets. -/
def error? : Call → Option SystemError
  | .chown .. => Failure.errorOf? (v.before.chown v.location)
  | .chmod _ mode => Failure.errorOf? (v.before.chmod v.location mode)

/-- The calls that fail, with their errors. -/
def failed : List (Call × SystemError) :=
  (v.calls walk).filterMap fun made => (v.error? made).map (made, ·)

/-- The names that a listing returns. -/
def names : List Text :=
  match v.listed? with
  | some (.ok names) => names
  | _ => []

/-- The error of a listing that fails. -/
def unread? : Option SystemError := v.listed?.bind Failure.errorOf?

/-- The error with which looking at the entry fails. -/
def uninspected? : Option SystemError := Failure.errorOf? v.found

/-- The event that tells of a symbolic link or of a special file. -/
def skipped? : Option Event :=
  match v.found with
  | .error _ => none
  | .ok type =>
    match type.kind with
    | .symlink => some (.skippedSymlink v.path)
    | .other => some (.skippedSpecial v.path)
    | .file | .directory => none

/-- What the visit adds to the counts. -/
def tally : Stats :=
  { (v.decision? walk).elim { Stats.zero with skipped := 1 } Decision.counts with
    unreadable := v.unread?.toList.length
    failures := (v.failed walk).length }

/-- What is told of the calls that the decision asks for. -/
def attempts : List Event :=
  if walk.manner.dryRun then (v.due walk).map Call.foretelling
  else ((v.due walk).filter fun made => (v.error? made).isNone).map Call.success

/-- What is told of a decision that some rule makes. -/
def told : List Event :=
  match v.decision? walk with
  | some (.apply role rule) =>
    .applyingRole v.entryPath role.name rule.describe :: v.attempts walk
  | some (.leave rule) => [.noOpMatched v.entryPath rule.describe]
  | some .unmatched | none => []

/-- The warnings: one for an entry that cannot be looked at, for one that no rule is for, for each
call that fails, and for a directory that cannot be listed. -/
def warnings : List Event :=
  (v.uninspected?.map (.cannotInspect v.path)).toList ++
    (if v.decision? walk = some .unmatched then [.noRuleMatched v.entryPath] else []) ++
    (v.failed walk).map (fun (made, error) =>
      .operationFailed (operationOf made).1 v.entryPath error) ++
    (v.unread?.map (.cannotReadDirectory v.entryPath)).toList

/-- All that the visit has to tell. -/
def events : List Event := v.skipped?.toList ++ v.told walk ++ v.warnings walk

end Visit

namespace Deed

variable {manner : Manner}

theorem yields_callDeeds (failure : Option Failure) (changed : List (Location × Int)) :
    Yields manner (callDeeds failure changed) .zero [] [] := by
  cases failure with
  | none => exact yields_changes changed
  | some failure =>
    cases failure with
    | system error => exact yields_nil
    | crash fault => exact yields_abort _
    | interrupt => exact yields_abort _

theorem yields_operationDeeds (would done : Event) (made : Call) (failure : Option Failure)
    (changed : List (Location × Int)) :
    Yields manner (operationDeeds manner would done made failure changed) .zero
      (if manner.dryRun then [] else [made])
      (if manner.dryRun then [would]
        else if (failure.bind Failure.error?).isNone then [done] else []) := by
  unfold operationDeeds
  split
  · exact yields_report would
  · have hdone : Yields manner
        (if (failure.bind Failure.error?).isNone then [.report done] else []) .zero []
        (if (failure.bind Failure.error?).isNone then [done] else []) := by
      split
      · exact yields_report done
      · exact yields_nil
    exact (yields_call made).append ((yields_callDeeds failure changed).append hdone)

theorem yields_failureDeeds (path : Text) (operation : OperationName) (error : Option SystemError) :
    Yields manner (failureDeeds path operation error)
      { Stats.zero with failures := error.toList.length } []
      (error.toList.map (.operationFailed operation path)) := by
  cases error with
  | none => exact yields_nil
  | some error => exact yields_count_report (fun _ => by rfl) _

end Deed

namespace Visit

variable {walk : Walk} {v : Visit}

theorem errorOf?_map {α β : Type} (answer : Except Failure α) (f : α → β) :
    Failure.errorOf? (answer.map f) = Failure.errorOf? answer := by
  cases answer <;> rfl

theorem errorOf?_reach {node : Node} {failure : Failures → Option Failure}
    (hresolve : v.before.resolve v.location = .ok node) :
    Failure.errorOf? (v.before.reach v.location failure) =
      (failure node.failures).bind Failure.error? := by
  rw [reach_of_resolve hresolve]
  cases failure node.failures <;> rfl

/-- The calls of a role. -/
theorem yields_roleDeeds {node : Node} {role : Role} (entry : Entry)
    (hdue : v.due walk = [.chown (Path.below walk.rootPath v.location) role.userId role.groupId,
      .chmod (Path.below walk.rootPath v.location) (modeOf role entry)])
    (hresolve : v.before.resolve v.location = .ok node) :
    Yields walk.manner (roleDeeds walk v.location entry v.failures role)
      { Stats.zero with failures := (v.failed walk).length } (v.calls walk)
      (v.attempts walk ++ (v.failed walk).map fun (made, error) =>
        .operationFailed (operationOf made).1 entry.path error) := by
  have hchown (path : Text) (uid gid : Int) :
      v.error? (.chown path uid gid) = v.failures.chown.bind Failure.error? := by
    rw [failures_of_resolve hresolve, ← errorOf?_reach hresolve]
    exact errorOf?_map _ _
  -- the change of the owner leaves the tree as it is, so both calls can be tried on the one before
  have hchmod (path : Text) (mode : Int) :
      v.error? (.chmod path mode) = v.failures.chmod.bind Failure.error? := by
    rw [failures_of_resolve hresolve, ← errorOf?_reach hresolve]
    exact errorOf?_map _ _
  have hall : Yields walk.manner (roleDeeds walk v.location entry v.failures role) _ _ _ :=
    (yields_operationDeeds _ _ _ _ _).append ((yields_operationDeeds _ _ _ _ _).append
      ((yields_failureDeeds _ _ _).append (yields_failureDeeds _ _ _)))
  unfold operationError at hall
  unfold failed calls attempts
  rw [hdue]
  cases hdry : walk.manner.dryRun with
  | true => simpa [hdry, Call.foretelling, Stats.add, Stats.zero] using hall
  | false =>
    cases howner : v.failures.chown.bind Failure.error? <;>
      cases hmode : v.failures.chmod.bind Failure.error? <;>
      simpa [hdry, hchown, hchmod, howner, hmode, Call.success, operationOf, Stats.add, Stats.zero]
        using hall

/-- An entry that is handled. -/
theorem yields_handleDeeds {node : Node} {entry : Entry} (hentry : v.handled? = some entry)
    (hresolve : v.before.resolve v.location = .ok node) :
    Yields walk.manner (handleDeeds walk v.location entry v.failures)
      { (walk.table.decide entry).counts with failures := (v.failed walk).length } (v.calls walk)
      (v.told walk ++
        (if v.decision? walk = some .unmatched then [.noRuleMatched v.entryPath] else []) ++
        (v.failed walk).map fun (made, error) =>
          .operationFailed (operationOf made).1 v.entryPath error) := by
  have hdecision : v.decision? walk = some (walk.table.decide entry) := by
    unfold decision?
    rw [hentry]
    rfl
  have hpath : v.entryPath = entry.path := by
    unfold entryPath
    rw [hentry]
    rfl
  have hvisited : Yields walk.manner [.count fun s => { s with visited := s.visited + 1 }]
      { Stats.zero with visited := 1 } [] [] := yields_count fun _ => rfl
  unfold handleDeeds told
  rw [hdecision, hpath]
  dsimp only
  cases hdecide : walk.table.decide entry with
  | leave rule =>
    have hleft : Yields walk.manner
        [.count fun s => { s with noOp := s.noOp + 1 },
          .report (.noOpMatched entry.path rule.describe)]
        { Stats.zero with noOp := 1 } [] _ := yields_count_report (fun _ => by rfl) _
    have hdue : v.due walk = [] := by simp [due, hentry, hdecide]
    simpa [Decision.counts, Stats.add, Stats.zero, failed, calls, hdue] using hvisited.append hleft
  | unmatched =>
    have hunmatched : Yields walk.manner
        [.count fun s => { s with unmatched := s.unmatched + 1 },
          .report (.noRuleMatched entry.path)]
        { Stats.zero with unmatched := 1 } [] _ := yields_count_report (fun _ => by rfl) _
    have hdue : v.due walk = [] := by simp [due, hentry, hdecide]
    simpa [Decision.counts, Stats.add, Stats.zero, failed, calls, hdue]
      using hvisited.append hunmatched
  | apply role rule =>
    have happlied : Yields walk.manner
        [.count fun s => { s with applied := s.applied + 1 },
          .report (.applyingRole entry.path role.name rule.describe)]
        { Stats.zero with applied := 1 } [] _ := yields_count_report (fun _ => by rfl) _
    have hdue : v.due walk = [.chown (Path.below walk.rootPath v.location) role.userId role.groupId,
        .chmod (Path.below walk.rootPath v.location) (modeOf role entry)] := by
      simp [due, hentry, hdecide]
    simpa [Decision.counts, Stats.add, Stats.zero]
      using hvisited.append (happlied.append (yields_roleDeeds entry hdue hresolve))

section

variable (hhandled : v.handled? = none)

include hhandled

theorem decision?_eq_none (walk : Walk) : v.decision? walk = none := by simp [decision?, hhandled]

theorem calls_eq_nil (walk : Walk) : v.calls walk = [] := by simp [calls, due, hhandled]

theorem unread?_eq_none : v.unread? = none := by
  have hfound : v.found ≠ .ok .directory := by
    intro hfound
    unfold handled? at hhandled
    rw [hfound] at hhandled
    cases hhandled
  simp [unread?, listed?_eq_none hfound]

/-- Of an entry that is not handled there is nothing to tell but the reason. -/
theorem events_of_unhandled (walk : Walk) :
    v.events walk = v.skipped?.toList ++ (v.uninspected?.map (.cannotInspect v.path)).toList := by
  simp [events, told, warnings, decision?_eq_none hhandled, failed, calls_eq_nil hhandled,
    unread?_eq_none hhandled]

/-- A visit to an entry that is not handled. -/
theorem yields_of_skip (event : Event) (hstops : v.stops = [.skip event])
    (hevent : v.skipped?.toList ++ (v.uninspected?.map (.cannotInspect v.path)).toList = [event]) :
    Yields walk.manner (v.deeds walk) (v.tally walk) (v.calls walk) (v.events walk) := by
  have htally : v.tally walk = { Stats.zero with skipped := 1 } := by
    simp [tally, decision?_eq_none hhandled, failed, calls_eq_nil hhandled,
      unread?_eq_none hhandled, Stats.zero]
  unfold deeds
  rw [hstops, List.flatMap_singleton, events_of_unhandled hhandled, hevent, htally,
    calls_eq_nil hhandled]
  exact yields_count_report (fun _ => by rfl) event

end

/-- A visit to an entry that is handled, and then listed if it is a directory. -/
theorem yields_of_handle {node : Node} {entry : Entry} (listing : List Deed)
    (hhandled : v.handled? = some entry) (hresolve : v.before.resolve v.location = .ok node)
    (hdeeds : v.deeds walk = handleDeeds walk v.location entry v.failures ++ listing)
    (hlisting : Yields walk.manner listing
      { Stats.zero with unreadable := v.unread?.toList.length } []
      (v.unread?.map (.cannotReadDirectory v.entryPath)).toList)
    (hevent : v.skipped?.toList ++ (v.uninspected?.map (.cannotInspect v.path)).toList = []) :
    Yields walk.manner (v.deeds walk) (v.tally walk) (v.calls walk) (v.events walk) := by
  have hdecision : v.decision? walk = some (walk.table.decide entry) := by
    simp [decision?, hhandled]
  obtain ⟨hskipped, huninspected⟩ := List.append_eq_nil_iff.1 hevent
  have htally : v.tally walk = Stats.add
      { (walk.table.decide entry).counts with failures := (v.failed walk).length }
      { Stats.zero with unreadable := v.unread?.toList.length } := by
    cases hdecide : walk.table.decide entry <;>
      simp [tally, hdecision, hdecide, Decision.counts, Stats.add, Stats.zero]
  have hboth : Yields walk.manner (handleDeeds walk v.location entry v.failures ++ listing) _ _ _ :=
    (yields_handleDeeds hhandled hresolve).append hlisting
  rw [hdeeds, htally]
  unfold events warnings
  rw [hskipped, huninspected]
  simpa using hboth

/-- What a visit does is what its account says. -/
theorem yields_deeds
    (hreached : ∀ type, v.found = .ok type → ∃ node, v.before.resolve v.location = .ok node) :
    Yields walk.manner (v.deeds walk) (v.tally walk) (v.calls walk) (v.events walk) := by
  cases hfound : v.found with
  | error failure =>
    have hstops : v.stops =
        [.ofFailure (fun error => .skip (.cannotInspect v.path error)) failure] := by
      simp [stops, hfound]
    cases failure with
    | system error =>
      exact yields_of_skip (by simp [handled?, hfound]) _ hstops
        (by simp [skipped?, uninspected?, hfound, Failure.errorOf?, Failure.error?])
    | crash fault =>
      unfold deeds
      rw [hstops]
      exact yields_abort _
    | interrupt =>
      unfold deeds
      rw [hstops]
      exact yields_abort _
  | ok type =>
    obtain ⟨node, hresolve⟩ := hreached type hfound
    have huninspected : v.uninspected? = none := by simp [uninspected?, hfound, Failure.errorOf?]
    cases hkind : type.kind with
    | symlink =>
      exact yields_of_skip (by simp [handled?, hfound, hkind]) (.skippedSymlink v.path)
        (by simp [stops, hfound, hkind]) (by simp [skipped?, hfound, hkind, huninspected])
    | other =>
      exact yields_of_skip (by simp [handled?, hfound, hkind]) (.skippedSpecial v.path)
        (by simp [stops, hfound, hkind]) (by simp [skipped?, hfound, hkind, huninspected])
    | file =>
      have hhandled : v.handled? = some ⟨v.path, .file⟩ := by simp [handled?, hfound, hkind]
      have hfound' : v.found ≠ .ok .directory := by
        rw [hfound]
        rintro ⟨⟩
        cases hkind
      have hunread : v.unread? = none := by simp [unread?, listed?_eq_none hfound']
      refine yields_of_handle [] hhandled hresolve
        (by simp [deeds, stops, hfound, hkind, Stop.deeds]) ?_
        (by simp [skipped?, hfound, hkind, huninspected])
      rw [hunread]
      exact yields_nil
    | directory =>
      obtain rfl := eq_directory_of_kind hkind
      have hhandled : v.handled? = some ⟨v.path ++ "/", .directory⟩ := by
        simp [handled?, hfound, hkind]
      have hunread : v.unread? = Failure.errorOf? (v.after.list v.location) := by
        simp [unread?, listed?, hfound]
      have hpath : v.entryPath = v.path ++ "/" := by simp [entryPath, hhandled]
      refine yields_of_handle _ hhandled hresolve
        (by unfold deeds; rw [stops_directory hfound, List.flatMap_cons]; rfl) ?_
        (by simp [skipped?, hfound, hkind, huninspected])
      rw [hunread, hpath]
      cases v.after.list v.location with
      | ok names => exact yields_nil
      | error failure =>
        cases failure with
        | system error => exact yields_count_report (fun _ => by rfl) _
        | crash fault => exact yields_abort _
        | interrupt => exact yields_abort _

end Visit

/-! ### Accounts of walks -/

/-- The accounts of visits add up to what is new from one session to another. -/
structure Accounted (walk : Walk) (visits : List Visit) (s s' : Session) : Prop where
  stats : s'.stats = s.stats.add (.sum (visits.map (·.tally walk)))
  calls : s'.calls = s.calls ++ visits.flatMap (·.calls walk)
  events : s'.events = s.events ++ (visits.flatMap (·.events walk)).filter walk.manner.reports

theorem Accounted.refl (walk : Walk) (s : Session) : Accounted walk [] s s :=
  ⟨rfl, (List.append_nil _).symm, (List.append_nil _).symm⟩

theorem Visit.Made.accounted {walk : Walk} {v : Visit} {visits : List Visit} {s t s' : Session}
    (h : v.Made walk s t) (hrest : Accounted walk visits t s') :
    Accounted walk (v :: visits) s s' := by
  obtain ⟨hstats, hcalls, hevents⟩ := v.yields_deeds h.reached s t h.done
  refine ⟨?_, ?_, ?_⟩
  · rw [hrest.stats, hstats, Stats.add_assoc]
    rfl
  · rw [hrest.calls, hcalls, List.append_assoc]
    rfl
  · rw [hrest.events, hevents, List.append_assoc, List.flatMap_cons, List.filter_append]

namespace Walk

variable {walk : Walk}

theorem Descends.accounted {stack : List Frame} {visits : List Visit} {s s' : Session}
    (h : Descends walk stack visits s s') : Accounted walk visits s s' := by
  induction h with
  | done s => exact .refl walk s
  | leave _ ih => exact ih
  | visit _ _ made _ ih => exact made.accounted ih

theorem Returns.accounted {tree : Node} {names : List Text} {below : List Visit} {s t : Session}
    (h : Returns walk tree names below s t) :
    Accounted walk (walk.visits tree) (.start tree) t := by
  rw [h.visits]
  exact h.root.accounted h.below.accounted

end Walk

end PathRights
