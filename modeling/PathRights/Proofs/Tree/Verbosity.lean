import PathRights.Proofs.Log.Frame
import PathRights.Proofs.Tree.Pairing
import PathRights.Run.Normalize

/-! What a walk tells of itself, and what it does. A walk that tells everything goes beside the same
walk under another threshold, or one that does not tell every decision: the two do the same, and the
log of the second is that of the first without the records that it does not ask for. -/

namespace PathRights

/-! ### Records of events -/

/-- The record tells of the decision for an entry. -/
def Log.Record.tellsDecision (record : Log.Record) : Bool :=
  record.message == "Applying role".toList || record.message == "No-op rule matched".toList

@[simp] theorem Event.level_record (event : Event) (around : Log.Context) :
    (event.record around).level = event.level := rfl

/-- The events that only verbose walks tell are known by their messages. -/
theorem Event.tellsDecision_record (event : Event) (around : Log.Context) :
    (event.record around).tellsDecision = event.isVerbose := by
  unfold Log.Record.tellsDecision record
  dsimp only
  cases event with
  | operationFailed operation path error => cases operation <;> rfl
  | _ => rfl

theorem Log.Threshold.admits_ofLevel (threshold level : Level) :
    (ofLevel threshold).admits level = decide (threshold.number ≤ level.number) := by
  cases threshold <;> rfl

namespace Walk

open Work

/-- The walk as one that tells every decision or not, to a log with a threshold. -/
def telling (walk : Walk) (verbose : Bool) (threshold : Log.Threshold) : Walk :=
  { walk with manner := { walk.manner with verbose, threshold } }

/-- The walk as one that tells everything. -/
def tellingAll (walk : Walk) : Walk := walk.telling true (.ofLevel .debug)

theorem reports_telling (walk : Walk) (verbose : Bool) (threshold : Log.Threshold) (event : Event) :
    (walk.telling verbose threshold).manner.reports event =
      (threshold.admits event.level && (verbose || !event.isVerbose)) := rfl

theorem reports_tellingAll (walk : Walk) (event : Event) :
    walk.tellingAll.manner.reports event = true := by
  unfold tellingAll
  rw [reports_telling, Log.Threshold.admits_ofLevel]
  cases event.level <;> rfl

/-! ### Two walks -/

/-- A session of a walk of some manner, and one of the same walk that tells everything. They differ
in what is told only, and the first has told what its manner asks for. -/
structure Hushed (manner : Manner) (s all : Session) : Prop where
  tree : s.tree = all.tree
  calls : s.calls = all.calls
  stats : s.stats = all.stats
  events : s.events = all.events.filter manner.reports

section

variable {walk : Walk} {verbose : Bool} {threshold : Log.Threshold}

theorem paired_report_telling (event : Event) :
    Paired (Hushed (walk.telling verbose threshold).manner) Any
      (Work.report (walk.telling verbose threshold).manner event)
      (Work.report walk.tellingAll.manner event) := by
  refine paired_modify fun s all hs => ?_
  rw [reports_tellingAll]
  have hevents := hs.events
  cases hreports : (walk.telling verbose threshold).manner.reports event with
  | true => exact ⟨hs.tree, hs.calls, hs.stats, by simp [hevents, hreports]⟩
  | false => exact ⟨hs.tree, hs.calls, hs.stats, by simp [hevents, hreports]⟩

theorem paired_count_telling (f : Stats → Stats) :
    Paired (Hushed (walk.telling verbose threshold).manner) Any (Work.count f) (Work.count f) :=
  paired_modify fun _ _ hs => ⟨hs.tree, hs.calls, congrArg f hs.stats, hs.events⟩

theorem paired_recordCall_telling (call : Call) :
    Paired (Hushed (walk.telling verbose threshold).manner) Any (recordCall call)
      (recordCall call) :=
  paired_modify fun _ _ hs => ⟨hs.tree, congrArg (· ++ [call]) hs.calls, hs.stats, hs.events⟩

theorem paired_callOn_telling (target : Target) (call : Location → Node → Except Failure Node) :
    Paired (Hushed (walk.telling verbose threshold).manner) Any (callOn target call)
      (callOn target call) := by
  intro s all hs
  rw [outcome_callOn, outcome_callOn, hs.tree]
  cases answerAt target call all.tree with
  | ok tree => exact ⟨rfl, fun _ _ => trivial, rfl, hs.calls, hs.stats, hs.events⟩
  | error failure => cases failure <;> exact ⟨rfl, fun _ _ => trivial, hs⟩

theorem paired_reportFailure_telling (path : Text) (operation : OperationName)
    (error : Option SystemError) :
    Paired (Hushed (walk.telling verbose threshold).manner) Any
      (reportFailure (walk.telling verbose threshold) path operation error)
      (reportFailure walk.tellingAll path operation error) := by
  cases error with
  | none => exact paired_pure trivial
  | some error => exact paired_bind (paired_count_telling _) fun _ _ => paired_report_telling _

theorem paired_applyRole_telling (location : Location) {entry : Entry} {role : Role} {rule : Rule}
    (h : walk.table.decide entry = .apply role rule) :
    Paired (Hushed (walk.telling verbose threshold).manner) Any
      (applyRole (walk.telling verbose threshold) location entry role)
      (applyRole walk.tellingAll location entry role) := by
  have hoperate (target : Target) (would done : Event) (made : Call)
      (call : Location → Node → Except Failure Node) :=
    paired_operate (R := Hushed (walk.telling verbose threshold).manner)
      (show (walk.telling verbose threshold).manner.dryRun = walk.tellingAll.manner.dryRun from rfl)
      (fun _ => paired_report_telling would) (fun _ => paired_recordCall_telling made)
      (fun _ => paired_callOn_telling target call) fun _ => paired_report_telling done
  obtain ⟨mode, hmode, happly⟩ :=
    @applyRole_of_decide (walk.telling verbose threshold) location entry role rule h
  obtain ⟨mode', hmode', happly'⟩ := @applyRole_of_decide walk.tellingAll location entry role rule h
  obtain rfl : mode = mode' := Option.some.inj (hmode.symm.trans hmode')
  rw [happly, happly']
  refine paired_bind (hoperate _ _ _ _ _) fun _ _ => paired_bind (hoperate _ _ _ _ _) fun _ _ => ?_
  exact paired_bind (paired_reportFailure_telling _ _ _) fun _ _ =>
    paired_reportFailure_telling _ _ _

theorem parallel_telling (walk : Walk) (verbose : Bool) (threshold : Log.Threshold) :
    Parallel (Hushed (walk.telling verbose threshold).manner) (fun _ _ => True)
      (walk.telling verbose threshold) walk.tellingAll where
  table := rfl
  root := rfl
  stats hs := hs.stats
  count := paired_count_telling
  report event _ := paired_report_telling event
  statRoot _ _ hs := ⟨congrArg (·.statRoot) hs.tree, fun _ _ => trivial⟩
  lstat location _ _ hs := ⟨congrArg (·.lstat location) hs.tree, fun _ _ => trivial⟩
  list location _ _ _ hs := congrArg (·.list location) hs.tree
  applyRole location _ _ _ hdecide _ := paired_applyRole_telling location hdecide

end

/-- What a walk comes to under a manner of telling: the same as a walk that tells everything, but
for the events that are not asked for. -/
theorem traverse_telling (walk : Walk) (tree : Node) (verbose : Bool) (threshold : Log.Threshold) :
    (walk.telling verbose threshold).traverse tree =
      ((walk.tellingAll.traverse tree).1,
        { (walk.tellingAll.traverse tree).2 with
          events := (walk.tellingAll.traverse tree).2.events.filter
            (walk.telling verbose threshold).manner.reports }) := by
  obtain ⟨hresult, -, htree, hcalls, hstats, hevents⟩ :=
    (parallel_telling walk verbose threshold).run (fun hs => congrArg (·.size) hs.tree)
      (.start tree) (.start tree) ⟨rfl, rfl, rfl, rfl⟩
  refine Prod.ext hresult ?_
  have heta (s : Session) : s = ⟨s.tree, s.calls, s.events, s.stats⟩ := rfl
  rw [heta ((walk.telling verbose threshold).traverse tree).2]
  exact (congrArg₂ (Session.mk · · _ _) htree hcalls).trans
    (congrArg₂ (Session.mk _ _ · ·) hevents hstats)

/-! ### The log -/

/-- The log of a walk: the records of what it tells. -/
def log (walk : Walk) (tree : Node) : List Log.Record :=
  (walk.traverse tree).2.events.map (·.record [("root", .str walk.rootPath)])

/-- The log of a walk is that of one that tells everything, without the records that are not asked
for. -/
theorem log_telling (walk : Walk) (tree : Node) (verbose : Bool) (threshold : Log.Threshold) :
    (walk.telling verbose threshold).log tree =
      (walk.tellingAll.log tree).filter fun record =>
        threshold.admits record.level && (verbose || !record.tellsDecision) := by
  unfold log
  rw [traverse_telling, List.filter_map]
  refine congrArg (List.map _) (List.filter_congr fun event _ => ?_)
  dsimp only [Function.comp]
  rw [Event.tellsDecision_record]
  rfl

theorem reports_of_mem_events (walk : Walk) (tree : Node) {event : Event}
    (h : event ∈ (walk.traverse tree).2.events) : walk.manner.reports event = true := by
  have hsame := walk.traverse_telling tree walk.manner.verbose walk.manner.threshold
  change walk.traverse tree = _ at hsame
  rw [hsame] at h
  exact (List.mem_filter.1 h).2

/-- The journal of a run writes the log of a walk to the console, a line for each record. -/
theorem console_recordEvents (walk : Walk) (tree : Node) (time : Text) (output : Log.Output) :
    (Run.recordEvents (.start Run.journalName time walk.manner.threshold) walk.rootPath
        (walk.traverse tree).2.events output).console =
      output.console ++ (walk.log tree).map (·.line time Run.journalName) := by
  unfold Run.recordEvents log
  dsimp only
  generalize hjournal : Log.Journal.push _ _ = journal
  have hcontext : journal.context = [("root".toList, Value.str walk.rootPath)] := by
    rw [← hjournal]
    rfl
  have hline (record : Log.Record) :
      record.line journal.time journal.title = record.line time Run.journalName := by
    rw [← hjournal]
    rfl
  have hadmits : ∀ event ∈ (walk.traverse tree).2.events, journal.admits event.level = true := by
    intro event hmem
    rw [← hjournal]
    exact (Bool.and_eq_true_iff.1 (walk.reports_of_mem_events tree hmem)).1
  rw [hcontext]
  generalize (walk.traverse tree).2.events = events at hadmits ⊢
  induction events generalizing output with
  | nil => exact (List.append_nil _).symm
  | cons event events ih =>
    rw [List.forall_mem_cons] at hadmits
    rw [List.foldl_cons, ih _ hadmits.2, Log.Journal.console_emit, Event.level_record,
      if_pos hadmits.1, hline, List.append_nil, List.append_assoc]
    rfl

/-- Which records a walk is asked for has no influence on what it does. The log at a level holds the
records of the whole log that have at least this level, without verbosity it lacks the records of
decisions and no others, and it is what the journal writes. -/
theorem verbosity_changes_only_the_log (walk : Walk) (tree : Node) (verbose verbose' : Bool)
    (threshold threshold' : Log.Threshold) :
    let told := (walk.telling verbose threshold).traverse tree
    let told' := (walk.telling verbose' threshold').traverse tree
    (told.1 = told'.1 ∧ told.2.stats = told'.2.stats ∧ told.2.calls = told'.2.calls ∧
      told.2.tree = told'.2.tree) ∧
    (∀ level : Log.Level, (walk.telling verbose (.ofLevel level)).log tree =
      ((walk.telling verbose (.ofLevel .debug)).log tree).filter fun record =>
        level.number ≤ record.level.number) ∧
    (walk.telling false threshold).log tree =
      ((walk.telling true threshold).log tree).filter (fun record => !record.tellsDecision) ∧
    ∀ time output, (Run.recordEvents (.start Run.journalName time threshold) walk.rootPath
        told.2.events output).console =
      output.console ++
        ((walk.telling verbose threshold).log tree).map (·.line time Run.journalName) := by
  intro told told'
  have htold : told = _ := walk.traverse_telling tree verbose threshold
  have htold' : told' = _ := walk.traverse_telling tree verbose' threshold'
  refine ⟨?_, fun level => ?_, ?_, (walk.telling verbose threshold).console_recordEvents tree⟩
  · rw [htold, htold']
    exact ⟨rfl, rfl, rfl, rfl⟩
  · rw [log_telling, log_telling, List.filter_filter]
    refine List.filter_congr fun record _ => ?_
    rw [Log.Threshold.admits_ofLevel, Log.Threshold.admits_ofLevel]
    cases record.level <;> simp [Log.Level.number]
  · rw [log_telling, log_telling, List.filter_filter]
    refine List.filter_congr fun record _ => ?_
    simp [Bool.and_comm]

end Walk

end PathRights
