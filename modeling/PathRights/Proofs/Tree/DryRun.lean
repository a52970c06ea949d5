import PathRights.Proofs.Tree.Access
import PathRights.Proofs.Tree.Effect

/-! Dry runs. A dry run changes nothing, so it sees the tree as it was, where the walk in earnest
sees what it has made of it. The two see the same as long as the walk in earnest takes from no
directory the bits that let its owner list and pass it, and no call fails: then the dry run
foretells the calls. -/

namespace PathRights

/-! ### Foretelling -/

/-- The call that the event of a dry run tells of in its stead. -/
def Event.foretold? : Event → Option Call
  | .wouldChangeOwner path uid gid => some (.chown path uid gid)
  | .wouldChangeMode path mode => some (.chmod path mode)
  | _ => none

theorem Event.tellsChange_of_foretold? {event : Event} {call : Call}
    (h : event.foretold? = some call) : event.tellsChange = true := by
  cases event <;> first | rfl | cases h

theorem Event.foretold?_of_tellsChange {event : Event} (h : event.tellsChange = false) :
    event.foretold? = none := by
  cases event <;> first | rfl | cases h

theorem Manner.reports_of_foretold? (manner : Manner) {event : Event} {call : Call}
    (h : event.foretold? = some call) : manner.reports event = manner.threshold.admits .info := by
  have hplain : event.level = .info ∧ event.isVerbose = false := by
    cases event <;> first | exact ⟨rfl, rfl⟩ | cases h
  rw [reports, hplain.1, hplain.2, Bool.not_false, Bool.or_true, Bool.and_true]

/-- The calls that a dry run foretells by its events. -/
def foretold (events : List Event) : List Call := events.filterMap Event.foretold?

/-- The events that tell of something else than a change. -/
def remarks (events : List Event) : List Event := events.filter fun event => !event.tellsChange

theorem foretold_append (events more : List Event) :
    foretold (events ++ more) = foretold events ++ foretold more := List.filterMap_append

theorem remarks_append (events more : List Event) :
    remarks (events ++ more) = remarks events ++ remarks more := List.filter_append ..

/-- No role that the rules give takes from the owner of a directory the right to list or to pass
it. -/
def RuleTable.LetsOwnersEnter (table : RuleTable) : Prop :=
  ∀ rule ∈ table.rules, ∀ role, rule.role = some role → role.directoryMode &&& 0o500 = 0o500

namespace Walk

open Node Work

/-- The walk as a dry run, or in earnest. -/
def withDryRun (walk : Walk) (dryRun : Bool) : Walk :=
  { walk with manner := { walk.manner with dryRun } }

/-- A session of a dry run over a tree, and one of the walk in earnest: the first has touched
nothing and has foretold the calls of the second. -/
structure Linked (walk : Walk) (tree : Node) (s s' : Session) : Prop where
  untouched : s.tree = tree
  uncalled : s.calls = []
  ready : Ready tree s'.tree
  stats : s.stats = s'.stats
  told : foretold s.events = if walk.manner.threshold.admits .info then s'.calls else []
  remarks : remarks s.events = remarks s'.events

variable {walk : Walk} {tree : Node}

theorem Linked.addEvent {s s' : Session} (h : Linked walk tree s s') {event : Event}
    (hevent : event.tellsChange = false) :
    Linked walk tree { s with events := s.events ++ [event] }
      { s' with events := s'.events ++ [event] } where
  untouched := h.untouched
  uncalled := h.uncalled
  ready := h.ready
  stats := h.stats
  told := by
    have hnone : foretold [event] = [] := by simp [foretold, Event.foretold?_of_tellsChange hevent]
    rw [foretold_append, hnone, List.append_nil]
    exact h.told
  remarks := by
    rw [remarks_append, remarks_append, h.remarks]

/-- An operation that the dry run tells of and the walk in earnest carries out. -/
theorem Linked.operation {s s' : Session} (h : Linked walk tree s s') {would done : Event}
    {made : Call} {now : Node} (hwould : would.foretold? = some made)
    (hdone : done.tellsChange = true) (hnow : Ready tree now) :
    Linked walk tree
      { s with
        events := if walk.manner.reports would then s.events ++ [would] else s.events }
      { s' with
        tree := now
        calls := s'.calls ++ [made]
        events := if walk.manner.reports done then s'.events ++ [done] else s'.events } where
  untouched := h.untouched
  uncalled := h.uncalled
  ready := hnow
  stats := h.stats
  told := by
    have htold := h.told
    rw [Manner.reports_of_foretold? _ hwould]
    cases hinfo : walk.manner.threshold.admits .info with
    | true =>
      rw [hinfo] at htold
      have hlast : foretold [would] = [made] := by simp [foretold, hwould]
      rw [if_pos rfl, foretold_append, hlast, htold]
      rfl
    | false =>
      rw [hinfo] at htold
      exact htold
  remarks := by
    have hsilent {event : Event} (hchange : event.tellsChange = true) (events : List Event)
        (reports : Bool) :
        PathRights.remarks (if reports then events ++ [event] else events) =
          PathRights.remarks events := by
      cases reports with
      | true =>
        have hnone : PathRights.remarks [event] = [] := by simp [PathRights.remarks, hchange]
        rw [if_pos rfl, remarks_append, hnone, List.append_nil]
      | false => rfl
    rw [hsilent (Event.tellsChange_of_foretold? hwould), hsilent hdone]
    exact h.remarks

/-- What an operation that succeeds makes of a session. -/
theorem outcome_operation (manner : Manner) {path : Text} {place : Location} {done : Event}
    {made : Call} {call : Location → Node → Except Failure Node} {s : Session} {now : Node}
    (hcall : call place s.tree = .ok now) :
    outcome (do
        recordCall made
        let error ← callOn ⟨path, some place⟩ call
        if error.isNone then report manner done
        return error) s =
      (.ok none, ⟨now, s.calls ++ [made],
        if manner.reports done then s.events ++ [done] else s.events, s.stats⟩) := by
  rw [outcome_bind]
  show outcome (callOn ⟨path, some place⟩ call >>= _) { s with calls := s.calls ++ [made] } = _
  rw [outcome_bind, outcome_callOn]
  simp only [answerAt, hcall]
  show outcome (report manner done >>= _) _ = _
  rw [outcome_bind]
  show (_, ite _ _ _) = _
  split <;> rfl

theorem linked_start (walk : Walk) {tree : Node} (haccessible : tree.Accessible) :
    Linked walk tree (.start tree) (.start tree) :=
  ⟨rfl, rfl, .refl haccessible, rfl, by cases walk.manner.threshold.admits .info <;> rfl, rfl⟩

/-- What a walk learns of an entry: its type, which no walk changes. -/
def HasType (tree : Node) (place : Location) (type : FileType) : Prop :=
  (tree.at? place).map (·.type) = some type

theorem hasType_of_reach {place : Location} {failure : Failures → Option Failure} {type : FileType}
    (h : (tree.reach place failure).map (·.type) = .ok type) : HasType tree place type := by
  cases hreach : tree.reach place failure with
  | error _ =>
    rw [hreach] at h
    cases h
  | ok node =>
    rw [hreach] at h
    cases h
    rw [HasType, at?_of_reach hreach]
    rfl

theorem paired_operation {would done : Event} {made : Call} {path : Text} {place : Location}
    {call : Location → Node → Except Failure Node} (hwould : would.foretold? = some made)
    (hdone : done.tellsChange = true)
    (hcall : ∀ now, Ready tree now → ∃ now', call place now = .ok now' ∧ Ready tree now') :
    Paired (Linked walk tree) (· = none)
      (do
        report (walk.withDryRun true).manner would
        return (none : Option SystemError))
      (do
        recordCall made
        let error ← callOn ⟨path, some place⟩ call
        if error.isNone then report (walk.withDryRun false).manner done
        return error) := by
  intro s s' hs
  obtain ⟨now, hnow, hready⟩ := hcall s'.tree hs.ready
  rw [outcome_operation _ hnow]
  refine ⟨rfl, fun error herror => (Except.ok.inj herror).symm, ?_⟩
  have hlinked := hs.operation hwould hdone hready
  show Linked walk tree (if walk.manner.reports would then _ else s) _
  cases hreports : walk.manner.reports would with
  | true =>
    rw [hreports] at hlinked
    exact hlinked
  | false =>
    rw [hreports] at hlinked
    exact hlinked

section

variable (haccessible : tree.Accessible) (hroles : walk.table.LetsOwnersEnter)

include hroles in
theorem ownerEnters_of_decide {entry : Entry} {role : Role} {rule : Rule} {mode : Nat}
    (hdecide : walk.table.decide entry = .apply role rule) (hdirectory : entry.kind = .directory)
    (hmode : role.modeFor entry.isDirectory = some mode) : ownerEnters (mode : Nat) := by
  obtain ⟨hmem, -, hrole⟩ := RuleTable.rule_of_decide hdecide
  have hgiven : role.modeFor entry.isDirectory = some role.directoryMode := by
    unfold Entry.isDirectory
    rw [hdirectory]
    rfl
  rw [Option.some.inj (hmode.symm.trans hgiven)]
  exact ownerEnters_of_and (hroles rule hmem role hrole)

include hroles in
theorem paired_applyRole {place : Location} {entry : Entry} {role : Role} {rule : Rule}
    (hdecide : walk.table.decide entry = .apply role rule)
    (hfact : ∃ type, HasType tree place type ∧ type.kind = entry.kind) :
    Paired (Linked walk tree) Any (applyRole (walk.withDryRun true) place entry role)
      (applyRole (walk.withDryRun false) place entry role) := by
  obtain ⟨type, htype, hkind⟩ := hfact
  have hreach {now : Node} (hready : Ready tree now) (failure : Failures → Option Failure)
      (hfailure : failure .none = none) : ∃ node, now.reach place failure = .ok node := by
    rcases hready.at?_cases place with ⟨hnone, -⟩ | ⟨node, node', htree, hnow, -, -⟩
    · rw [HasType, hnone] at htype
      cases htype
    · exact ⟨node', by rw [hready.accessible.reach_eq hfailure, hnow]; rfl⟩
  have hchown : Paired (Linked walk tree) (· = none)
      (chown (walk.withDryRun true).manner (walk.target place) role.userId role.groupId)
      (chown (walk.withDryRun false).manner (walk.target place) role.userId role.groupId) := by
    refine paired_operation rfl rfl fun now hready => ?_
    obtain ⟨node, hnode⟩ := hreach hready (·.chown) rfl
    exact ⟨now, by unfold Node.chown; rw [hnode]; rfl, hready⟩
  obtain ⟨mode, hmode, hdry⟩ :=
    @applyRole_of_decide (walk.withDryRun true) place entry role rule hdecide
  obtain ⟨mode', hmode', hreal⟩ :=
    @applyRole_of_decide (walk.withDryRun false) place entry role rule hdecide
  obtain rfl : mode = mode' := Option.some.inj (hmode.symm.trans hmode')
  have hchmod : Paired (Linked walk tree) (· = none)
      (chmod (walk.withDryRun true).manner (walk.target place) (mode : Nat))
      (chmod (walk.withDryRun false).manner (walk.target place) (mode : Nat)) := by
    refine paired_operation rfl rfl fun now hready => ?_
    obtain ⟨node, hnode⟩ := hreach hready (·.chmod) rfl
    refine ⟨_, by unfold Node.chmod; rw [hnode]; rfl, hready.setMode htype fun hdirectory => ?_⟩
    exact ownerEnters_of_decide hroles hdecide (by rw [← hkind, hdirectory]; rfl) hmode
  rw [hdry, hreal]
  refine paired_bind hchown fun chownError hnone => paired_bind hchmod fun chmodError hnone' => ?_
  subst hnone hnone'
  exact paired_pure trivial

include haccessible hroles

/-- A dry run goes beside the walk in earnest. -/
theorem parallel_withDryRun :
    Parallel (Linked walk tree) (HasType tree) (walk.withDryRun true) (walk.withDryRun false) where
  table := rfl
  root := rfl
  stats hs := hs.stats
  count f := paired_modify fun s s' hs =>
    ⟨hs.untouched, hs.uncalled, hs.ready, congrArg f hs.stats, hs.told, hs.remarks⟩
  report event hevent := by
    refine paired_modify fun s s' hs => ?_
    show Linked walk tree (if walk.manner.reports event then _ else s)
      (if walk.manner.reports event then _ else s')
    split
    · exact hs.addEvent hevent
    · exact hs
  statRoot s s' hs := by
    rw [hs.untouched]
    exact ⟨hs.ready.type_reach_eq haccessible rfl [], fun _ => hasType_of_reach⟩
  lstat place s s' hs := by
    rw [hs.untouched]
    exact ⟨hs.ready.type_reach_eq haccessible rfl place, fun _ => hasType_of_reach⟩
  list place htype s s' hs := by
    rw [hs.untouched]
    exact hs.ready.list_eq haccessible htype
  applyRole place entry role rule hdecide hfact := paired_applyRole hroles hdecide hfact

end

/-! ### The entries that are handled -/

theorem entered_of_ownerEnters {walk : Walk} {entry : Entry} {node : Node}
    (hlist : node.failures.list = none) (hmode : ownerEnters (settledMode walk entry node))
    (place : Location) (stop : SystemError → Stop) (inside : Int → List Stop) :
    entered walk place entry node stop inside =
      .handle place entry node.failures :: inside (settledMode walk entry node) := by
  have hlisting : listing (settledMode walk entry node) node = .ok () := by
    unfold listing
    rw [hlist]
    exact if_pos hmode.1
  unfold entered
  dsimp only
  rw [hlisting]

/-- In directories that their owner may pass, a dry run stops where the walk in earnest does, if it
does so at each entry. -/
theorem stopsIn_withDryRun {walk : Walk} {node : Node} (haccessible : node.Accessible)
    (hnames : node.DistinctNames)
    (h : ∀ child ∈ node.children, child.Accessible → child.DistinctNames → ∀ place path,
      stopsAt (walk.withDryRun true) true place path child =
        stopsAt (walk.withDryRun false) true place path child)
    {mode mode' : Int} (hmode : ownerEnters mode) (hmode' : ownerEnters mode') (place : Location)
    (path : Text) :
    stopsIn (walk.withDryRun true) (ownerPasses mode) place path node.inNameOrder =
      stopsIn (walk.withDryRun false) (ownerPasses mode') place path node.inNameOrder := by
  rw [stopsIn_eq_flatMap, stopsIn_eq_flatMap, hmode.2, hmode'.2]
  refine List.flatMap_congr fun child hmem => ?_
  have hchild : child ∈ node.children := List.mem_mergeSort.1 hmem
  have hfound : node.child? child.name = some child := child?_eq_some (hnames [] node rfl) hchild
  exact h child hchild (haccessible.child hfound) (hnames.child hfound) _ _

section

variable {walk : Walk} (hroles : walk.table.LetsOwnersEnter)

include hroles

theorem ownerEnters_settledMode {node : Node} (haccessible : node.Accessible)
    (htype : node.type = .directory) {entry : Entry} (hentry : entry.kind = .directory)
    (dryRun : Bool) : ownerEnters (settledMode (walk.withDryRun dryRun) entry node) := by
  have hnode : ownerEnters node.mode := haccessible.root.enters htype
  unfold settledMode
  split
  · next role rule hdecide =>
    split
    · exact hnode
    · obtain ⟨mode, hmode⟩ := walk.givesModes.modeFor hdecide
      rw [modeOf_eq hmode]
      exact ownerEnters_of_decide hroles hdecide hentry hmode
  · exact hnode
  · exact hnode

theorem traverse_of_accessible {tree : Node} (haccessible : tree.Accessible)
    (htype : tree.type = .directory) (dryRun : Bool) :
    ((walk.withDryRun dryRun).traverse tree).1 = .ok () := by
  have hfailures : tree.failures = .none := haccessible.root.failures
  have hmode : ownerEnters (settledMode (walk.withDryRun dryRun) ⟨"/", .directory⟩ tree) :=
    ownerEnters_settledMode hroles haccessible htype rfl dryRun
  rw [traverse_eq_entering _ haccessible.foreseen, entering, hfailures]
  dsimp only [Failures.none]
  rw [if_pos htype, listing, hfailures]
  dsimp only [Failures.none]
  rw [if_pos hmode.1]
  rfl

theorem stopsAt_withDryRun {node : Node} (haccessible : node.Accessible)
    (hnames : node.DistinctNames) (passable : Bool) (place : Location) (path : Text) :
    stopsAt (walk.withDryRun true) passable place path node =
      stopsAt (walk.withDryRun false) passable place path node := by
  induction node using Node.induct generalizing passable place path with
  | h node ih =>
    have hinside {mode mode' : Int} (hmode : ownerEnters mode) (hmode' : ownerEnters mode') :=
      stopsIn_withDryRun haccessible hnames
        (fun child hmem haccessible hnames => ih child hmem haccessible hnames true) hmode hmode'
    rw [stopsAt, stopsAt, haccessible.root.failures]
    split
    · dsimp only [Failures.none]
      cases hkind : node.type.kind with
      | symlink => rfl
      | other => rfl
      | file => rfl
      | directory =>
        have htype : node.type = .directory := eq_directory_of_kind hkind
        have hentry : (entryOf path node.type).kind = .directory := by
          rw [entryOf_directory hkind]
        have hmode := ownerEnters_settledMode hroles haccessible htype hentry
        have hlist : node.failures.list = none := by rw [haccessible.root.failures]; rfl
        dsimp only
        rw [entered_of_ownerEnters hlist (hmode true), entered_of_ownerEnters hlist (hmode false),
          hinside (hmode true) (hmode false)]
    · rfl

/-- A dry run stops where the walk in earnest does. -/
theorem stops_withDryRun {tree : Node} (haccessible : tree.Accessible)
    (hnames : tree.DistinctNames) :
    stops (walk.withDryRun true) tree = stops (walk.withDryRun false) tree := by
  have hfailures : tree.failures = .none := haccessible.root.failures
  unfold stops
  rw [hfailures]
  dsimp only [Failures.none]
  split
  · next htype =>
    have hentry : (entryOf [] tree.type).kind = .directory := by
      rw [entryOf_directory (by rw [htype]; rfl)]
    have hmode := ownerEnters_settledMode hroles haccessible htype hentry
    have hlist : tree.failures.list = none := by rw [hfailures]; rfl
    have hinside := stopsIn_withDryRun haccessible hnames (fun child _ haccessible hnames =>
      stopsAt_withDryRun hroles haccessible hnames true) (hmode true) (hmode false) [] []
    rw [entered_of_ownerEnters hlist (hmode true), entered_of_ownerEnters hlist (hmode false),
      hinside]
  · rfl

end

/-! ### Dry runs -/

/-- A dry run makes no call and leaves the tree alone. -/
structure ChangesNothing (tree : Node) (s : Session) : Prop where
  calls : s.calls = []
  tree : s.tree = tree

theorem invariant_changesNothing (walk : Walk) (tree : Node) :
    (walk.withDryRun true).Invariant (ChangesNothing tree) where
  count _ _ h := ⟨h.calls, h.tree⟩
  report _ _ _ h := ⟨h.calls, h.tree⟩
  chown _ _ _ _ _ := keeps_operation _ _ (fun _ _ h => ⟨h.calls, h.tree⟩) nofun nofun nofun
  chmod _ _ _ _ _ _ _ := keeps_operation _ _ (fun _ _ h => ⟨h.calls, h.tree⟩) nofun nofun nofun

/-- A dry run changes nothing. Where no call fails, the owner may list and pass all directories, and
no role takes that from a directory, it ends as the walk in earnest does, counts the same, tells the
same of the entries, handles the same ones in the same order, and foretells the calls, unless the
journal does not admit what is told of them. -/
theorem dryRun_foretells_calls (walk : Walk) (tree : Node) :
    let dry := (walk.withDryRun true).traverse tree
    let real := (walk.withDryRun false).traverse tree
    (dry.2.calls = [] ∧ dry.2.tree = tree) ∧
      (tree.Accessible → walk.table.LetsOwnersEnter →
        dry.1 = real.1 ∧ (tree.type = .directory → dry.1 = .ok ()) ∧ dry.2.stats = real.2.stats ∧
          foretold dry.2.events =
            (if walk.manner.threshold.admits .info then real.2.calls else []) ∧
          remarks dry.2.events = remarks real.2.events ∧
          (tree.DistinctNames →
            handled (walk.withDryRun true) tree = handled (walk.withDryRun false) tree)) := by
  intro dry real
  have hnothing : ChangesNothing tree dry.2 :=
    (invariant_changesNothing walk tree).traverse ⟨rfl, rfl⟩
  refine ⟨⟨hnothing.calls, hnothing.tree⟩, fun haccessible hroles => ?_⟩
  obtain ⟨hresult, -, hlinked⟩ := (parallel_withDryRun haccessible hroles).run
    (fun hs => (congrArg size hs.untouched).trans hs.ready.size.symm) _ _
    (linked_start walk haccessible)
  refine ⟨hresult, fun htype => traverse_of_accessible hroles haccessible htype true,
    hlinked.stats, hlinked.told, hlinked.remarks, fun hnames => ?_⟩
  exact congrArg handledAt (stops_withDryRun hroles haccessible hnames)

/-- A tree with a directory that its owner may enter. -/
def openTree : Node :=
  ⟨[], .directory, 0o755, .none,
    [⟨"a", .directory, 0o700, .none, [⟨"c", .regular, 0, .none, []⟩]⟩]⟩

theorem accessible_openTree : openTree.Accessible := by
  refine .of_children ⟨rfl, fun _ => ⟨by decide, by decide⟩⟩ fun child hchild => ?_
  obtain rfl := List.mem_singleton.1 hchild
  refine .of_children ⟨rfl, fun _ => ⟨by decide, by decide⟩⟩ fun child hchild => ?_
  obtain rfl := List.mem_singleton.1 hchild
  exact .of_children ⟨rfl, fun h => by cases h⟩ fun _ h => absurd h List.not_mem_nil

theorem dryRun_foretells_calls_openTree :
    openTree.Accessible ∧ openingWalk.table.LetsOwnersEnter ∧ openTree.DistinctNames ∧
      foretold ((openingWalk.withDryRun true).traverse openTree).2.events =
        ((openingWalk.withDryRun false).traverse openTree).2.calls ∧
      ((openingWalk.withDryRun false).traverse openTree).2.calls =
        [.chown "/srv" 1 2, .chmod "/srv" 0o755, .chown "/srv/a" 1 2, .chmod "/srv/a" 0o755] ∧
      handled (openingWalk.withDryRun true) openTree =
        handled (openingWalk.withDryRun false) openTree := by
  have hroles : openingWalk.table.LetsOwnersEnter := by
    intro rule hrule role hrole
    obtain rfl := List.mem_singleton.1 hrule
    obtain rfl := Option.some.inj hrole
    decide
  have hnames : openTree.DistinctNames := by
    refine distinctNames_of_children (by decide) fun child hchild => ?_
    obtain rfl := List.mem_singleton.1 hchild
    refine distinctNames_of_children (by decide) fun child hchild => ?_
    obtain rfl := List.mem_singleton.1 hchild
    exact distinctNames_of_children List.nodup_nil fun _ h => absurd h List.not_mem_nil
  obtain ⟨-, -, -, htold, -, hhandled⟩ :=
    (dryRun_foretells_calls openingWalk openTree).2 accessible_openTree hroles
  exact ⟨accessible_openTree, hroles, hnames, htold, by cbv, hhandled hnames⟩

end Walk

end PathRights
