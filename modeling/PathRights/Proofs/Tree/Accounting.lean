import PathRights.Proofs.Tree.Coverage
import PathRights.Proofs.Tree.Verbosity

/-! The accounts of a walk that comes to its end. Its counts, its calls and its log are what its
visits add up to, so they can be checked against each other: every entry that is met is counted
once, nothing that goes wrong is passed over, and every warning has its reason. -/

namespace PathRights

open Node Walk

/-! ### Counts -/

namespace Visit

variable (walk : Walk) (v : Visit)

theorem tally_visited : (v.tally walk).visited =
    (v.tally walk).applied + (v.tally walk).noOp + (v.tally walk).unmatched := by
  unfold tally
  rcases v.decision? walk with _ | _ | _ | _ <;> rfl

theorem tally_visited_add_skipped : (v.tally walk).visited + (v.tally walk).skipped = 1 := by
  unfold tally
  rcases v.decision? walk with _ | _ | _ | _ <;> rfl

theorem length_due : (v.due walk).length = 2 * (v.tally walk).applied := by
  unfold due tally decision?
  cases v.handled? with
  | none => rfl
  | some entry =>
    dsimp only [Option.map_some, Option.elim_some]
    cases walk.table.decide entry <;> rfl

end Visit

namespace Accounted

variable {walk : Walk} {visits : List Visit} {tree : Node} {t : Session}

/-- A number that adds up over counts adds up over the visits of a walk. -/
theorem total (h : Accounted walk visits (.start tree) t) {c : Stats → Nat} (hzero : c .zero = 0)
    (hadd : ∀ a b, c (a.add b) = c a + c b) :
    c t.stats = (visits.map fun v => c (v.tally walk)).sum := by
  rw [h.stats]
  show c (Stats.add .zero _) = _
  rw [Stats.zero_add, Stats.apply_sum hzero hadd, List.map_map]
  rfl

theorem visited (h : Accounted walk visits (.start tree) t) :
    t.stats.visited = t.stats.applied + t.stats.noOp + t.stats.unmatched := by
  have hvisited := h.total (c := Stats.visited) rfl fun _ _ => rfl
  have hdecided := h.total (c := fun stats => stats.applied + stats.noOp + stats.unmatched) rfl
    fun a b => by
      simp only [Stats.add]
      omega
  rw [hvisited, hdecided]
  exact congrArg List.sum (List.map_congr_left fun v _ => v.tally_visited walk)

/-- Every visit is counted, as visited or as skipped. -/
theorem visited_add_skipped (h : Accounted walk visits (.start tree) t) :
    t.stats.visited + t.stats.skipped = visits.length := by
  have hmet := h.total (c := fun stats => stats.visited + stats.skipped) rfl fun a b => by
    simp only [Stats.add]
    omega
  rw [hmet, List.map_congr_left fun v _ => v.tally_visited_add_skipped walk]
  simp

/-- In earnest there are two calls for each entry that gets a role. -/
theorem length_calls (h : Accounted walk visits (.start tree) t)
    (hdry : walk.manner.dryRun = false) :
    t.calls.length = 2 * t.stats.applied := by
  have happlied := h.total (c := fun stats => 2 * stats.applied) rfl fun a b => by
    simp only [Stats.add]
    omega
  have hlength (v : Visit) : (v.calls walk).length = 2 * (v.tally walk).applied := by
    rw [← v.length_due]
    simp [Visit.calls, hdry]
  rw [happlied, h.calls]
  show ([] ++ _).length = _
  rw [List.nil_append, List.length_flatMap]
  exact congrArg List.sum (List.map_congr_left fun v _ => hlength v)

theorem failures (h : Accounted walk visits (.start tree) t) :
    t.stats.failures = (visits.flatMap (·.failed walk)).length := by
  rw [h.total (c := Stats.failures) rfl fun _ _ => rfl, List.length_flatMap]
  rfl

theorem unreadable (h : Accounted walk visits (.start tree) t) :
    t.stats.unreadable = visits.countP fun v => v.unread?.isSome := by
  rw [h.total (c := Stats.unreadable) rfl fun _ _ => rfl, ← List.length_filterMap_eq_countP,
    List.filterMap_eq_flatMap_toList, List.length_flatMap]
  rfl

end Accounted

/-- Where keys are different, all that comes of a list may come of one of its items. -/
theorem flatMap_eq_of_nodup {α β γ : Type} {items : List α} {key : α → γ} {f : α → List β} {a : α}
    (hkeys : (items.map key).Nodup) (ha : a ∈ items)
    (hothers : ∀ b ∈ items, key b ≠ key a → f b = []) : items.flatMap f = f a := by
  obtain ⟨before, after, rfl⟩ := List.append_of_mem ha
  rw [List.map_append, List.map_cons, List.nodup_middle, List.nodup_cons, List.mem_append] at hkeys
  have hnone (rest : List α) (hrest : ∀ b ∈ rest, b ∈ before ∨ b ∈ after) :
      rest.flatMap f = [] := by
    refine List.flatMap_eq_nil_iff.2 fun b hb => ?_
    refine hothers b (List.mem_append.2 ((hrest b hb).imp id (List.mem_cons_of_mem a)))
      fun heq => ?_
    refine hkeys.1 ((hrest b hb).imp (fun hb => ?_) fun hb => ?_) <;>
      exact heq ▸ List.mem_map_of_mem hb
  rw [List.flatMap_append, List.flatMap_cons, hnone before fun _ => Or.inl,
    hnone after fun _ => Or.inr, List.nil_append, List.append_nil]

/-! ### The log -/

/-- The path that an event names. -/
def Event.path? : Event → Option Text
  | .wouldChangeOwner path _ _ | .wouldChangeMode path _ | .applyingRole path _ _
  | .noOpMatched path _ | .noRuleMatched path | .operationFailed _ path _ | .cannotInspect path _
  | .skippedSymlink path | .skippedSpecial path | .cannotReadDirectory path _ => some path
  | .ownerChanged .. | .modeChanged .. | .walkComplete _ => none

/-- The path that a record names. -/
def Log.Record.path? (record : Log.Record) : Option Text :=
  (record.context.lookup "path".toList).bind Value.str?

theorem Event.path?_record (event : Event) (root : Text) :
    (event.record [("root", .str root)]).path? = event.path? := by
  cases event <;> rfl

namespace Path

theorem head?_below {root : Text} (h : root.head? = some '/') (names : List Text) :
    (below root names).head? = some '/' := by
  induction names generalizing root with
  | nil => exact h
  | cons name names ih =>
    refine ih ?_
    unfold join
    split
    · assumption
    · split <;> simp [List.head?_append, h]

end Path

theorem head?_intercalate {names : List Text} (hnames : ∀ name ∈ names, Pattern.IsName name) :
    (List.intercalate ['/'] names).head? ≠ some '/' := by
  cases names with
  | nil => exact nofun
  | cons name names =>
    obtain ⟨hne, hslash⟩ := hnames name List.mem_cons_self
    rw [Pattern.intercalate_cons, List.head?_append_of_ne_nil _ hne]
    exact fun h => hslash (List.mem_of_mem_head? h)

namespace Visit

variable {walk : Walk} {v : Visit} {event : Event}

theorem level_of_mem_warnings (h : event ∈ v.warnings walk) : event.level = .warning := by
  simp only [warnings, List.mem_append, Option.mem_toList, Option.map_eq_some_iff,
    List.mem_ite_nil_right, List.mem_singleton, List.mem_map] at h
  obtain ((⟨_, -, rfl⟩ | ⟨-, rfl⟩) | ⟨_, -, rfl⟩) | ⟨_, -, rfl⟩ := h <;> rfl

/-- An entry is skipped for being a symbolic link or a special file. -/
theorem kind_of_skipped? (h : v.skipped? = some event) :
    ∃ type, v.found = .ok type ∧
      (type.kind = .symlink ∧ event = .skippedSymlink v.path ∨
        type.kind = .other ∧ event = .skippedSpecial v.path) := by
  unfold skipped? at h
  split at h
  · cases h
  · next type hfound =>
    refine ⟨type, hfound, ?_⟩
    split at h
    · next hkind => exact Or.inl ⟨hkind, (Option.some.inj h).symm⟩
    · next hkind => exact Or.inr ⟨hkind, (Option.some.inj h).symm⟩
    · cases h
    · cases h

/-- What is told of a skipped entry is information by its path, be the walk verbose or not. -/
theorem info_of_skipped? (h : v.skipped? = some event) :
    event.level = .info ∧ event.path? = some v.path ∧ event.isVerbose = false := by
  obtain ⟨type, -, ⟨-, rfl⟩ | ⟨-, rfl⟩⟩ := kind_of_skipped? h <;> exact ⟨rfl, rfl, rfl⟩

/-- A visit that skips its entry tells just that. -/
theorem events_of_skipped? (h : v.skipped? = some event) : v.events walk = [event] := by
  obtain ⟨type, hfound, hkind⟩ := kind_of_skipped? h
  have hhandled : v.handled? = none := by
    rcases hkind with ⟨hkind, -⟩ | ⟨hkind, -⟩ <;> simp [handled?, hfound, hkind]
  have huninspected : v.uninspected? = none := by simp [uninspected?, hfound, Failure.errorOf?]
  rw [events_of_unhandled hhandled, h, huninspected]
  rfl

theorem path_of_mem_due {made : Call} (h : made ∈ v.due walk) :
    (operationOf made).2 = Path.below walk.rootPath v.location := by
  unfold due at h
  split at h
  · cases h
  · split at h
    · rcases List.mem_pair.1 h with rfl | rfl <;> rfl
    · cases h
    · cases h

/-- What is told of the calls that a decision asks for is no warning, and names their path if
any. -/
theorem of_mem_attempts (h : event ∈ v.attempts walk) :
    event.level ≠ .warning ∧
      ∀ path, event.path? = some path → path = Path.below walk.rootPath v.location := by
  unfold attempts at h
  split at h
  · obtain ⟨made, hmade, rfl⟩ := List.mem_map.1 h
    have hpath := path_of_mem_due hmade
    cases made with
    | chown path uid gid => exact ⟨nofun, fun _ h => (Option.some.inj h).symm.trans hpath⟩
    | chmod path mode => exact ⟨nofun, fun _ h => (Option.some.inj h).symm.trans hpath⟩
  · obtain ⟨made, -, rfl⟩ := List.mem_map.1 h
    cases made <;> exact ⟨nofun, nofun⟩

/-- What is told of a decision is no warning, and if it names a path, this is that of the entry. -/
theorem of_mem_told (h : event ∈ v.told walk) :
    event.level ≠ .warning ∧
      ∀ path, event.path? = some path →
        path = v.entryPath ∨ path = Path.below walk.rootPath v.location := by
  unfold told at h
  split at h
  · rcases List.mem_cons.1 h with rfl | h
    · exact ⟨nofun, fun path hpath => Or.inl (Option.some.inj hpath).symm⟩
    · obtain ⟨hlevel, hpath⟩ := of_mem_attempts h
      exact ⟨hlevel, fun path h => Or.inr (hpath path h)⟩
  · cases List.mem_singleton.1 h
    exact ⟨nofun, fun path hpath => Or.inl (Option.some.inj hpath).symm⟩
  · cases h
  · cases h

/-- The warnings of a visit are those that it tells. -/
theorem filter_warning_events :
    (v.events walk).filter (·.level = .warning) = v.warnings walk := by
  have hskipped : ∀ event ∈ v.skipped?.toList, event.level ≠ .warning := by
    intro event hmem
    rw [(info_of_skipped? (Option.mem_toList.1 hmem)).1]
    exact nofun
  unfold events
  rw [List.filter_append, List.filter_append,
    List.filter_eq_nil_iff.2 fun event hmem => by simpa using hskipped event hmem,
    List.filter_eq_nil_iff.2 fun event hmem => by simpa using (of_mem_told hmem).1,
    List.filter_eq_self.2 fun event hmem => by simpa using level_of_mem_warnings hmem]
  rfl

theorem entryPath_cases : v.entryPath = v.path ∨ v.entryPath = v.path ++ "/" := by
  unfold entryPath handled?
  split
  · exact Or.inl rfl
  · split
    · exact Or.inl rfl
    · exact Or.inl rfl
    · exact Or.inl rfl
    · exact Or.inr rfl

/-- Only the visit to an entry tells of its path, the warnings apart. -/
theorem location_of_mem_events {tree : Node} (hnames : tree.WellNamed)
    (hroot : walk.rootPath.head? = some '/') (hv : v.Within tree) {other : Visit}
    (hother : other.Within tree) (h : event ∈ other.events walk) (hlevel : event.level = .info)
    (hpath : event.path? = some v.path) : other.location = v.location := by
  obtain ⟨node, hnode⟩ := hv.found
  obtain ⟨node', hnode'⟩ := hother.found
  have hplace := hnames.names _ _ hnode
  have hpaths (heq : other.path = v.path) : other.location = v.location := by
    rw [hv.path, hother.path] at heq
    exact Pattern.intercalate_inj (hnames.names _ _ hnode') hplace heq
  -- another path ends with a `/`, as that of a directory does, or begins with one, as in a dry run
  unfold events at h
  rcases List.mem_append.1 h with h | hwarning
  · rcases List.mem_append.1 h with hskipped | htold
    · obtain ⟨-, hown, -⟩ := info_of_skipped? (Option.mem_toList.1 hskipped)
      exact hpaths (Option.some.inj (hown.symm.trans hpath))
    · rcases (of_mem_told htold).2 _ hpath with hentry | hbelow
      · rcases other.entryPath_cases with hplain | hslash
        · exact hpaths (hentry.trans hplain).symm
        · refine absurd ?_ (Pattern.getLast?_intercalate_names hplace)
          show (List.intercalate ['/'] v.location).getLast? = _
          rw [← hv.path, hentry, hslash]
          exact List.getLast?_concat
      · refine absurd ?_ (head?_intercalate hplace)
        show (List.intercalate ['/'] v.location).head? = _
        rw [← hv.path, hbelow]
        exact Path.head?_below hroot _
  · rw [level_of_mem_warnings hwarning] at hlevel
    cases hlevel

end Visit

namespace Walk

variable {walk : Walk} {tree : Node}

theorem reports_of_debug (hdebug : walk.manner.threshold = .ofLevel .debug) (event : Event) :
    walk.manner.reports event = (walk.manner.verbose || !event.isVerbose) := by
  unfold Manner.reports
  rw [hdebug, Log.Threshold.admits_ofLevel]
  cases event.level <;> rfl

namespace Returns

variable {names : List Text} {below : List Visit} {s t : Session}

/-- Some records of a log, that of the counts not among them, come from the visits. -/
theorem filter_log (h : Returns walk tree names below s t)
    {q : Log.Record → Bool} {p : Event → Bool}
    (hq : ∀ event : Event, q (event.record [("root", .str walk.rootPath)]) = p event)
    (hcounts : ∀ stats, p (.walkComplete stats) = false) :
    (walk.log tree).filter q =
      (((walk.visits tree).flatMap (·.events walk)).filter fun event =>
        p event && walk.manner.reports event).map (·.record [("root", .str walk.rootPath)]) := by
  have hevents : (walk.traverse tree).2.events =
      ((walk.visits tree).flatMap (·.events walk)).filter walk.manner.reports ++
        [Event.walkComplete t.stats].filter walk.manner.reports := by
    rw [h.told]
    exact congrArg (· ++ _) h.accounted.events
  unfold log
  rw [hevents, List.filter_map, ← List.filter_append, List.filter_filter, List.filter_append]
  have hp : (fun event => (q ∘ (·.record [("root", .str walk.rootPath)])) event &&
      walk.manner.reports event) = fun event => p event && walk.manner.reports event :=
    funext fun event => congrArg (· && _) (hq event)
  rw [hp]
  simp [hcounts]

/-- The warnings of a walk are those of its visits. -/
theorem warnings_log (h : Returns walk tree names below s t)
    (hdebug : walk.manner.threshold = .ofLevel .debug) :
    (walk.log tree).filter (·.level = .warning) =
      ((walk.visits tree).flatMap (·.warnings walk)).map
        (·.record [("root", .str walk.rootPath)]) := by
  have htold (event : Event) :
      (decide (event.level = .warning) && walk.manner.reports event) =
        decide (event.level = .warning) := by
    rw [reports_of_debug hdebug]
    cases event <;> simp [Event.level, Event.isVerbose]
  have hevents := h.filter_log (q := (·.level = .warning))
    (p := fun event => decide (event.level = .warning)) (fun _ => rfl) fun _ => rfl
  rw [hevents, List.filter_congr fun event _ => htold event, List.filter_flatMap]
  exact congrArg (List.map _ ·) (List.flatMap_congr fun v _ => v.filter_warning_events)

/-- A symbolic link or a special file is told of once by its path. -/
theorem skipped_log (h : Returns walk tree names below s t) (hnames : tree.WellNamed)
    (hroot : walk.rootPath.head? = some '/') (hdebug : walk.manner.threshold = .ofLevel .debug)
    (hplaces : ((walk.visits tree).map (·.location)).Nodup) {v : Visit} (hv : v ∈ walk.visits tree)
    {event : Event} (hskipped : v.skipped? = some event) :
    ((walk.log tree).filter fun record =>
      record.level == .info && record.path? == some v.path) =
        [event.record [("root", .str walk.rootPath)]] := by
  have hwithin := h.within hnames.distinct
  have hown : (v.events walk).filter (fun event =>
      (event.level == .info && event.path? == some v.path) && walk.manner.reports event) =
        [event] := by
    obtain ⟨hlevel, hpath, hplain⟩ := Visit.info_of_skipped? hskipped
    rw [Visit.events_of_skipped? hskipped]
    simp [hlevel, hpath, hplain, reports_of_debug hdebug]
  rw [h.filter_log (p := fun event => event.level == .info && event.path? == some v.path)
    (fun event => by rw [Event.level_record, Event.path?_record]) fun _ => rfl, List.filter_flatMap,
    flatMap_eq_of_nodup hplaces hv fun other hother hne => ?_, hown, List.map_singleton]
  refine List.filter_eq_nil_iff.2 fun told htold hnamed => hne ?_
  simp only [Bool.and_eq_true, beq_iff_eq] at hnamed
  exact Visit.location_of_mem_events hnames hroot (hwithin v hv) (hwithin other hother) htold
    hnamed.1.1 hnamed.1.2

end Returns

/-- The accounts of a walk that comes to its end. It is at the root and once at every name that a
listing returns, and counts each of these entries as skipped or as visited, and as one of the three
that a decision can make of it. In earnest it makes two calls for every entry with a role and counts
those that fail, in a dry run none; it counts the directories below the root that cannot be listed.
The warnings of its log at the level of debugging are one for each visit that could not look at its
entry, that no rule is for, or that could not list its directory, and one for each call that failed.
A symbolic link or a special file is in that log once, by the path that leads to it. -/
theorem completed_walk_balances (walk : Walk) (tree : Node) (hnames : tree.WellNamed)
    (hroot : walk.rootPath.head? = some '/') (hreturns : (walk.traverse tree).1 = .ok ()) :
    let visits := walk.visits tree
    let s := (walk.traverse tree).2
    (visits.map (·.location)).Nodup ∧
    (visits.map (·.location)).Perm ([] :: visits.flatMap (·.inside)) ∧
    s.stats.visited = s.stats.applied + s.stats.noOp + s.stats.unmatched ∧
    s.stats.visited + s.stats.skipped = 1 + (visits.map (·.names.length)).sum ∧
    s.calls = visits.flatMap (·.calls walk) ∧
    s.stats.failures = (visits.flatMap (·.failed walk)).length ∧
    (walk.manner.dryRun = false → s.calls.length = 2 * s.stats.applied) ∧
    (walk.manner.dryRun = true → s.calls = [] ∧ s.stats.failures = 0) ∧
    s.stats.unreadable = visits.tail.countP (·.unread?.isSome) ∧
    (walk.manner.threshold = .ofLevel .debug →
      (walk.log tree).filter (·.level = .warning) =
          (visits.flatMap (·.warnings walk)).map (·.record [("root", .str walk.rootPath)]) ∧
        ∀ v ∈ visits, ∀ event, v.skipped? = some event →
          v.path = List.intercalate ['/'] v.location ∧
            ((walk.log tree).filter fun record =>
              record.level == .info && record.path? == some v.path) =
                [event.record [("root", .str walk.rootPath)]]) := by
  intro visits s
  obtain ⟨names, below, s₀, t, h⟩ := returns_of_ok hnames.distinct hreturns
  have haccounted : Accounted walk visits (.start tree) t := h.accounted
  have hstats : s.stats = t.stats := (congrArg Session.stats h.told).trans rfl
  have hcalls : s.calls = t.calls := (congrArg Session.calls h.told).trans rfl
  have hwithin := h.within hnames.distinct
  have hplaces : (visits.map (·.location)).Nodup :=
    Visit.nodup_locations (fun v hv => (hwithin v hv).names) h.locations
  have hmade : t.calls = visits.flatMap (·.calls walk) :=
    haccounted.calls.trans (List.nil_append _)
  rw [hstats, hcalls]
  refine ⟨hplaces, h.locations, haccounted.visited, ?_, hmade, haccounted.failures,
    haccounted.length_calls, fun hdry => ?_, ?_, fun hdebug => ⟨h.warnings_log hdebug,
      fun v hv event hskipped => ⟨(hwithin v hv).path,
        h.skipped_log hnames hroot hdebug hplaces hv hskipped⟩⟩⟩
  · have hlength := h.locations.length_eq
    rw [List.length_map, List.length_cons, List.length_flatMap] at hlength
    rw [haccounted.visited_add_skipped, hlength, Nat.add_comm]
    simp [Visit.inside, visits]
  · have hnone (v : Visit) : v.calls walk = [] := by simp [Visit.calls, hdry]
    rw [hmade, haccounted.failures]
    simp [Visit.failed, hnone]
  · have hlisted : (rootVisit tree s₀.tree).unread? = none := by
      simp [Visit.unread?, Visit.listed?, rootVisit, h.found, h.listed, Failure.errorOf?]
    rw [haccounted.unreadable]
    show (walk.visits tree).countP _ = (walk.visits tree).tail.countP _
    rw [h.visits, List.countP_cons_of_neg (by simp [hlisted])]
    rfl

/-- A tree in which a directory can neither be given away nor listed, a file not be looked at, and
another file is a symbolic link. -/
def troubledTree : Node :=
  ⟨[], .directory, 0o755, .none,
    [⟨"a", .directory, 0o755,
      ⟨none, none, some (.system .inputOutput), some (.system .notPermitted), none⟩, []⟩,
     ⟨"b", .regular, 0o644, ⟨none, some (.system .accessDenied), none, none, none⟩, []⟩,
     ⟨"c", .symlink, 0o777, .none, []⟩,
     ⟨"d", .regular, 0o644, .none, []⟩]⟩

theorem wellNamed_troubledTree : troubledTree.WellNamed := by
  refine wellNamed_of_children (by decide) fun child hchild => ?_
  simp only [troubledTree, List.mem_cons, List.not_mem_nil, or_false] at hchild
  rcases hchild with rfl | rfl | rfl | rfl <;>
    exact ⟨by decide, wellNamed_of_children List.nodup_nil fun _ h => absurd h List.not_mem_nil⟩

theorem completed_walk_balances_troubledTree :
    let walk := openingWalk.telling false (.ofLevel .debug)
    troubledTree.WellNamed ∧ walk.rootPath.head? = some '/' ∧
      (walk.traverse troubledTree).1 = .ok () ∧
      (walk.traverse troubledTree).2.stats = ⟨3, 2, 0, 1, 2, 1, 1⟩ ∧
      (walk.traverse troubledTree).2.calls.length = 2 * 2 ∧
      (walk.log troubledTree).filter (·.level = .warning) =
        [Event.operationFailed .chown "a/" .notPermitted, .cannotReadDirectory "a/" .inputOutput,
          .cannotInspect "b" .accessDenied, .noRuleMatched "d"].map
          (·.record [("root", .str "/srv")]) ∧
      ((walk.log troubledTree).filter fun record =>
        record.level == .info && record.path? == some "c".toList) =
          [(Event.skippedSymlink "c").record [("root", .str "/srv")]] := by
  intro walk
  have hok : (walk.traverse troubledTree).1 = .ok () := by cbv
  have hstats : (walk.traverse troubledTree).2.stats = ⟨3, 2, 0, 1, 2, 1, 1⟩ := by cbv
  obtain ⟨-, -, -, -, -, -, hcalls, -, -, hlog⟩ :=
    completed_walk_balances walk troubledTree wellNamed_troubledTree rfl hok
  obtain ⟨hwarnings, hskipped⟩ := hlog rfl
  refine ⟨wellNamed_troubledTree, rfl, hok, hstats, ?_, ?_, ?_⟩
  · rw [hcalls rfl, hstats]
  · rw [hwarnings]
    exact congrArg (List.map _) (by cbv)
  · have hfound : ((walk.visits troubledTree).find? (·.path == "c".toList)).map Visit.skipped? =
        some (some (.skippedSymlink "c")) := by cbv
    obtain ⟨v, hv, hevent⟩ := Option.map_eq_some_iff.1 hfound
    have hpath : v.path = "c".toList := by simpa using List.find?_some hv
    have honce := (hskipped v (List.mem_of_find?_eq_some hv) _ hevent).2
    rw [hpath] at honce
    exact honce

end Walk

end PathRights
