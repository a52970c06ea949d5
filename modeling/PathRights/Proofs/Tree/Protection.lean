import PathRights.Proofs.Pattern.Literal
import PathRights.Proofs.Rule.Written
import PathRights.Proofs.Tree.Effect

/-! Directories that are kept out. Three lines in front of a table leave a directory alone, with
everything below it: one for the directory, one for the directories below it and one for the other
entries there. They select nothing else, so all other entries are decided by the rest of the
table. -/

namespace PathRights

open Pattern

/-! ### The lines -/

/-- The lines that keep a directory out. -/
def Rule.guardLines (names : List Text) : List Text :=
  let path := "/" ++ List.intercalate ['/'] names
  [path ++ "/ -", path ++ "/**/ -", path ++ "/** -"]

namespace Rule

variable {names : List Text} (hnames : ∀ name ∈ names, IsLiteral name) (hne : names ≠ [])

include hnames hne

theorem getLast?_literal (below : Bool) :
    (slashed names ++ behind below).getLast? ≠ some '/' := by
  cases below with
  | true =>
    show (slashed names ++ "/**".toList).getLast? ≠ _
    rw [List.getLast?_append_of_ne_nil _ (by decide)]
    decide
  | false =>
    have hlast := getLast?_intercalate hne fun name hname => (hnames name hname).isName
    have hjoin := intercalate_ne_nil (fun name hname => (hnames name hname).isName) hne
    show (slashed names ++ []).getLast? ≠ _
    rw [List.append_nil, slashed_eq_cons_intercalate hne, List.getLast?_cons_of_ne_nil hjoin]
    exact hlast

theorem isField_literal (below mark : Bool) :
    Text.IsField (marked (slashed names ++ behind below) mark) := by
  refine ⟨?_, fun c hc => (mem_marked_literal hnames below mark c hc).1⟩
  unfold marked
  rw [slashed_eq_cons_intercalate hne]
  exact List.cons_ne_nil _ _

/-- A line with a literal pattern and no role is read. -/
theorem readFrom_literal (registry : Registry) (source : Text) (lineNumber : Nat)
    (below mark : Bool) :
    ∃ m, compile (slashed names ++ behind below) mark = .ok m ∧
      ∀ lines, readFrom registry source lineNumber
          ((marked (slashed names ++ behind below) mark ++ " -") :: lines) =
        ⟨⟨slashed names ++ behind below, m, mark, none, lineNumber⟩ ::
            (readFrom registry source (lineNumber + 1) lines).rules,
          (readFrom registry source (lineNumber + 1) lines).errors⟩ := by
  obtain ⟨m, hm⟩ := compile_literal hnames hne below mark
  have hhead : (marked (slashed names ++ behind below) mark).head? ≠ some '#' := by
    unfold marked
    rw [slashed_eq_cons_intercalate hne]
    exact fun h => absurd (Option.some.inj h) (by decide)
  exact ⟨m, hm, readFrom_written (isField_literal hnames hne below mark) isField_noRole hhead
    (ofFields_noRole (checkText_literal hnames hne below mark)
      (splitMark_append (getLast?_literal hnames hne below) mark) hm registry lineNumber) source⟩

omit hnames in
theorem guardLines_eq :
    guardLines names =
      [marked (slashed names ++ behind false) true ++ " -",
        marked (slashed names ++ behind true) true ++ " -",
        marked (slashed names ++ behind true) false ++ " -"] := by
  have hpath : "/".toList ++ List.intercalate ['/'] names = slashed names :=
    (slashed_eq_cons_intercalate hne).symm
  unfold guardLines
  rw [hpath]
  simp [marked, behind]

/-- What the lines in front of a table are read as. -/
structure Guards (names : List Text) (rules : List Rule) : Prop where
  role : ∀ rule ∈ rules, rule.role = none
  selects : ∀ place type, (∀ name ∈ place, IsName name) →
    ((∃ rule ∈ rules, rule.selects (Walk.entryOf (List.intercalate ['/'] place) type) = true) ↔
      place = names ∧ type = .directory ∨ ∃ more, more ≠ [] ∧ place = names ++ more)

omit hnames hne in
theorem selects_entryOf {pattern : Text} {m : Matcher} {mark : Bool} {role : Option Role}
    {lineNumber : Nat} {place : List Text} {type : FileType} :
    (Rule.mk pattern m mark role lineNumber).selects
        (Walk.entryOf (List.intercalate ['/'] place) type) = true ↔
      (type = .directory ↔ mark = true) ∧ m.accepts (relativePath place mark) = true := by
  unfold Rule.selects Walk.entryOf Entry.isDirectory relativePath
  by_cases htype : type = .directory
  · subst htype
    cases mark <;> simp
  · have hkind : type.kind ≠ .directory := fun h => htype (Walk.eq_directory_of_kind h)
    rw [if_neg htype]
    cases mark <;> simp [htype, hkind]

theorem exists_guards (registry : Registry) (source : Text) :
    ∃ rules, Rule.readFrom registry source 1 (guardLines names) = ⟨rules, []⟩ ∧
      Guards names rules := by
  obtain ⟨m₁, hm₁, hread₁⟩ := readFrom_literal hnames hne registry source 1 false true
  obtain ⟨m₂, hm₂, hread₂⟩ := readFrom_literal hnames hne registry source 2 true true
  obtain ⟨m₃, hm₃, hread₃⟩ := readFrom_literal hnames hne registry source 3 true false
  rw [guardLines_eq hne, hread₁, hread₂, hread₃]
  refine ⟨_, rfl, fun rule hrule => ?_, fun place type hplace => ?_⟩
  · simp only [readFrom, List.mem_cons, List.not_mem_nil, or_false] at hrule
    rcases hrule with rfl | rfl | rfl <;> rfl
  · simp only [readFrom, List.exists_mem_cons_iff, List.not_mem_nil, false_and, exists_false,
      or_false, selects_entryOf, accepts_literal hnames hne hplace hm₁,
      accepts_literal_below hnames hne hplace hm₂, accepts_literal_below hnames hne hplace hm₃]
    by_cases htype : type = .directory
    · simp [htype]
    · simp [htype]

end Rule

namespace RuleTable

/-- With the lines in front, a table leaves the directory and what is below it alone, and decides
every other entry as it did without them. -/
theorem decide_guarded {names : List Text} (hnames : ∀ name ∈ names, IsLiteral name)
    (hne : names ≠ []) {registry : Registry} {source : Text} {lines : List Text} {table : RuleTable}
    (hload : load registry source lines = .ok table) :
    ∃ guarded, load registry source (Rule.guardLines names ++ lines) = .ok guarded ∧
      ∀ place type, (∀ name ∈ place, IsName name) →
        ((place = names ∧ type = .directory ∨ ∃ more, more ≠ [] ∧ place = names ++ more) →
          ∃ rule, guarded.decide (Walk.entryOf (List.intercalate ['/'] place) type) = .leave rule) ∧
        (¬ (place = names ∧ type = .directory ∨ ∃ more, more ≠ [] ∧ place = names ++ more) →
          (guarded.decide (Walk.entryOf (List.intercalate ['/'] place) type)).unnumbered =
            (table.decide (Walk.entryOf (List.intercalate ['/'] place) type)).unnumbered) := by
  obtain ⟨herrors, hrules⟩ := load_eq_ok.1 hload
  obtain ⟨guards, hguards, hrole, hselects⟩ := Rule.exists_guards hnames hne registry source
  have hlines := Rule.readFrom_append registry source 1 (Rule.guardLines names) lines
  rw [hguards] at hlines
  generalize hmore : Rule.readFrom registry source (1 + (Rule.guardLines names).length) lines = more
    at hlines
  obtain ⟨hsame, hlength⟩ := Rule.readFrom_unnumbered registry source source
    (1 + (Rule.guardLines names).length) 1 lines
  rw [hmore, herrors] at hlength
  rw [hmore] at hsame
  refine ⟨⟨guards ++ more.rules⟩, load_eq_ok.2 ?_, fun place type hplace => ?_⟩
  · rw [hlines]
    exact ⟨by simpa using hlength, rfl⟩
  · rw [← hselects place type hplace]
    generalize Walk.entryOf (List.intercalate ['/'] place) type = entry
    constructor
    · rintro ⟨rule, hrule, hselected⟩
      have hsome : (guards.find? (·.selects entry)).isSome :=
        List.find?_isSome.2 ⟨rule, hrule, hselected⟩
      obtain ⟨first, hfirst⟩ := Option.isSome_iff_exists.1 hsome
      have hfind : (guards ++ more.rules).find? (·.selects entry) = some first := by
        rw [List.find?_append, hfirst]
        rfl
      refine ⟨first, ?_⟩
      rw [decide_of_find hfind]
      unfold Rule.decision
      rw [hrole first (List.mem_of_find?_eq_some hfirst)]
    · intro hnone
      have hguards' : guards.find? (·.selects entry) = none :=
        List.find?_eq_none.2 fun rule hrule hselected => hnone ⟨rule, hrule, hselected⟩
      have hskip : decide ⟨guards ++ more.rules⟩ entry = decide ⟨more.rules⟩ entry := by
        unfold decide
        rw [List.find?_append, hguards']
        rfl
      rw [hskip]
      have htable : table = ⟨table.rules⟩ := rfl
      rw [htable, hrules]
      exact decide_unnumbered hsame entry

end RuleTable

namespace Walk

open Deed Node

/-! ### The walk -/

/-- A call is made only on an entry that a role is given to. -/
theorem handle_of_mem_calls {walk : Walk} {stop : Stop} {call : Call}
    (h : call ∈ calls (stop.deeds walk)) :
    ∃ place entry failures role rule, stop = .handle place entry failures ∧
      walk.table.decide entry = .apply role rule ∧
        (operationOf call).2 = Path.below walk.rootPath place := by
  have hoperation {would told : Event} {made : Call} {failure : Option Failure}
      {changed : List (Location × Int)}
      (h : call ∈ calls (operationDeeds walk.manner would told made failure changed)) :
      call = made := by
    cases hdry : walk.manner.dryRun with
    | true => simp [operationDeeds, hdry, calls, call?] at h
    | false =>
      rw [calls_operationDeeds hdry] at h
      exact List.mem_singleton.1 h
  cases stop with
  | handle place entry failures =>
    refine ⟨place, entry, failures, ?_⟩
    rw [Stop.deeds, handleDeeds] at h
    cases hdecide : walk.table.decide entry with
    | leave rule => rw [hdecide] at h; cases h
    | unmatched => rw [hdecide] at h; cases h
    | apply role rule =>
      rw [hdecide] at h
      have hrole : call ∈ calls (roleDeeds walk place entry failures role) := h
      unfold roleDeeds at hrole
      rw [calls_append, calls_append, calls_append, calls_failureDeeds, calls_failureDeeds,
        List.append_nil, List.append_nil] at hrole
      refine ⟨role, rule, rfl, rfl, ?_⟩
      rcases List.mem_append.1 hrole with h | h
      · rw [hoperation h]
        rfl
      · rw [hoperation h]
        rfl
  | _ => cases h

theorem report_of_mem_operationDeeds {manner : Manner} {would told event : Event} {made : Call}
    {failure : Option Failure} {changed : List (Location × Int)}
    (h : .report event ∈ operationDeeds manner would told made failure changed) :
    event = would ∨ event = told := by
  have hcall : .report event ∉ Work.callDeeds failure changed := by
    cases failure with
    | none => simp [Work.callDeeds]
    | some failure => simp [Work.callDeeds]
  unfold operationDeeds at h
  split at h
  · exact Or.inl (by simpa using h)
  · simp only [List.mem_cons, reduceCtorEq, List.mem_append, hcall, false_or] at h
    split at h
    · exact Or.inr (by simpa using h)
    · cases h

/-- An entry is reported unmatched only when it is handled and no rule selects it. -/
theorem handle_of_mem_unmatched {walk : Walk} {tree : Node} {stop : Stop} {path : Text}
    (hstop : stop ∈ stops walk tree) (h : .report (.noRuleMatched path) ∈ stop.deeds walk) :
    ∃ place entry failures, stop = .handle place entry failures ∧
      walk.table.decide entry = .unmatched ∧ path = entry.path := by
  obtain ⟨front, last, hsplit, hfront, hlast⟩ := stops_split walk tree
  rw [hsplit] at hstop
  rcases List.mem_append.1 hstop with hmem | hmem
  · cases hfront stop hmem with
    | handle place entry failures =>
      refine ⟨place, entry, failures, rfl, ?_⟩
      rw [Stop.deeds, handleDeeds] at h
      cases hdecide : walk.table.decide entry with
      | leave rule => simp [hdecide] at h
      | unmatched => simpa [hdecide] using h
      | apply role rule =>
        have hfailure (operation : OperationName) (error : Option SystemError) :
            .report (.noRuleMatched path) ∉ failureDeeds entry.path operation error := by
          cases error <;> simp [failureDeeds]
        rw [hdecide] at h
        unfold roleDeeds at h
        simp only [List.mem_cons, List.mem_append, reduceCtorEq, Deed.report.injEq, hfailure,
          false_or, or_false] at h
        rcases h with h | h
        · rcases report_of_mem_operationDeeds h with h | h <;> cases h
        · rcases report_of_mem_operationDeeds h with h | h <;> cases h
    | _ => simp [Stop.deeds] at h
  · rcases hlast stop hmem with rfl | ⟨reason, rfl⟩ <;> simp [Stop.deeds] at h

theorem path_entryOf (place : Location) (type : FileType) :
    (entryOf (List.intercalate ['/'] place) type).path =
      relativePath place (decide (type = .directory)) := by
  unfold entryOf relativePath
  by_cases htype : type = .directory <;> simp [htype]

/-- An entry that a walk leaves alone has no call made on it and is not reported unmatched. -/
theorem kept_of_leave {walk : Walk} {tree target : Node} {place : Location}
    (hnames : tree.WellNamed) (hat : tree.at? place = some target)
    (hleave : ∃ rule, walk.table.decide (entryOf (List.intercalate ['/'] place) target.type) =
      .leave rule) :
    (∀ call ∈ (walk.traverse tree).2.calls,
        (operationOf call).2 ≠ Path.below walk.rootPath place) ∧
      ∀ directory, .noRuleMatched (relativePath place directory) ∉
        (walk.traverse tree).2.events := by
  obtain ⟨rule, hleave⟩ := hleave
  have hplace := hnames.names place target hat
  rw [traverse_eq_carryOut walk hnames.distinct]
  constructor
  · intro call hcall hpath
    rw [carryOut_calls] at hcall
    have hcall' : call ∈ calls (deeds walk tree) := mem_of_mem_calls_done hcall
    rw [deeds, calls, List.filterMap_flatMap] at hcall'
    obtain ⟨stop, hstop, hcall'⟩ := List.mem_flatMap.1 hcall'
    obtain ⟨place', entry, failures, role, rule', rfl, hdecide, hpath'⟩ :=
      handle_of_mem_calls hcall'
    obtain ⟨target', hmet, -⟩ := met_of_mem_stops walk hnames.distinct hstop
    obtain rfl : place' = place := Path.below_inj (hnames.names place' target' hmet.found) hplace
      (hpath'.symm.trans hpath)
    obtain rfl : target = target' := Option.some.inj (hat.symm.trans hmet.found)
    rw [hmet.entry, hleave] at hdecide
    cases hdecide
  · intro directory hevent
    rcases mem_carryOut_events _ hevent with h | h | ⟨stats, h⟩
    · cases h
    · obtain ⟨stop, hstop, h⟩ := List.mem_flatMap.1 h
      obtain ⟨place', entry, failures, rfl, hdecide, hpath⟩ := handle_of_mem_unmatched hstop h
      obtain ⟨target', hmet, -⟩ := met_of_mem_stops walk hnames.distinct hstop
      rw [hmet.entry, path_entryOf] at hpath
      have hplace' := hnames.names place' target' hmet.found
      have hjoin := relativePath_inj hplace hplace' hpath
      obtain rfl := hjoin
      obtain rfl : target = target' := Option.some.inj (hat.symm.trans hmet.found)
      rw [hmet.entry, hleave] at hdecide
      cases hdecide
    · cases h

/-- Three lines in front of others protect a directory. In every walk over a tree that has it, no
call is made on the directory or on an entry below it, and none of them is reported unmatched. Every
other entry is decided as the other lines alone decide it. -/
theorem guardLines_protect (names : List Text) (hnames : ∀ name ∈ names, IsLiteral name)
    (hne : names ≠ []) (registry : Registry) (source : Text) (lines : List Text) (table : RuleTable)
    (hload : RuleTable.load registry source lines = .ok table) :
    ∃ guarded, RuleTable.load registry source (Rule.guardLines names ++ lines) = .ok guarded ∧
      (∀ (walk : Walk) (tree directory : Node), walk.table = guarded → tree.WellNamed →
        tree.at? names = some directory → directory.type = .directory →
          ∀ rest target, tree.at? (names ++ rest) = some target →
            (∀ call ∈ (walk.traverse tree).2.calls,
              (operationOf call).2 ≠ Path.below walk.rootPath (names ++ rest)) ∧
            ∀ asDirectory, .noRuleMatched (relativePath (names ++ rest) asDirectory) ∉
              (walk.traverse tree).2.events) ∧
      ∀ place type, (∀ name ∈ place, IsName name) →
        ¬ (place = names ∧ type = .directory) → (∀ rest, rest ≠ [] → place ≠ names ++ rest) →
          (guarded.decide (entryOf (List.intercalate ['/'] place) type)).unnumbered =
            (table.decide (entryOf (List.intercalate ['/'] place) type)).unnumbered := by
  obtain ⟨guarded, hguarded, hdecide⟩ := RuleTable.decide_guarded hnames hne hload
  refine ⟨guarded, hguarded, fun walk tree directory htable hwell hdir htype rest target hat => ?_,
    fun place type hplace hself hbelow => ?_⟩
  · subst htable
    refine kept_of_leave hwell hat ((hdecide _ target.type (hwell.names _ target hat)).1 ?_)
    by_cases hrest : rest = []
    · subst hrest
      rw [List.append_nil] at hat ⊢
      obtain rfl : directory = target := Option.some.inj (hdir.symm.trans hat)
      exact Or.inl ⟨rfl, htype⟩
    · exact Or.inr ⟨rest, hrest, rfl⟩
  · refine (hdecide place type hplace).2 ?_
    rintro (h | ⟨rest, hrest, rfl⟩)
    · exact hself h
    · exact hbelow rest hrest rfl

theorem guardLines_protect_closedTree :
    Rule.guardLines ["a".toList] = ["/a/ -".toList, "/a/**/ -".toList, "/a/** -".toList] ∧
      closedTree.at? ["a".toList] =
        some ⟨"a", .directory, 0, .none, [⟨"c", .regular, 0o644, .none, []⟩]⟩ ∧
      ∃ walk : Walk, RuleTable.load ⟨[⟨"open", "u", 1, "g", 2, 0o755, none⟩]⟩ "rules"
          (Rule.guardLines ["a".toList] ++ ["**/ open".toList]) = .ok walk.table ∧
        walk.rootPath = "/srv" ∧
        (∀ call ∈ (walk.traverse closedTree).2.calls, (operationOf call).2 ≠ "/srv/a") ∧
        .noRuleMatched "a/c" ∉ (walk.traverse closedTree).2.events ∧
        (walk.table.decide ⟨"ab/", .directory⟩).unnumbered =
          (openingWalk.table.decide ⟨"ab/", .directory⟩).unnumbered := by
  have hliteral : ∀ name ∈ ["a".toList], IsLiteral name :=
    List.forall_mem_singleton.2 ⟨by decide, List.forall_mem_singleton.2 (by decide),
      List.forall_mem_singleton.2 (by decide)⟩
  have hdir : closedTree.at? ["a".toList] =
      some ⟨"a", .directory, 0, .none, [⟨"c", .regular, 0o644, .none, []⟩]⟩ := rfl
  obtain ⟨guarded, hguarded, hkept, hothers⟩ := guardLines_protect ["a".toList] hliteral (by decide)
    _ "rules" _ openingWalk.table load_openingWalk
  have hwalk := hkept { openingWalk with
    table := guarded, givesModes := RuleTable.givesModes_of_load hguarded } closedTree _ rfl
    wellNamed_closedTree hdir rfl
  refine ⟨by decide, hdir, _, hguarded, rfl, (hwalk [] _ hdir).1, ?_, ?_⟩
  · exact (hwalk ["c".toList] ⟨"c", .regular, 0o644, .none, []⟩ rfl).2 false
  · exact hothers ["ab".toList] .directory (by decide) (by decide) fun rest _ => by simp

end Walk

end PathRights
