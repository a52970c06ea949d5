import PathRights.Proofs.Pattern.Language
import PathRights.Proofs.Tree.Alteration
import PathRights.Proofs.Tree.Deed

/-! What a walk does, fixed before it starts. By the time a walk comes to an entry, every directory
on the way there has the mode that the walk leaves it with, and the entry and what is in it are as
they were. So `stops`, a recursion over the tree as it is at first, says at which entries the walk
stops and what it finds there. `traverse_eq_carryOut` says that the walk does the deeds of its
stops. -/

namespace PathRights

/-- To prove something of every tree, it may be assumed of what is in it. -/
theorem Node.induct {P : Node → Prop}
    (h : ∀ node : Node, (∀ child ∈ node.children, P child) → P node)
    (node : Node) : P node := by
  refine h node fun child hchild => ?_
  have hsize : child.size < node.size := by
    obtain ⟨before, after, hsplit⟩ := List.append_of_mem hchild
    have hperm : Node.sizeAll node.children = Node.sizeAll (child :: (before ++ after)) :=
      Node.sizeAll_perm (hsplit ▸ List.perm_middle)
    rw [Node.sizeAll_cons] at hperm
    rw [Node.size_eq node]
    omega
  exact Node.induct h child
termination_by node.size

namespace Walk

open Deed Node Work

/-! ### Stops -/

/-- A place where a walk stops, or its end. -/
inductive Stop where
  /-- An entry is handled whose calls fail like this. -/
  | handle (location : Location) (entry : Entry) (failures : Failures)
  | skip (event : Event)
  | unreadable (path : Text) (error : SystemError)
  | abort (reason : Abort)
  | finish

/-- A call fails: the walk stops with the error, or ends. -/
def Stop.ofFailure (stop : SystemError → Stop) : Failure → Stop
  | .system error => stop error
  | .crash fault => .abort (.crash fault)
  | .interrupt => .abort .interrupt

theorem Stop.handle_ne_ofFailure {stop : SystemError → Stop} {location : Location} {entry : Entry}
    {failures : Failures} {failure : Failure}
    (h : ∀ error, .handle location entry failures ≠ stop error) :
    .handle location entry failures ≠ Stop.ofFailure stop failure := by
  cases failure with
  | system error => exact h error
  | crash fault => exact nofun
  | interrupt => exact nofun

/-- An entry of some type as the rules see it. -/
def entryOf (path : Text) (type : FileType) : Entry :=
  if type = .directory then ⟨path ++ "/", .directory⟩ else ⟨path, type.kind⟩

/-- The mode that a role gives to an entry. -/
def modeOf (role : Role) (entry : Entry) : Int := ((role.modeFor entry.isDirectory).getD 0 : Nat)

theorem modeOf_eq {role : Role} {entry : Entry} {mode : Nat}
    (h : role.modeFor entry.isDirectory = some mode) : modeOf role entry = mode := by
  unfold modeOf
  rw [h]
  rfl

/-- The mode that an entry has once it is handled. -/
def settledMode (walk : Walk) (entry : Entry) (node : Node) : Int :=
  match walk.table.decide entry with
  | .apply role _ =>
    if walk.manner.dryRun ∨ node.failures.chmod.isSome then node.mode else modeOf role entry
  | .leave _ | .unmatched => node.mode

/-- Whether a directory can be listed that has a mode by then. -/
def listing (mode : Int) (node : Node) : Except Failure Unit :=
  match node.failures.list with
  | some failure => .error failure
  | none => if ownerReads mode then .ok () else .error (.system .accessDenied)

/-- The stops at a directory that is handled and then listed, where those in it depend on the mode
that it has by then. -/
def entered (walk : Walk) (location : Location) (entry : Entry) (node : Node)
    (stop : SystemError → Stop) (inside : Int → List Stop) : List Stop :=
  let mode := settledMode walk entry node
  .handle location entry node.failures ::
    match listing mode node with
    | .error failure => [.ofFailure stop failure]
    | .ok () => inside mode

mutual

/-- The stops at an entry and in it. Whether the directory that it is in lets its owner pass is told
by `passable`. -/
def stopsAt (walk : Walk) (passable : Bool) (location : Location) (path : Text) (node : Node) :
    List Stop :=
  if passable then
    match node.failures.lstat with
    | some failure => [.ofFailure (fun error => .skip (.cannotInspect path error)) failure]
    | none =>
      match node.type.kind with
      | .symlink => [.skip (.skippedSymlink path)]
      | .other => [.skip (.skippedSpecial path)]
      | .file => [.handle location (entryOf path node.type) node.failures]
      | .directory =>
        let entry := entryOf path node.type
        entered walk location entry node (.unreadable entry.path) fun mode =>
          stopsIn walk (ownerPasses mode) location entry.path node.inNameOrder
  else [.skip (.cannotInspect path .accessDenied)]
termination_by 2 * node.size
decreasing_by
  have hsize := sizeAll_inNameOrder node
  omega

/-- The stops at the entries of one directory and in them. -/
def stopsIn (walk : Walk) (passable : Bool) (location : Location) (path : Text) :
    List Node → List Stop
  | [] => []
  | node :: rest =>
    stopsAt walk passable (location ++ [node.name]) (path ++ node.name) node ++
      stopsIn walk passable location path rest
termination_by nodes => 2 * sizeAll nodes + 1
decreasing_by
  · simp only [sizeAll_cons]
    omega
  · have hpos := node.size_pos
    simp only [sizeAll_cons]
    omega

end

/-- The stops of a walk. -/
def stops (walk : Walk) (tree : Node) : List Stop :=
  let failed (error : SystemError) : Stop := .abort (.rootFailed walk.root error)
  match tree.failures.stat with
  | some failure => [.ofFailure failed failure]
  | none =>
    if tree.type = .directory then
      entered walk [] (entryOf [] tree.type) tree failed fun mode =>
        stopsIn walk (ownerPasses mode) [] [] tree.inNameOrder ++ [.finish]
    else [.abort (.rootNotDirectory walk.root)]

/-! ### The deeds at a stop -/

/-- The error that is told of an operation. -/
def operationError (manner : Manner) (failure : Option Failure) : Option SystemError :=
  if manner.dryRun then none else failure.bind Failure.error?

/-- The deeds of an operation on an entry. -/
def operationDeeds (manner : Manner) (would done : Event) (made : Call) (failure : Option Failure)
    (changed : List (Location × Int)) : List Deed :=
  if manner.dryRun then [.report would]
  else
    .call made :: (callDeeds failure changed ++
      if (failure.bind Failure.error?).isNone then [.report done] else [])

/-- The deeds that tell of an error. -/
def failureDeeds (path : Text) (operation : OperationName) : Option SystemError → List Deed
  | none => []
  | some error =>
    [.count fun s => { s with failures := s.failures + 1 },
      .report (.operationFailed operation path error)]

/-- The deeds that give an entry to a role. -/
def roleDeeds (walk : Walk) (location : Location) (entry : Entry) (failures : Failures)
    (role : Role) : List Deed :=
  let path := Path.below walk.rootPath location
  let mode := modeOf role entry
  operationDeeds walk.manner (.wouldChangeOwner path role.userId role.groupId)
      (.ownerChanged path role.userId role.groupId) (.chown path role.userId role.groupId)
      failures.chown [] ++
    (operationDeeds walk.manner (.wouldChangeMode path mode) (.modeChanged path mode)
        (.chmod path mode) failures.chmod [(location, mode)] ++
      (failureDeeds entry.path .chown (operationError walk.manner failures.chown) ++
        failureDeeds entry.path .chmod (operationError walk.manner failures.chmod)))

/-- The deeds at an entry that is handled. -/
def handleDeeds (walk : Walk) (location : Location) (entry : Entry) (failures : Failures) :
    List Deed :=
  .count (fun s => { s with visited := s.visited + 1 }) ::
    match walk.table.decide entry with
    | .apply role rule =>
      .count (fun s => { s with applied := s.applied + 1 }) ::
        .report (.applyingRole entry.path role.name rule.describe) ::
          roleDeeds walk location entry failures role
    | .leave rule =>
      [.count fun s => { s with noOp := s.noOp + 1 },
        .report (.noOpMatched entry.path rule.describe)]
    | .unmatched =>
      [.count fun s => { s with unmatched := s.unmatched + 1 }, .report (.noRuleMatched entry.path)]

/-- The deeds at a stop. -/
def Stop.deeds (walk : Walk) : Stop → List Deed
  | .handle location entry failures => handleDeeds walk location entry failures
  | .skip event => [.count fun s => { s with skipped := s.skipped + 1 }, .report event]
  | .unreadable path error =>
    [.count fun s => { s with unreadable := s.unreadable + 1 },
      .report (.cannotReadDirectory path error)]
  | .abort reason => [.abort reason]
  | .finish => [.total]

/-- The deeds of a walk. -/
def deeds (walk : Walk) (tree : Node) : List Deed := (stops walk tree).flatMap (Stop.deeds walk)

/-! ### One stop -/

/-- An operation is told in a dry run, and otherwise recorded, carried out and told. -/
theorem does_operation {manner : Manner} {s : Session} {target : Target} {would done : Event}
    {made : Call} {call : Location → Node → Except Failure Node} {failure : Option Failure}
    {changed : List (Location × Int)}
    (hanswer : answerAt target call s.tree = Failure.orElse failure (s.tree.setModes changed)) :
    let operation : Work (Option SystemError) := do
      if manner.dryRun then
        report manner would
        return none
      else
        recordCall made
        let error ← callOn target call
        if error.isNone then report manner done
        return error
    Does manner (operationDeeds manner would done made failure changed)
      (operationError manner failure) operation s := by
  intro operation
  unfold operation operationDeeds operationError
  by_cases hdry : manner.dryRun = true
  · simp only [hdry, if_true]
    exact does_bind (does_report would) fun _ _ => does_pure none
  · simp only [hdry]
    refine does_bind (does_recordCall made) fun s' hs' => ?_
    have htree : s'.tree = s.tree := tree_of_carryOut hs'
    refine does_bind (does_callOn (htree ▸ hanswer)) fun _ _ => ?_
    split
    · exact does_bind (does_report done) fun _ _ => does_pure _
    · exact does_pure _

theorem reach_of_resolve {tree node : Node} {location : Location}
    {failure : Failures → Option Failure} (h : tree.resolve location = .ok node) :
    tree.reach location failure = Failure.orElse (failure node.failures) node := by
  unfold Node.reach
  rw [h]
  dsimp only
  cases failure node.failures <;> rfl

theorem does_reportFailure (walk : Walk) {s : Session} (path : Text) (operation : OperationName)
    (error : Option SystemError) :
    Does walk.manner (failureDeeds path operation error) ()
      (reportFailure walk path operation error) s := by
  cases error with
  | none => exact does_pure ()
  | some error => exact does_bind (does_count _) fun _ _ => does_report _

theorem changes_append (front back : List Deed) :
    changes (front ++ back) = changes front ++ changes back := List.filterMap_append

theorem changes_callDeeds (failure : Option Failure) (changed : List (Location × Int)) :
    changes (callDeeds failure changed) = if failure.isSome then [] else changed := by
  cases failure with
  | none =>
    show (changed.map _).filterMap Deed.change? = changed
    rw [List.filterMap_map]
    exact List.filterMap_some
  | some failure => cases failure <;> rfl

theorem changes_operationDeeds (manner : Manner) (would done : Event) (made : Call)
    (failure : Option Failure) (changed : List (Location × Int)) :
    changes (operationDeeds manner would done made failure changed) =
      if manner.dryRun ∨ failure.isSome then [] else changed := by
  have hreport : changes (if (failure.bind Failure.error?).isNone then [.report done] else []) =
      [] := by
    split <;> rfl
  unfold operationDeeds
  split
  · next hdry => rw [if_pos (Or.inl hdry)]; rfl
  · next hdry =>
    show changes (callDeeds failure changed ++ _) = _
    rw [changes_append, hreport, List.append_nil, changes_callDeeds]
    simp [hdry]

theorem changes_failureDeeds (path : Text) (operation : OperationName)
    (error : Option SystemError) : changes (failureDeeds path operation error) = [] := by
  cases error <;> rfl

/-- The changes at an entry that is handled: its own mode, at most. -/
theorem changes_handleDeeds (walk : Walk) (location : Location) (entry : Entry)
    (failures : Failures) :
    changes (handleDeeds walk location entry failures) =
      match walk.table.decide entry with
      | .apply role _ =>
        if walk.manner.dryRun ∨ failures.chmod.isSome then [] else [(location, modeOf role entry)]
      | .leave _ | .unmatched => [] := by
  unfold handleDeeds
  cases walk.table.decide entry with
  | leave rule => rfl
  | unmatched => rfl
  | apply role rule =>
    show changes (roleDeeds walk location entry failures role) = _
    unfold roleDeeds
    simp only [changes_append, changes_operationDeeds, changes_failureDeeds, List.append_nil]
    simp

theorem does_applyRole (walk : Walk) {s : Session} {location : Location} {node : Node}
    {entry : Entry} {role : Role} {rule : Rule}
    (hdecide : walk.table.decide entry = .apply role rule)
    (hresolve : s.tree.resolve location = .ok node) :
    Does walk.manner (roleDeeds walk location entry node.failures role) ()
      (applyRole walk location entry role) s := by
  obtain ⟨mode, hmode, happly⟩ := @applyRole_of_decide walk location entry role rule hdecide
  unfold roleDeeds
  rw [happly, modeOf_eq hmode]
  refine does_bind (does_operation ?_) fun s' hs' => ?_
  · show (s.tree.chown location).map (fun _ => s.tree) = _
    unfold Node.chown
    rw [reach_of_resolve hresolve]
    cases node.failures.chown <;> rfl
  have htree : s'.tree = s.tree := by
    rw [tree_of_carryOut hs', changes_operationDeeds]
    simp
  refine does_bind (does_operation ?_) fun _ _ => ?_
  · show s'.tree.chmod location _ = _
    unfold Node.chmod
    rw [htree, reach_of_resolve hresolve]
    cases node.failures.chmod <;> rfl
  exact does_bind (does_reportFailure walk _ _ _) fun _ _ => does_reportFailure walk _ _ _

theorem does_handle (walk : Walk) {s : Session} {location : Location} {node : Node} (entry : Entry)
    (hresolve : s.tree.resolve location = .ok node) :
    Does walk.manner (handleDeeds walk location entry node.failures) ()
      (handle walk location entry) s := by
  unfold handleDeeds handle
  refine does_bind (does_count _) fun s₁ hs₁ => ?_
  have htree₁ : s₁.tree = s.tree := tree_of_carryOut hs₁
  cases hdecide : walk.table.decide entry with
  | leave rule => exact does_bind (does_count _) fun _ _ => does_report _
  | unmatched => exact does_bind (does_count _) fun _ _ => does_report _
  | apply role rule =>
    refine does_bind (does_count _) fun s₂ hs₂ => ?_
    have htree₂ : s₂.tree = s₁.tree := tree_of_carryOut hs₂
    refine does_bind (does_report _) fun s₃ hs₃ => ?_
    have htree₃ : s₃.tree = s₂.tree := tree_of_carryOut hs₃
    refine does_applyRole walk hdecide ?_
    rw [htree₃, htree₂, htree₁, hresolve]

/-- An entry that was handled has its settled mode. -/
theorem resolve_handled (walk : Walk) {s s' : Session} {location : Location} {node : Node}
    {entry : Entry} (hresolve : s.tree.resolve location = .ok node)
    (hs' : carryOut walk.manner (handleDeeds walk location entry node.failures) s = (.ok (), s')) :
    s'.tree.resolve location = .ok { node with mode := settledMode walk entry node } := by
  have hsame : node = ⟨node.name, node.type, node.mode, node.failures, node.children⟩ := by
    cases node
    rfl
  rw [tree_of_carryOut hs', changes_handleDeeds]
  unfold settledMode
  cases walk.table.decide entry with
  | leave rule => exact hresolve.trans (congrArg Except.ok hsame)
  | unmatched => exact hresolve.trans (congrArg Except.ok hsame)
  | apply role rule =>
    dsimp only
    split
    · exact hresolve.trans (congrArg Except.ok hsame)
    · show (s.tree.setMode _ location).resolve location = _
      rw [resolve_setMode_self, hresolve]
      rfl

/-! ### Where the stops are -/

theorem stopsIn_eq_flatMap (walk : Walk) (passable : Bool) (location : Location) (path : Text)
    (nodes : List Node) :
    stopsIn walk passable location path nodes =
      nodes.flatMap fun node =>
        stopsAt walk passable (location ++ [node.name]) (path ++ node.name) node := by
  induction nodes with
  | nil => rw [stopsIn, List.flatMap_nil]
  | cons node nodes ih => rw [stopsIn, ih, List.flatMap_cons]

theorem entryOf_directory {type : FileType} (h : type.kind = .directory) (path : Text) :
    entryOf path type = ⟨path ++ "/", .directory⟩ :=
  if_pos (eq_directory_of_kind h)

theorem entryOf_file {type : FileType} (h : type.kind = .file) (path : Text) :
    entryOf path type = ⟨path, .file⟩ := by
  cases type <;> first | rfl | cases h

/-- An entry of a tree that rules can be for, reached through directories only. -/
structure Met (tree : Node) (path : Text) (place : Location) (entry : Entry) (target : Node) :
    Prop where
  found : tree.at? place = some target
  entry : entry = entryOf path target.type
  kind : target.type.kind = .file ∨ target.type.kind = .directory
  inside : ∀ before name after, place = before ++ name :: after →
    ∃ parent, tree.at? before = some parent ∧ parent.type = .directory

theorem met_nil {node : Node} (path : Text)
    (hkind : node.type.kind = .file ∨ node.type.kind = .directory) :
    Met node path [] (entryOf path node.type) node where
  found := rfl
  entry := rfl
  kind := hkind
  inside := by
    intro before name after h
    simp at h

theorem Met.cons {node child target : Node} {path : Text} {place : Location} {entry : Entry}
    (h : Met child path place entry target) (hchild : node.child? child.name = some child)
    (htype : node.type = .directory) : Met node path (child.name :: place) entry target where
  found := (at?_of_child? hchild place).trans h.found
  entry := h.entry
  kind := h.kind
  inside := by
    intro before name after hplace
    cases before with
    | nil => exact ⟨node, rfl, htype⟩
    | cons first before =>
      obtain ⟨rfl, hplace'⟩ := List.cons.inj hplace
      obtain ⟨parent, hparent, hdirectory⟩ := h.inside before name after hplace'
      exact ⟨parent, (at?_of_child? hchild before).trans hparent, hdirectory⟩

theorem mem_entered {walk : Walk} {location place : Location} {entry entry' : Entry} {node : Node}
    {stop : SystemError → Stop} {inside : Int → List Stop} {failures : Failures}
    (hstop : ∀ error, .handle place entry' failures ≠ stop error)
    (h : .handle place entry' failures ∈ entered walk location entry node stop inside) :
    Stop.handle place entry' failures = .handle location entry node.failures ∨
      ∃ mode, .handle place entry' failures ∈ inside mode := by
  rcases List.mem_cons.1 h with heq | h
  · exact Or.inl heq
  · split at h
    · exact absurd (List.mem_singleton.1 h) (Stop.handle_ne_ofFailure hstop)
    · exact Or.inr ⟨_, h⟩

/-- The entries that are handled at an entry and in it are entries of the tree. -/
theorem met_of_mem_stopsAt (walk : Walk) (node : Node) (hnames : node.DistinctNames) :
    ∀ (passable : Bool) (location : Location) (path : Text) {place : Location} {entry : Entry}
      {failures : Failures},
      Stop.handle place entry failures ∈ stopsAt walk passable location path node →
        ∃ rest target, place = location ++ rest ∧
          Met node (path ++ Pattern.slashed rest) rest entry target ∧
            failures = target.failures := by
  induction node using Node.induct with
  | h node ih =>
    intro passable location path place entry failures hmem
    have hself (hkind : node.type.kind = .file ∨ node.type.kind = .directory)
        (heq : Stop.handle place entry failures =
          .handle location (entryOf path node.type) node.failures) :
        ∃ rest target, place = location ++ rest ∧
          Met node (path ++ Pattern.slashed rest) rest entry target ∧
            failures = target.failures := by
      cases heq
      exact ⟨[], node, by simp, by simpa using met_nil path hkind, rfl⟩
    unfold stopsAt at hmem
    split at hmem
    · split at hmem
      · exact absurd (List.mem_singleton.1 hmem)
          (Stop.handle_ne_ofFailure fun _ h => by cases h)
      · split at hmem
        · cases List.mem_singleton.1 hmem
        · cases List.mem_singleton.1 hmem
        · next hkind => exact hself (Or.inl hkind) (List.mem_singleton.1 hmem)
        · next hkind =>
          rcases mem_entered (fun _ h => by cases h) hmem with heq | ⟨mode, hmem⟩
          · exact hself (Or.inr hkind) heq
          · rw [stopsIn_eq_flatMap, entryOf_directory hkind] at hmem
            obtain ⟨child, hchild, hmem⟩ := List.mem_flatMap.1 hmem
            have hmem' : child ∈ node.children := List.mem_mergeSort.1 hchild
            have hchild' := child?_eq_some (hnames [] node rfl) hmem'
            obtain ⟨rest, target, rfl, hmet, hfailures⟩ :=
              ih child hmem' (hnames.child hchild') _ _ _ hmem
            have hmet' := hmet.cons hchild' (eq_directory_of_kind hkind)
            exact ⟨child.name :: rest, target, by simp, by simpa using hmet', hfailures⟩
    · cases List.mem_singleton.1 hmem

/-- A walk handles entries of the tree only. -/
theorem met_of_mem_stops (walk : Walk) {tree : Node} (hnames : tree.DistinctNames)
    {place : Location} {entry : Entry} {failures : Failures}
    (h : Stop.handle place entry failures ∈ stops walk tree) :
    ∃ target, Met tree (List.intercalate ['/'] place) place entry target ∧
      failures = target.failures := by
  unfold stops at h
  split at h
  · exact absurd (List.mem_singleton.1 h) (Stop.handle_ne_ofFailure fun _ h => by cases h)
  · split at h
    · next htype =>
      rcases mem_entered (fun _ h => by cases h) h with heq | ⟨mode, h⟩
      · cases heq
        exact ⟨tree, met_nil [] (Or.inr (congrArg FileType.kind htype)), rfl⟩
      · rcases List.mem_append.1 h with h | h
        · rw [stopsIn_eq_flatMap] at h
          obtain ⟨child, hchild, h⟩ := List.mem_flatMap.1 h
          have hchild' := child?_eq_some (hnames [] tree rfl) (List.mem_mergeSort.1 hchild)
          obtain ⟨rest, target, rfl, hmet, hfailures⟩ :=
            met_of_mem_stopsAt walk child (hnames.child hchild') _ _ _ h
          have hpath : List.intercalate ['/'] (child.name :: rest) =
              child.name ++ Pattern.slashed rest := Pattern.intercalate_cons child.name rest
          refine ⟨target, ?_, hfailures⟩
          rw [List.nil_append, List.singleton_append, hpath]
          exact hmet.cons hchild' htype
        · cases List.mem_singleton.1 h
    · cases List.mem_singleton.1 h

/-- Only an entry that is handled is changed, and it gets the mode of its role. -/
theorem handle_of_mem_changes {walk : Walk} {stop : Stop} {change : Location × Int}
    (h : change ∈ changes (stop.deeds walk)) :
    ∃ entry failures role rule, stop = .handle change.1 entry failures ∧
      walk.table.decide entry = .apply role rule ∧ walk.manner.dryRun = false ∧
      failures.chmod = none ∧ change.2 = modeOf role entry := by
  cases stop with
  | handle location entry failures =>
    rw [Stop.deeds, changes_handleDeeds] at h
    split at h
    · next role rule hdecide =>
      split at h
      · cases h
      · next hcalls =>
        rw [not_or] at hcalls
        obtain rfl := List.mem_singleton.1 h
        exact ⟨entry, failures, role, rule, rfl, hdecide, by simpa using hcalls.1,
          by simpa using hcalls.2, rfl⟩
    · cases h
    · cases h
  | skip event => cases h
  | unreadable path error => cases h
  | abort reason => cases h
  | finish => cases h

theorem changes_flatMap_deeds (walk : Walk) (stops : List Stop) :
    changes (stops.flatMap (Stop.deeds walk)) = stops.flatMap fun stop =>
      changes (stop.deeds walk) :=
  List.filterMap_flatMap

/-- What is changed at the stops at an entry and in it lies there. -/
theorem place_of_mem_changes (walk : Walk) {node : Node} (hnames : node.DistinctNames)
    {passable : Bool} {location : Location} {path : Text} {change : Location × Int}
    (h : change ∈ changes ((stopsAt walk passable location path node).flatMap (Stop.deeds walk))) :
    ∃ rest, change.1 = location ++ rest := by
  rw [changes_flatMap_deeds] at h
  obtain ⟨stop, hstop, h⟩ := List.mem_flatMap.1 h
  obtain ⟨entry, failures, role, rule, rfl, -⟩ := handle_of_mem_changes h
  obtain ⟨rest, target, hplace, -⟩ := met_of_mem_stopsAt walk node hnames _ _ _ hstop
  exact ⟨rest, hplace⟩

/-! ### The walk -/

theorem does_ask_failure {walk : Walk} {s : Session} {α β : Type}
    {question : Node → Except Failure α} {next : Except SystemError α → Work β} {b : β}
    {stop : SystemError → Stop} {failure : Failure} (h : question s.tree = .error failure)
    (hnext : ∀ error, Does walk.manner ((stop error).deeds walk) b (next (.error error)) s) :
    Does walk.manner ((Stop.ofFailure stop failure).deeds walk) b (ask question >>= next) s := by
  cases failure with
  | system error => exact does_ask_error h (hnext error)
  | crash fault => exact does_ask_abort h rfl
  | interrupt => exact does_ask_abort h rfl

theorem does_skip (walk : Walk) {s : Session} (event : Event) :
    Does walk.manner ((Stop.skip event).deeds walk) () (skip walk event) s :=
  does_bind (does_count _) fun _ _ => does_report event

theorem list_eq_listing {tree node : Node} {location : Location} {mode : Int}
    (h : tree.resolve location = .ok { node with mode }) :
    tree.list location =
      (listing mode node).map fun _ => node.childNames.mergeSort Text.isAtMost := by
  unfold Node.list listing
  rw [reach_of_resolve h]
  cases node.failures.list with
  | some failure => rfl
  | none =>
    show (if ownerReads mode then _ else _) = _
    split <;> rfl

theorem does_entered (walk : Walk) {s : Session} {location : Location} {entry : Entry} {node : Node}
    {stop : SystemError → Stop} {inside : Int → List Stop} {α : Type} {a : α}
    {next : Except SystemError (List Text) → Work α}
    (hresolve : s.tree.resolve location = .ok node)
    (herror : ∀ error s, Does walk.manner ((stop error).deeds walk) a (next (.error error)) s)
    (hok : ∀ names s,
      s.tree.resolve location = .ok { node with mode := settledMode walk entry node } →
      Does walk.manner ((inside (settledMode walk entry node)).flatMap (Stop.deeds walk)) a
        (next (.ok names)) s) :
    Does walk.manner ((entered walk location entry node stop inside).flatMap (Stop.deeds walk)) a
      (do handle walk location entry; next (← ask (·.list location))) s := by
  unfold entered
  rw [List.flatMap_cons]
  refine does_bind (does_handle walk entry hresolve) fun s' hs' => ?_
  have hresolve' := resolve_handled walk hresolve hs'
  have hlist := list_eq_listing hresolve'
  cases hlisting : listing (settledMode walk entry node) node with
  | error failure =>
    rw [hlisting] at hlist
    rw [List.flatMap_singleton]
    exact does_ask_failure hlist fun error => herror error s'
  | ok _ =>
    rw [hlisting] at hlist
    exact does_ask_ok hlist (hok _ s' hresolve')

/-- Changes at and in siblings of an entry leave the way to it as it is. -/
theorem resolve_setModes_sibling {location : Location} {name other : Text} (hne : name ≠ other)
    {changed : List (Location × Int)}
    (h : ∀ change ∈ changed, ∃ rest, change.1 = location ++ name :: rest) (tree : Node) :
    (tree.setModes changed).resolve (location ++ [other]) = tree.resolve (location ++ [other]) := by
  induction changed generalizing tree with
  | nil => rfl
  | cons change changed ih =>
    obtain ⟨⟨rest, hrest⟩, hchanged⟩ := List.forall_mem_cons.1 h
    rw [setModes_cons, ih hchanged, hrest, resolve_setMode_sibling change.2 location hne]

/-- The way to an entry can be passed, or the directory that it is in does not let its owner
pass. -/
def Open (tree : Node) (passable : Bool) (location : Location) (node : Node) : Prop :=
  tree.resolve location = if passable then .ok node else .error .accessDenied

theorem open_child {tree node child : Node} {location : Location} {mode : Int}
    (h : tree.resolve location = .ok { node with mode }) (htype : node.type = .directory)
    (hchild : node.child? child.name = some child) :
    Open tree (ownerPasses mode) (location ++ [child.name]) child := by
  have hchild' : Node.child? { node with mode } child.name = some child := hchild
  have hstep : Node.resolve { node with mode } [child.name] =
      if ownerPasses mode then .ok child else .error .accessDenied := by
    rw [resolve_cons, hchild']
    cases hpasses : ownerPasses mode with
    | true => simp [resolve]
    | false => simp [htype]
  unfold Open
  rw [resolve_append, h]
  exact hstep

theorem does_visitAll (walk : Walk) {passable : Bool} {location : Location} {path : Text}
    {nodes : List Node} (hnodup : (nodes.map (·.name)).Nodup)
    (hnames : ∀ node ∈ nodes, node.DistinctNames)
    (hvisit : ∀ node ∈ nodes, ∀ s : Session, Open s.tree passable (location ++ [node.name]) node →
      Does walk.manner
        ((stopsAt walk passable (location ++ [node.name]) (path ++ node.name) node).flatMap
          (Stop.deeds walk)) ()
        (visitTree walk (location ++ [node.name]) (path ++ node.name) node) s)
    {s : Session} (hopen : ∀ node ∈ nodes, Open s.tree passable (location ++ [node.name]) node) :
    Does walk.manner ((stopsIn walk passable location path nodes).flatMap (Stop.deeds walk)) ()
      (visitAll walk location path nodes) s := by
  induction nodes generalizing s with
  | nil =>
    rw [stopsIn, visitAll]
    exact does_pure ()
  | cons node nodes ih =>
    rw [List.forall_mem_cons] at hnames hvisit hopen
    rw [List.map_cons, List.nodup_cons] at hnodup
    rw [stopsIn, visitAll, List.flatMap_append]
    refine does_bind (hvisit.1 s hopen.1) fun s' hs' => ?_
    refine ih hnodup.2 hnames.2 hvisit.2 fun other hother => ?_
    -- what was done at the first entry lies at its own name or below, and siblings have others
    have hne : node.name ≠ other.name := fun h =>
      hnodup.1 (h ▸ List.mem_map_of_mem hother)
    unfold Open
    rw [tree_of_carryOut hs', resolve_setModes_sibling hne]
    · exact hopen.2 other hother
    · intro change hchange
      obtain ⟨rest, hrest⟩ := place_of_mem_changes walk hnames.1 hchange
      exact ⟨rest, by simpa using hrest⟩

/-- What is in a directory is visited once that has a mode. -/
theorem does_visitChildren (walk : Walk) {node : Node} {mode : Int} {location : Location}
    {path : Text} {s : Session} (hnames : node.DistinctNames) (htype : node.type = .directory)
    (hresolve : s.tree.resolve location = .ok { node with mode })
    (hvisit : ∀ child ∈ node.children, child.DistinctNames → ∀ s : Session,
      Open s.tree (ownerPasses mode) (location ++ [child.name]) child →
        Does walk.manner
          ((stopsAt walk (ownerPasses mode) (location ++ [child.name]) (path ++ child.name)
            child).flatMap (Stop.deeds walk)) ()
          (visitTree walk (location ++ [child.name]) (path ++ child.name) child) s) :
    Does walk.manner
      ((stopsIn walk (ownerPasses mode) location path node.inNameOrder).flatMap
        (Stop.deeds walk)) ()
      (visitAll walk location path node.inNameOrder) s := by
  have hmem (child : Node) (h : child ∈ node.inNameOrder) : child ∈ node.children :=
    List.mem_mergeSort.1 h
  have hchild (child : Node) (h : child ∈ node.inNameOrder) : node.child? child.name = some child :=
    child?_eq_some (hnames [] node rfl) (hmem child h)
  have hnames' (child : Node) (h : child ∈ node.inNameOrder) : child.DistinctNames :=
    hnames.child (hchild child h)
  have hnodup : (node.inNameOrder.map (·.name)).Nodup := by
    rw [map_name_inNameOrder]
    exact (List.mergeSort_perm _ _).nodup_iff.2 (hnames [] node rfl)
  refine does_visitAll walk hnodup hnames' (fun child h => ?_) fun child h => ?_
  · exact hvisit child (hmem child h) (hnames' child h)
  · exact open_child hresolve htype (hchild child h)

theorem does_visitTree (walk : Walk) (node : Node) (hnames : node.DistinctNames) :
    ∀ (passable : Bool) (location : Location) (path : Text) (s : Session),
      Open s.tree passable location node →
        Does walk.manner ((stopsAt walk passable location path node).flatMap (Stop.deeds walk)) ()
          (visitTree walk location path node) s := by
  induction node using Node.induct with
  | h node ih =>
    intro passable location path s hopen
    unfold Open at hopen
    unfold stopsAt visitTree
    cases passable with
    | false =>
      have hask : s.tree.lstat location = .error (.system .accessDenied) := by
        unfold Node.lstat Node.reach
        rw [hopen]
        rfl
      exact does_ask_error hask (does_skip walk _)
    | true =>
      rw [if_pos rfl] at hopen ⊢
      have hask : s.tree.lstat location = Failure.orElse node.failures.lstat node.type := by
        unfold Node.lstat
        rw [reach_of_resolve hopen]
        cases node.failures.lstat <;> rfl
      cases hlstat : node.failures.lstat with
      | some failure =>
        rw [hlstat] at hask
        rw [List.flatMap_singleton]
        exact does_ask_failure hask fun error => does_skip walk _
      | none =>
        rw [hlstat] at hask
        refine does_ask_ok hask ?_
        dsimp only
        cases hkind : node.type.kind with
        | symlink =>
          rw [List.flatMap_singleton]
          exact does_skip walk _
        | other =>
          rw [List.flatMap_singleton]
          exact does_skip walk _
        | file =>
          rw [List.flatMap_singleton, entryOf_file hkind]
          exact does_handle walk _ hopen
        | directory =>
          rw [entryOf_directory hkind]
          refine does_entered walk hopen (fun error s => ?_) fun _ s hresolve => ?_
          · exact does_bind (does_count _) fun _ _ => does_report _
          · refine does_visitChildren walk hnames (eq_directory_of_kind hkind) hresolve ?_
            exact fun child hchild hnames' => ih child hchild hnames' _ _ _

theorem does_complete (walk : Walk) {s : Session} :
    Does walk.manner [.total] () (complete walk) s := by
  show Does walk.manner [.total] () (report walk.manner (.walkComplete s.stats)) s
  exact does_report (.walkComplete s.stats)

theorem does_preorder (walk : Walk) {tree : Node} (hnames : tree.DistinctNames) :
    Does walk.manner (deeds walk tree) () (preorder walk tree) (Session.start tree) := by
  have hstat : tree.statRoot = Failure.orElse tree.failures.stat tree.type := by
    unfold statRoot
    rw [reach_of_resolve rfl]
    cases tree.failures.stat <;> rfl
  unfold deeds stops preorder checkRoot
  rw [bind_assoc]
  cases hfailure : tree.failures.stat with
  | some failure =>
    rw [hfailure] at hstat
    rw [List.flatMap_singleton]
    exact does_ask_failure hstat fun error => does_throw _ _
  | none =>
    rw [hfailure] at hstat
    refine does_ask_ok hstat ?_
    dsimp only
    split
    · next htype =>
      have hstart : (Session.start tree).tree.resolve [] = .ok tree := rfl
      rw [htype, entryOf_directory rfl, pure_bind]
      unfold listRoot
      simp only [bind_assoc]
      refine does_entered walk hstart (fun error s => does_throw _ _) fun _ s hresolve => ?_
      have hvisit : Does walk.manner _ () (visitAll walk [] [] tree.inNameOrder) s :=
        does_visitChildren walk hnames htype hresolve fun child _ hnames' =>
          does_visitTree walk child hnames' _ _ _
      rw [List.flatMap_append, List.flatMap_singleton, pure_bind]
      exact does_bind hvisit fun _ _ => does_complete walk
    · exact does_throw _ _

/-- The walk does the deeds of its stops. -/
theorem traverse_eq_carryOut (walk : Walk) {tree : Node} (hnames : tree.DistinctNames) :
    walk.traverse tree = carryOut walk.manner (deeds walk tree) (Session.start tree) := by
  have hdoes : outcome (preorder walk tree) (Session.start tree) = _ := does_preorder walk hnames
  rw [traverse_eq_outcome_preorder walk hnames, hdoes]
  rcases carryOut walk.manner (deeds walk tree) (Session.start tree) with ⟨result, s⟩
  cases result <;> rfl

end Walk

end PathRights
