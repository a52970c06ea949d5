import PathRights.Proofs.Pattern.Equivalence

/-! Runs of `**`. A run of any length means what one `**` means, wherever it stands: two next to
each other collapse to one (`equivalent_two`), and so do the others one by one (`equivalent_run`).
`anchors_and_runs` collects the laws of anchors and of runs. -/

namespace PathRights.Pattern

/-! ### Two of them -/

/-- Collapsing sees no difference between two `**` in a row and one. -/
theorem collapseGlobstars_run {front : List Text} (back : List Text)
    (hfront : ∀ component ∈ front, '/' ∉ component) :
    collapseGlobstars (slashed (front ++ doubleStar :: doubleStar :: back)) =
      collapseGlobstars (slashed (front ++ doubleStar :: back)) := by
  have hstars : ∀ more : List Text, collapseGlobstars (slashed (doubleStar :: more)) =
      if startsWithGlobstar (slashed more) then collapseGlobstars (slashed more)
      else '/' :: '*' :: '*' :: collapseGlobstars (slashed more) := fun _ => rfl
  induction front with
  | nil =>
    have hstart : startsWithGlobstar (slashed (doubleStar :: back)) = true :=
      (startsWithGlobstar_cons _).trans (endsComponent_slashed back)
    rw [List.nil_append, hstars, if_pos hstart, List.nil_append]
  | cons component front ih =>
    rw [List.forall_mem_cons] at hfront
    have hrest := ih hfront.2
    rw [List.cons_append, List.cons_append]
    by_cases hcomponent : component = doubleStar
    · -- what stands behind a run shows in the collapsed text
      have hstart := congrArg startsWithGlobstar hrest
      rw [startsWithGlobstar_collapse, startsWithGlobstar_collapse] at hstart
      rw [hcomponent, hstars, hstars, hrest, hstart]
    · rw [slashed_cons, slashed_cons,
        collapseGlobstars_component hfront.1 (endsComponent_slashed _) hcomponent,
        collapseGlobstars_component hfront.1 (endsComponent_slashed _) hcomponent, hrest]

/-- Nor is there a difference when the `**` in front were dropped before. -/
theorem collapse_dropGlobstars_run {front : List Text} (back : List Text)
    (hfront : ∀ component ∈ front, '/' ∉ component) :
    collapseGlobstars (dropGlobstars
        (List.intercalate ['/'] (front ++ doubleStar :: doubleStar :: back))) =
      collapseGlobstars (dropGlobstars (List.intercalate ['/'] (front ++ doubleStar :: back))) := by
  have hstars : ∀ more : List Text, more ≠ [] →
      dropGlobstars (List.intercalate ['/'] (doubleStar :: more)) =
        dropGlobstars (List.intercalate ['/'] more) := by
    intro more hmore
    rw [intercalate_cons, slashed_eq_cons_intercalate hmore, dropGlobstars_doubleStar]
  induction front with
  | nil => rw [List.nil_append, hstars _ (by simp), List.nil_append]
  | cons component front ih =>
    rw [List.forall_mem_cons] at hfront
    rw [List.cons_append, List.cons_append]
    by_cases hcomponent : component = doubleStar
    · rw [hcomponent, hstars _ (by simp), hstars _ (by simp), ih hfront.2]
    · have hdrop : ∀ more, dropGlobstars (component ++ slashed more) = component ++ slashed more :=
        fun more => dropGlobstars_component hfront.1 (endsComponent_slashed more)
          fun heq => absurd heq hcomponent
      rw [intercalate_cons, intercalate_cons, hdrop, hdrop, collapseGlobstars_append hfront.1,
        collapseGlobstars_append hfront.1, collapseGlobstars_run back hfront.2]

/-- Components that begin with `**` and go on are a text that begins with `**/`. -/
theorem exists_eq_doubleStar_iff {component : Text} {more : List Text} (hslash : '/' ∉ component)
    (hmore : more ≠ []) :
    (∃ rest, List.intercalate ['/'] (component :: more) = doubleStar ++ '/' :: rest) ↔
      component = doubleStar := by
  rw [intercalate_cons, slashed_eq_cons_intercalate hmore]
  constructor
  · rintro ⟨rest, hrest⟩
    exact (eq_of_append_endsComponent hslash (by decide) rfl rfl hrest).1
  · rintro rfl
    exact ⟨_, rfl⟩

theorem intercalate_doubleStar_ne_nil (front back : List Text) :
    List.intercalate ['/'] (front ++ doubleStar :: back) ≠ [] := by
  cases front with
  | nil => simp [intercalate_cons, doubleStar]
  | cons component front => simp [intercalate_cons]

/-- Behind a `/`, a second `**` in a row makes a difference to where a pattern may begin only if
there is nothing else. -/
theorem splitAnchor_rooted_run {below back : List Text}
    (hbelow : ∀ component ∈ below, '/' ∉ component)
    (hmore : below = [] → back ≠ []) :
    (splitAnchor ('/' :: List.intercalate ['/'] (below ++ doubleStar :: doubleStar :: back))).1 =
      (splitAnchor ('/' :: List.intercalate ['/'] (below ++ doubleStar :: back))).1 := by
  rw [Bool.eq_iff_iff, (splitAnchor_eq _).2, (splitAnchor_eq _).2]
  refine or_congr (by simp) ?_
  cases below with
  | nil =>
    exact (exists_eq_doubleStar_iff (by decide) (by simp)).trans
      (exists_eq_doubleStar_iff (by decide) (hmore rfl)).symm
  | cons component below =>
    have hslash := hbelow component List.mem_cons_self
    exact (exists_eq_doubleStar_iff hslash (by simp)).trans
      (exists_eq_doubleStar_iff hslash (by simp)).symm

/-- Two `**` in a row are as good as one, behind a `/` in front of all components. -/
theorem equivalent_two_rooted {below : List Text} (back : List Text) {directoryOnly : Bool}
    (hbelow : ∀ component ∈ below, '/' ∉ component) : Equivalent directoryOnly
      ('/' :: List.intercalate ['/'] (below ++ doubleStar :: doubleStar :: back))
      ('/' :: List.intercalate ['/'] (below ++ doubleStar :: back)) := by
  refine .of_core (by simp) (by simp) ?_ ?_
  · rw [core_eq_unrooted, core_eq_unrooted]
    exact collapse_dropGlobstars_run back hbelow
  · by_cases hlone : below = [] ∧ back = []
    · rw [hlone.1, hlone.2]
      exact Or.inl rfl
    · exact Or.inr (splitAnchor_rooted_run hbelow fun hnil hback => hlone ⟨hnil, hback⟩)

/-- Two `**` in a row are as good as one, for components that are cut at every `/`. -/
theorem equivalent_two {front : List Text} (back : List Text) {directoryOnly : Bool}
    (hfront : ∀ component ∈ front, '/' ∉ component) :
    Equivalent directoryOnly (List.intercalate ['/'] (front ++ doubleStar :: doubleStar :: back))
      (List.intercalate ['/'] (front ++ doubleStar :: back)) := by
  -- a `/` in front of a pattern is an empty component before the others
  by_cases hroot : ∃ below, front = [] :: below
  · obtain ⟨below, rfl⟩ := hroot
    have hrooted : ∀ more, List.intercalate ['/'] ([] :: below ++ doubleStar :: more) =
        '/' :: List.intercalate ['/'] (below ++ doubleStar :: more) := by
      intro more
      rw [List.cons_append, intercalate_cons,
        slashed_eq_cons_intercalate (by simp), List.nil_append]
    rw [hrooted, hrooted]
    exact equivalent_two_rooted back (List.forall_mem_cons.1 hfront).2
  · have hhead : ∀ more,
        (List.intercalate ['/'] (front ++ doubleStar :: more)).head? ≠ some '/' := by
      intro more
      cases front with
      | nil => simp [intercalate_cons, doubleStar]
      | cons component front =>
        cases component with
        | nil => exact absurd ⟨front, rfl⟩ hroot
        | cons c component =>
          have hslash := hfront _ List.mem_cons_self
          simp only [List.mem_cons, not_or] at hslash
          simpa [intercalate_cons] using Ne.symm hslash.1
    refine .of_core (intercalate_doubleStar_ne_nil _ _)
      (intercalate_doubleStar_ne_nil _ _) ?_ (Or.inr ?_)
    · rw [core_eq_unrooted, core_eq_unrooted, unrooted_of_head?_ne (hhead _),
        unrooted_of_head?_ne (hhead _)]
      exact collapse_dropGlobstars_run back hfront
    · rw [(splitAnchor_eq _).2.2 (Or.inl (hhead _)), (splitAnchor_eq _).2.2 (Or.inl (hhead _))]

/-- Texts around a `**` can be cut at every `/` in them. -/
theorem intercalate_doubleStar_cut (front back : List Text) :
    List.intercalate ['/'] (front ++ doubleStar :: back) = List.intercalate ['/']
      (front.flatMap (List.splitOn '/') ++ doubleStar :: back.flatMap (List.splitOn '/')) := by
  have hne : front ++ doubleStar :: back ≠ [] := by simp
  have hcut := Text.splitOn_intercalate '/' hne
  rw [List.flatMap_append, List.flatMap_cons,
    show List.splitOn '/' doubleStar = [doubleStar] by decide, List.singleton_append] at hcut
  rw [← hcut, List.intercalate_splitOn]

/-- A run of `**` of any length is as good as one `**`, whatever stands around it. -/
theorem equivalent_run (front back : List Text) (directoryOnly : Bool) (count : Nat) :
    Equivalent directoryOnly (List.intercalate ['/'] (front ++ doubleStar :: back))
      (List.intercalate ['/'] (front ++ List.replicate (count + 1) doubleStar ++ back)) := by
  have htwo : ∀ front : List Text, Equivalent directoryOnly
      (List.intercalate ['/'] (front ++ doubleStar :: back))
      (List.intercalate ['/'] (front ++ doubleStar :: doubleStar :: back)) := by
    intro front
    have hslash : ∀ component ∈ front.flatMap (List.splitOn '/'), '/' ∉ component := by
      intro component hmem
      obtain ⟨text, -, hpiece⟩ := List.mem_flatMap.1 hmem
      exact not_mem_of_mem_splitOn hpiece
    have h := @equivalent_two _ (back.flatMap (List.splitOn '/')) directoryOnly hslash
    rw [intercalate_doubleStar_cut, intercalate_doubleStar_cut front (doubleStar :: back)]
    exact h.symm
  induction count generalizing front with
  | zero => simpa using Equivalent.refl directoryOnly _
  | succ count ih =>
    have hnext := ih (front ++ [doubleStar])
    rw [List.append_assoc, List.singleton_append, List.append_assoc front,
      List.singleton_append] at hnext
    exact (htwo front).trans hnext

/-! ### A line feed behind a pattern -/

/-- The last component of the text is a `**` with a line feed behind it. -/
def EndsWithLineFeed (text : Text) : Prop := ['/', '*', '*', '\n'] <:+ '/' :: text

theorem EndsWithLineFeed.cases {text : Text} (h : EndsWithLineFeed text) :
    text = ['*', '*', '\n'] ∨ ['/', '*', '*', '\n'] <:+ text := by
  rcases List.suffix_cons_iff.1 h with heq | hsuffix
  · exact Or.inl (List.cons.inj heq).2.symm
  · exact Or.inr hsuffix

theorem suffix_collapseGlobstars {text : Text} (h : ['/', '*', '*', '\n'] <:+ text) :
    ['/', '*', '*', '\n'] <:+ collapseGlobstars text := by
  fun_induction collapseGlobstars text with
  | case1 rest hstart ih =>
    refine ih ?_
    simp only [List.suffix_cons_iff] at h
    rcases h with heq | heq | heq | h
    · obtain rfl : rest = ['\n'] := by simpa using heq.symm
      cases hstart
    · simp at heq
    · simp at heq
    · exact h
  | case2 rest hstart ih =>
    simp only [List.suffix_cons_iff] at h
    rcases h with heq | heq | heq | h
    · obtain rfl : rest = ['\n'] := by simpa using heq.symm
      exact ⟨[], rfl⟩
    · simp at heq
    · simp at heq
    · exact (ih h).trans (List.suffix_append ['/', '*', '*'] _)
  | case3 c rest hstart ih =>
    rcases List.suffix_cons_iff.1 h with heq | h
    · obtain ⟨rfl, rfl⟩ := List.cons.inj heq
      exact absurd rfl (hstart _ rfl)
    · exact (ih h).trans (List.suffix_cons c _)
  | case4 => simp at h

theorem Token.read?_lineFeed {text : Text} (h : ['/', '*', '*', '\n'] <:+ text) :
    read? text = none := by
  -- a token that took a part of the ending would leave a `**` that has no tokens
  have hstars : read? ['*', '*', '\n'] = none := by simp [read?]
  fun_induction read? text with
  | case1 => simp at h
  | case2 rest ih =>
    simp only [List.suffix_cons_iff] at h
    rcases h with heq | heq | heq | heq | h
    · simp at heq
    · simp at heq
    · simp at heq
    · obtain rfl : rest = ['*', '*', '\n'] := by simpa using heq.symm
      rw [hstars]
      rfl
    · rw [ih h]
      rfl
  | case3 => simp [List.suffix_cons_iff] at h
  | case4 => rfl
  | case5 rest _ ih | case6 rest ih | case8 rest _ ih =>
    rw [ih ((List.suffix_cons_iff.1 h).resolve_left (by simp))]
    rfl
  | case7 rest cls after hclass ih =>
    obtain ⟨-, inner, rfl, -, -⟩ := CharClass.read?_local hclass
    rw [ih (suffix_of_bracket (by decide) ((List.suffix_cons_iff.1 h).resolve_left (by simp)))]
    rfl
  | case9 c rest ih =>
    rcases List.suffix_cons_iff.1 ((List.suffix_cons_iff.1 h).resolve_left (by simp)) with heq | h
    · obtain ⟨-, rfl⟩ := List.cons.inj heq
      rw [hstars]
      rfl
    · rw [ih h]
      rfl
  | case10 c rest _ _ _ _ _ _ _ ih =>
    rcases List.suffix_cons_iff.1 h with heq | h
    · obtain ⟨-, rfl⟩ := List.cons.inj heq
      rw [hstars]
      rfl
    · rw [ih h]
      rfl

theorem EndsWithLineFeed.unrooted {text : Text} (h : EndsWithLineFeed text) :
    EndsWithLineFeed (unrooted text) := by
  rcases eq_unrooted text with heq | ⟨-, heq⟩
  · rw [heq] at h
    exact (List.suffix_cons_iff.1 h).resolve_left (by simp)
  · rwa [heq]

theorem EndsWithLineFeed.dropGlobstars {text : Text} (h : EndsWithLineFeed text) :
    EndsWithLineFeed (dropGlobstars text) := by
  fun_induction Pattern.dropGlobstars text with
  | case1 rest ih =>
    refine ih ?_
    have hsuffix := h.cases.resolve_left (by simp)
    exact (List.suffix_cons_iff.1 ((List.suffix_cons_iff.1 hsuffix).resolve_left
      (by simp))).resolve_left (by simp)
  | case2 => exact h

/-- A pattern that ends with `**` and a line feed behind it cannot be compiled. -/
theorem not_isReadable_of_lineFeed {pattern : Text} (h : EndsWithLineFeed pattern) :
    ¬ IsReadable (core pattern) := by
  have hcore : core pattern = ['*', '*', '\n'] ∨ ['/', '*', '*', '\n'] <:+ core pattern := by
    rw [core_eq_unrooted]
    rcases h.unrooted.dropGlobstars.cases with heq | hsuffix
    · rw [heq]
      exact Or.inl rfl
    · exact Or.inr (suffix_collapseGlobstars hsuffix)
  have hread : Token.read? (core pattern) = none := by
    rcases hcore with heq | hsuffix
    · rw [heq]
      simp [Token.read?]
    · exact Token.read?_lineFeed hsuffix
  rintro (hnil | hstars | ⟨tokens, htokens, -⟩)
  · simp [hnil] at hcore
  · simp [hstars, doubleStar, List.suffix_cons_iff] at hcore
  · rw [hread] at htokens
    cases htokens

theorem endsWithLineFeed_intercalate (front : List Text) :
    EndsWithLineFeed (List.intercalate ['/'] (front ++ [doubleStar]) ++ ['\n']) := by
  refine ⟨slashed front, ?_⟩
  have hslashed := slashed_eq_cons_intercalate (List.append_ne_nil_of_right_ne_nil front
    (List.cons_ne_nil doubleStar []))
  rw [← List.cons_append, ← hslashed, slashed_append, List.append_assoc]
  rfl

theorem intercalate_append_last (front : List Text) (last text : Text) :
    List.intercalate ['/'] (front ++ [last]) ++ text =
      List.intercalate ['/'] (front ++ [last ++ text]) := by
  cases front <;> simp [intercalate_cons]

/-- A line feed behind a pattern makes no difference to its runs of `**`. -/
theorem equivalent_run_lineFeed (front back : List Text) {lineFeed : Text}
    (hlineFeed : lineFeed = [] ∨ lineFeed = ['\n']) (directoryOnly : Bool) (count : Nat) :
    Equivalent directoryOnly
      (List.intercalate ['/'] (front ++ doubleStar :: back) ++ lineFeed)
      (List.intercalate ['/']
        (front ++ List.replicate (count + 1) doubleStar ++ back) ++ lineFeed) := by
  rcases hlineFeed with rfl | rfl
  · rw [List.append_nil, List.append_nil]
    exact equivalent_run front back directoryOnly count
  rcases List.eq_nil_or_concat back with rfl | ⟨more, last, rfl⟩
  · have hlast := endsWithLineFeed_intercalate (front ++ List.replicate count doubleStar)
    rw [List.append_assoc, ← List.replicate_succ'] at hlast
    rw [List.append_nil]
    exact .of_unreadable (by simp) (by simp)
      (not_isReadable_of_lineFeed (endsWithLineFeed_intercalate front))
      (not_isReadable_of_lineFeed hlast)
  · have h := equivalent_run front (more ++ [last ++ ['\n']]) directoryOnly count
    rw [← List.cons_append, ← List.append_assoc, ← List.append_assoc, ← intercalate_append_last,
      ← intercalate_append_last] at h
    simpa using h

/-! ### The laws -/

theorem intercalate_components (units : List Piece) :
    List.intercalate ['/'] ((components units).map textOf) = textOf units := by
  induction units with
  | nil => rfl
  | cons piece units ih =>
    by_cases hpiece : piece = .plain '/'
    · rw [hpiece, components_slash, List.map_cons, intercalate_cons,
        slashed_eq_cons_intercalate (by simpa using components_ne_nil units), ih]
      rfl
    · obtain ⟨first, more, hcomponents, hcons⟩ := components_cons hpiece units
      rw [hcomponents, List.map_cons, intercalate_cons] at ih
      rw [hcons, List.map_cons, intercalate_cons]
      cases piece <;> simp [textOf, ← ih]

/-- A text has at most one line feed more than what is left without a final one. -/
theorem eq_dropFinalNewline (text : Text) :
    text = text.dropFinalNewline ∨ text = text.dropFinalNewline ++ ['\n'] := by
  unfold Text.dropFinalNewline
  cases hdrop : Text.dropEnd? ['\n'] text with
  | none => exact Or.inl rfl
  | some rest => exact Or.inr (Text.eq_of_dropEnd? hdrop)

theorem exists_pieces_of_isGrammatical {pattern : Text} (h : isGrammatical pattern = true) :
    ∃ units, pieces pattern = some units := by
  unfold isGrammatical at h
  cases hunits : pieces pattern with
  | none =>
    rw [hunits] at h
    cases h
  | some units => exact ⟨units, rfl⟩

/-- A pattern that the check accepts is made of units, perhaps with a line feed behind them. -/
theorem exists_pieces_of_checkText {raw : Text} (h : checkText raw = .ok raw) :
    ∃ pattern lineFeed units, (lineFeed = [] ∨ lineFeed = ['\n']) ∧ raw = pattern ++ lineFeed ∧
      pieces pattern = some units := by
  have hgrammar : isGrammatical raw = true ∨ isGrammatical raw.dropFinalNewline = true := by
    unfold checkText at h
    split at h
    · cases h
    · split at h
      · cases h
      · split at h
        · assumption
        · cases h
  rcases hgrammar with hgrammar | hgrammar
  · obtain ⟨units, hunits⟩ := exists_pieces_of_isGrammatical hgrammar
    exact ⟨raw, [], units, Or.inl rfl, (List.append_nil raw).symm, hunits⟩
  · obtain ⟨units, hunits⟩ := exists_pieces_of_isGrammatical hgrammar
    rcases eq_dropFinalNewline raw with heq | heq
    · exact ⟨_, [], units, Or.inl rfl, heq.trans (List.append_nil _).symm, hunits⟩
    · exact ⟨_, ['\n'], units, Or.inr rfl, heq, hunits⟩

/-- The laws of anchors and of `**`. A pattern that does not begin with `/` accepts what the
pattern behind a `/` accepts, and what has this behind one of its `/`; with `**/` or `/**/` in
front it accepts the same. A pattern that the check accepts is made of units, perhaps with a line
feed behind them, and in every such pattern a component `**` can be written as a run of them, and a
run as one. -/
theorem anchors_and_runs :
    (∀ (pattern : Text) (directoryOnly : Bool) (m : Matcher), pattern ≠ [] →
      pattern.head? ≠ some '/' → compile pattern directoryOnly = .ok m →
      (∃ anchored, compile ('/' :: pattern) directoryOnly = .ok anchored ∧ ∀ text, text ≠ [] →
        (m.accepts text = true ↔ ∃ front back, (front = [] ∨ front.getLast? = some '/') ∧
          back ≠ [] ∧ anchored.accepts back = true ∧ text = front ++ back)) ∧
      Equivalent directoryOnly ("**/".toList ++ pattern) pattern ∧
      Equivalent directoryOnly ("/**/".toList ++ pattern) pattern) ∧
    (∀ raw : Text, checkText raw = .ok raw → ∃ pattern lineFeed units,
      (lineFeed = [] ∨ lineFeed = ['\n']) ∧ raw = pattern ++ lineFeed ∧
        pieces pattern = some units) ∧
    ∀ (pattern lineFeed : Text) (units : List Piece) (front back : List (List Piece))
      (directoryOnly : Bool) (count : Nat), lineFeed = [] ∨ lineFeed = ['\n'] →
      pieces pattern = some units → components units = front ++ globstar :: back →
      Equivalent directoryOnly (pattern ++ lineFeed) (List.intercalate ['/']
        ((front ++ List.replicate (count + 1) globstar ++ back).map textOf) ++ lineFeed) := by
  refine ⟨fun pattern directoryOnly m hne hroot h => ?_, fun raw => exists_pieces_of_checkText,
    fun pattern lineFeed units front back directoryOnly count hlineFeed hunits hcomponents => ?_⟩
  · exact ⟨accepts_iff_anchored h hne hroot, equivalent_doubleStar hne hroot (Or.inl rfl),
      equivalent_doubleStar hne hroot (Or.inr rfl)⟩
  · have hpattern : pattern = List.intercalate ['/']
        (front.map textOf ++ doubleStar :: back.map textOf) := by
      rw [← textOf_pieces hunits, ← intercalate_components, hcomponents, List.map_append]
      rfl
    have hrun := equivalent_run_lineFeed (front.map textOf) (back.map textOf) hlineFeed
      directoryOnly count
    rw [List.map_append, List.map_append, List.map_replicate, hpattern]
    exact hrun

/-- The pattern `*`, which has no expression, and a `**` next to a class. -/
theorem anchors_and_runs_star :
    (∃ m anchored, compile "*" true = .ok m ∧ compile "/*" true = .ok anchored ∧
      (m.accepts "a/b/" = true ↔ ∃ front back, (front = [] ∨ front.getLast? = some '/') ∧
        back ≠ [] ∧ anchored.accepts back = true ∧ "a/b/".toList = front ++ back)) ∧
    Equivalent true "/**/*" "*" ∧ Equivalent false "a/**/[!b]" "a/**/**/**/[!b]" := by
  have hstar : compile "*" true = .ok ⟨"*", true, none⟩ := rfl
  obtain ⟨⟨anchored, hanchored, haccepts⟩, -, hglobstar⟩ :=
    anchors_and_runs.1 "*" true _ (by decide) (by decide) hstar
  refine ⟨⟨_, anchored, hstar, hanchored, haccepts "a/b/" (by decide)⟩, hglobstar, ?_⟩
  exact anchors_and_runs.2.2 "a/**/[!b]" [] _ [[.plain 'a']]
    [[.plain '[', .plain '!', .plain 'b', .plain ']']] false 2 (Or.inl rfl) rfl (by decide)

end PathRights.Pattern
