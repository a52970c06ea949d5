import PathRights.Proofs.Pattern.Root

/-! The form of patterns, said without the reading that checks it. A text is written from units in
which no backslash is left alone; `IsForm` says how components of such units and the `/` around them
make up a pattern. `isGrammatical_iff_isForm` says that the left-to-right reading accepts exactly
the texts of this form. -/

namespace PathRights.Pattern

/-! ### Units -/

theorem textOf_append (units more : List Piece) :
    textOf (units ++ more) = textOf units ++ textOf more := by
  induction units with
  | nil => rfl
  | cons piece units ih => cases piece <;> simp [textOf, ih]

theorem pieces_cons {c : Char} (hc : c ≠ '\\') (text : Text) :
    pieces (c :: text) = (pieces text).map (.plain c :: ·) := by
  rw [pieces]
  · intro heq _
    exact hc heq
  · intro d more heq _
    exact hc heq

/-- A text is read in one way: as the units that it is written from, with no backslash alone. -/
theorem pieces_eq_some_iff {text : Text} {units : List Piece} :
    pieces text = some units ↔ textOf units = text ∧ .plain '\\' ∉ units := by
  constructor
  · intro h
    refine ⟨textOf_pieces h, ?_⟩
    fun_induction pieces text generalizing units with
    | case1 =>
      cases h
      exact List.not_mem_nil
    | case2 => cases h
    | case3 c rest ih =>
      obtain ⟨more, hmore, rfl⟩ := Option.map_eq_some_iff.1 h
      simpa using ih hmore
    | case4 c rest hend hescape ih =>
      obtain ⟨more, hmore, rfl⟩ := Option.map_eq_some_iff.1 h
      have hc : c ≠ '\\' := by
        rintro rfl
        cases rest with
        | nil => exact hend rfl rfl
        | cons d rest => exact hescape d rest rfl rfl
      simpa [hc.symm] using ih hmore
  · rintro ⟨rfl, hpaired⟩
    induction units with
    | nil => rfl
    | cons piece units ih =>
      obtain ⟨hpiece, hunits⟩ := not_or.1 (mt List.mem_cons.2 hpaired)
      cases piece with
      | plain c =>
        rw [textOf, pieces_cons (by simpa [eq_comm] using hpiece), ih hunits, Option.map_some]
      | pair c => rw [textOf, pieces, ih hunits, Option.map_some]

/-! ### Components -/

theorem hasStarPair_iff {units : List Piece} : hasStarPair units = true ↔ globstar <:+: units := by
  fun_induction hasStarPair units with
  | case1 rest => exact iff_of_true rfl ⟨[], rest, rfl⟩
  | case2 piece rest hstars ih =>
    rw [ih, List.infix_cons_iff]
    refine (or_iff_right ?_).symm
    rintro ⟨more, heq⟩
    obtain ⟨rfl, rfl⟩ := List.cons.inj heq
    exact hstars more rfl rfl
  | case3 => simp [globstar]

theorem isComponent_iff {component : List Piece} : isComponent component = true ↔
    component = globstar ∨ component ≠ [] ∧ ¬ globstar <:+: component := by
  rw [← hasStarPair_iff]
  simp [isComponent]

/-- The units between the `/` that separate components. -/
theorem of_mem_components {units component : List Piece} (h : component ∈ components units) :
    .plain '/' ∉ component ∧ component ⊆ units := by
  induction units generalizing component with
  | nil =>
    obtain rfl : component = [] := by simpa [components] using h
    simp
  | cons piece units ih =>
    by_cases hpiece : piece = .plain '/'
    · rw [hpiece, components_slash, List.mem_cons] at h
      rcases h with rfl | h
      · simp
      · exact ⟨(ih h).1, List.subset_cons_of_subset _ (ih h).2⟩
    · obtain ⟨first, more, hcomponents, hcons⟩ := components_cons hpiece units
      rw [hcomponents] at ih
      rw [hcons, List.mem_cons] at h
      rcases h with rfl | h
      · obtain ⟨hslash, hsubset⟩ := ih List.mem_cons_self
        refine ⟨?_, List.cons_subset_cons _ hsubset⟩
        intro hmem
        exact (List.mem_cons.1 hmem).elim (hpiece ∘ Eq.symm) hslash
      · obtain ⟨hslash, hsubset⟩ := ih (List.mem_cons_of_mem _ h)
        exact ⟨hslash, List.subset_cons_of_subset _ hsubset⟩

/-! ### The form -/

/-- What stands between two separators: `**`, or units of which no two that follow each other are
`*` without a backslash. -/
structure IsComponentForm (component : List Piece) : Prop where
  nonempty : component ≠ []
  separated : .plain '/' ∉ component
  paired : .plain '\\' ∉ component
  apart : component = globstar ∨ ¬ globstar <:+: component

/-- The components of a pattern as its text, with a `/` in front if it is `rooted` and one behind
if it has a `mark`. -/
def written (rooted : Bool) (groups : List (List Piece)) (mark : Bool) : Text :=
  (if rooted then ['/'] else []) ++ List.intercalate ['/'] (groups.map textOf) ++
    if mark then ['/'] else []

/-- The bare `/`, or one or more components with or without a `/` on either side. -/
def IsForm (text : Text) : Prop :=
  text = ['/'] ∨ ∃ rooted groups mark, groups ≠ [] ∧ (∀ group ∈ groups, IsComponentForm group) ∧
    text = written rooted groups mark

theorem IsComponentForm.isComponent {component : List Piece} (h : IsComponentForm component) :
    isComponent component = true :=
  isComponent_iff.2 (h.apart.imp_right fun hapart => ⟨h.nonempty, hapart⟩)

/-- The `/` around a pattern are empty components of it. -/
theorem written_eq_intercalate {groups : List (List Piece)}
    (hne : groups ≠ []) (rooted mark : Bool) :
    written rooted groups mark = List.intercalate ['/']
      (((if rooted then [[]] else []) ++ groups ++ if mark then [[]] else []).map textOf) := by
  have hnames : groups.map textOf ≠ [] := by simpa using hne
  have hrooted : List.intercalate ['/'] ((if rooted then [[]] else []) ++ groups.map textOf) =
      (if rooted then ['/'] else []) ++ List.intercalate ['/'] (groups.map textOf) := by
    cases rooted with
    | false => rfl
    | true =>
      rw [if_pos rfl, if_pos rfl, List.singleton_append, intercalate_cons,
        slashed_eq_cons_intercalate hnames]
      rfl
  rw [written, ← hrooted]
  cases mark with
  | false => cases rooted <;> simp [textOf]
  | true =>
    rw [if_pos rfl, if_pos rfl, List.map_append, List.map_singleton,
      intercalate_concat (by simp [hne])]
    cases rooted <;> simp [textOf]

/-- Joined groups have themselves for components. -/
theorem exists_components_of_groups {groups : List (List Piece)} (hne : groups ≠ [])
    (hslash : ∀ group ∈ groups, .plain '/' ∉ group)
    (hpaired : ∀ group ∈ groups, .plain '\\' ∉ group) :
    ∃ units, pieces (List.intercalate ['/'] (groups.map textOf)) = some units ∧
      components units = groups := by
  obtain ⟨first, more, rfl⟩ := List.exists_cons_of_ne_nil hne
  have htext : ∀ groups : List (List Piece),
      textOf (groups.flatMap (.plain '/' :: ·)) = slashed (groups.map textOf) := by
    intro groups
    induction groups with
    | nil => rfl
    | cons group groups ih =>
      rw [List.flatMap_cons, textOf_append, ih, List.map_cons, slashed_cons,
        textOf, List.cons_append]
  refine ⟨first ++ more.flatMap (.plain '/' :: ·), pieces_eq_some_iff.2 ⟨?_, ?_⟩, ?_⟩
  · rw [textOf_append, htext, List.map_cons, intercalate_cons]
  · intro hmem
    rcases List.mem_append.1 hmem with hmem | hmem
    · exact hpaired first List.mem_cons_self hmem
    · obtain ⟨group, hgroup, hmem⟩ := List.mem_flatMap.1 hmem
      exact hpaired group (List.mem_cons_of_mem _ hgroup) (by simpa using hmem)
  · have hcomponents := components_groups hslash
    rw [List.flatMap_cons, List.cons_append, components_slash] at hcomponents
    exact (List.cons.inj hcomponents).2

/-- What is left of components without the empty ones around them. -/
theorem body_of_components {units : List Piece} {groups : List (List Piece)} {rooted mark : Bool}
    (h : components units = (if rooted then [[]] else []) ++ groups ++ if mark then [[]] else [])
    (hne : groups ≠ []) (hgroups : ∀ group ∈ groups, group ≠ []) : body units = groups := by
  obtain ⟨first, more, rfl⟩ := List.exists_cons_of_ne_nil hne
  have hfirst : first ≠ [] := hgroups first List.mem_cons_self
  have hlead : dropLeadingSlash (components units) =
      first :: more ++ if mark then [[]] else [] := by
    rw [h]
    cases rooted with
    | true => rfl
    | false =>
      unfold dropLeadingSlash
      split
      · next heq => exact absurd (List.cons.inj heq).1 hfirst
      · rfl
  have hlast : (first :: more).getLast? ≠ some [] :=
    fun hlast => hgroups [] (List.mem_of_getLast? hlast) rfl
  rw [body, hlead]
  unfold dropTrailingSlash
  cases mark with
  | true => rw [if_pos rfl, if_pos List.getLast?_concat, List.dropLast_concat]
  | false => simp [hlast]

/-- The left-to-right reading accepts the texts that have the form of a pattern. -/
theorem isGrammatical_iff_isForm {text : Text} : isGrammatical text = true ↔ IsForm text := by
  constructor
  · intro h
    obtain ⟨units, hunits⟩ := exists_pieces_of_isGrammatical h
    obtain ⟨htext, hpaired⟩ := pieces_eq_some_iff.1 hunits
    unfold isGrammatical at h
    simp only [hunits, Bool.or_eq_true, beq_iff_eq, Bool.and_eq_true, Bool.not_eq_true',
      List.isEmpty_eq_false_iff, List.all_eq_true] at h
    rcases h with rfl | ⟨hne, hall⟩
    · exact Or.inl htext.symm
    obtain ⟨rooted, mark, hcomponents⟩ := exists_components_eq units
    refine Or.inr ⟨rooted, body units, mark, hne, ?_, ?_⟩
    · intro group hgroup
      obtain ⟨hslash, hsubset⟩ := @of_mem_components units group (by simp [hcomponents, hgroup])
      have hgroup := isComponent_iff.1 (hall group hgroup)
      refine ⟨?_, hslash, fun hmem => hpaired (hsubset hmem), hgroup.imp_right And.right⟩
      rintro rfl
      exact hgroup.elim nofun fun h => h.1 rfl
    · rw [written_eq_intercalate hne, ← hcomponents, intercalate_components, htext]
  · rintro (rfl | ⟨rooted, groups, mark, hne, hgroups, rfl⟩)
    · decide
    have haround : ∀ group ∈ (if rooted then [[]] else []) ++ groups ++ (if mark then [[]] else []),
        group = [] ∨ IsComponentForm group := by
      intro group hgroup
      rcases List.mem_append.1 hgroup with hgroup | hgroup
      · rcases List.mem_append.1 hgroup with hgroup | hgroup
        · cases rooted <;> simp_all
        · exact Or.inr (hgroups group hgroup)
      · cases mark <;> simp_all
    obtain ⟨units, hunits, hcomponents⟩ := @exists_components_of_groups
      ((if rooted then [[]] else []) ++ groups ++ if mark then [[]] else []) (by simp [hne])
      (fun group hgroup =>
        (haround group hgroup).elim (by rintro rfl; simp) IsComponentForm.separated)
      fun group hgroup => (haround group hgroup).elim (by rintro rfl; simp) IsComponentForm.paired
    have hbody := body_of_components hcomponents hne fun group hgroup =>
      (hgroups group hgroup).nonempty
    unfold isGrammatical
    rw [written_eq_intercalate hne, hunits]
    simp only [hbody, Bool.or_eq_true, Bool.and_eq_true, Bool.not_eq_true',
      List.isEmpty_eq_false_iff,
      List.all_eq_true]
    exact Or.inr ⟨hne, fun group hgroup => (hgroups group hgroup).isComponent⟩

end PathRights.Pattern
