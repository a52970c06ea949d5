import PathRights.Proofs.Pattern.Notation
import PathRights.Text.Blank

/-! The grammar of patterns and their compilation agree. The grammar looks at the components of a
pattern, the compilation at its text; both come down to whether a `**` is misplaced. From this,
`uncompilable_iff_malformed` and its neighbours say what can go wrong with the pattern of a line
that the grammar accepts: only a range that runs backwards. -/

namespace PathRights.Pattern

/-! ### Components without a misplaced `**` -/

/-- Only whole components are `**`. The first component is not one unless it is `fresh`, that is,
unless nothing of it came before. -/
def WellPlaced (fresh : Bool) : List (List Piece) → Prop
  | [] => True
  | first :: more => (hasStarPair first = true → fresh = true ∧ first = globstar) ∧
      ∀ component ∈ more, hasStarPair component = true → component = globstar

theorem wellPlaced_true {groups : List (List Piece)} : WellPlaced true groups ↔
    ∀ component ∈ groups, hasStarPair component = true → component = globstar := by
  cases groups <;> simp [WellPlaced]

theorem components_ne_nil (units : List Piece) : components units ≠ [] := by
  cases units with
  | nil => simp [components]
  | cons piece units =>
    unfold components
    split
    · simp
    · split <;> simp

theorem components_cons {piece : Piece} (h : piece ≠ .plain '/') (units : List Piece) :
    ∃ first more, components units = first :: more ∧
      components (piece :: units) = (piece :: first) :: more := by
  obtain ⟨first, more, hcomponents⟩ := List.exists_cons_of_ne_nil (components_ne_nil units)
  exact ⟨first, more, hcomponents, by rw [components, if_neg h, hcomponents]⟩

theorem components_slash (units : List Piece) :
    components (.plain '/' :: units) = [] :: components units := by
  rw [components, if_pos rfl]

theorem hasStarPair_cons {piece : Piece} {units : List Piece}
    (h : piece = .plain '*' → units.head? ≠ some (.plain '*')) :
    hasStarPair (piece :: units) = hasStarPair units := by
  rw [hasStarPair]
  rintro more rfl rfl
  simp at h

/-- The first unit is a plain character just when the text begins with that character. -/
theorem head?_pieces {text : Text} {units : List Piece} {c : Char} (hc : c ≠ '\\')
    (h : pieces text = some units) : units.head? = some (.plain c) ↔ text.head? = some c := by
  unfold pieces at h
  split at h
  · cases h
    simp
  · cases h
  · obtain ⟨more, -, rfl⟩ := Option.map_eq_some_iff.1 h
    simp [hc.symm]
  · obtain ⟨more, -, rfl⟩ := Option.map_eq_some_iff.1 h
    simp

theorem components_head_eq_nil {text : Text} {units first : List Piece} {more : List (List Piece)}
    (h : pieces text = some units) (hcomponents : components units = first :: more) :
    first = [] ↔ endsComponent text = true := by
  have hhead := head?_pieces (c := '/') (by decide) h
  cases units with
  | nil =>
    have htext := textOf_pieces h
    rw [textOf] at htext
    simp only [components, List.cons.injEq] at hcomponents
    simp [← hcomponents.1, ← htext, endsComponent]
  | cons piece units =>
    have htext : text ≠ [] := by
      rintro rfl
      simp [pieces] at h
    obtain ⟨c, text, rfl⟩ := List.exists_cons_of_ne_nil htext
    simp only [List.head?_cons, Option.some.injEq] at hhead
    by_cases hpiece : piece = .plain '/'
    · rw [hpiece, components_slash, List.cons.injEq] at hcomponents
      simp [← hcomponents.1, endsComponent, hhead.1 hpiece]
    · obtain ⟨first', more', -, heq⟩ := components_cons hpiece units
      rw [heq, List.cons.injEq] at hcomponents
      have hc : c ≠ '/' := fun hc => hpiece (hhead.2 hc)
      simp [← hcomponents.1, endsComponent, hc]

/-- A unit that is no `/` and begins no `**` adds nothing to its component that could be
misplaced, and makes it no `**` either. -/
theorem wellPlaced_cons {fresh : Bool} {piece : Piece} {units : List Piece}
    (hslash : piece ≠ .plain '/') (hstar : piece = .plain '*' → units.head? ≠ some (.plain '*')) :
    WellPlaced fresh (components (piece :: units)) ↔ WellPlaced false (components units) := by
  obtain ⟨first, more, hcomponents, hcons⟩ := components_cons hslash units
  have hfirst : piece = .plain '*' → first.head? ≠ some (.plain '*') := by
    intro hpiece hhead
    cases units with
    | nil =>
      simp only [components, List.cons.injEq] at hcomponents
      simp [← hcomponents.1] at hhead
    | cons next units =>
      by_cases hnext : next = .plain '/'
      · rw [hnext, components_slash, List.cons.injEq] at hcomponents
        simp [← hcomponents.1] at hhead
      · obtain ⟨first', more', -, heq⟩ := components_cons hnext units
        rw [heq, List.cons.injEq] at hcomponents
        rw [← hcomponents.1] at hhead
        exact hstar hpiece hhead
  have hglobstar : piece :: first ≠ globstar := by
    intro heq
    obtain ⟨rfl, rfl⟩ := List.cons.inj heq
    exact hfirst rfl rfl
  rw [hcons, hcomponents, WellPlaced, WellPlaced, hasStarPair_cons hfirst]
  simp [hglobstar]

/-- The text has no misplaced `**` just when its components have none. -/
theorem misplaces_eq_false_iff {fresh : Bool} {text : Text} {units : List Piece}
    (h : pieces text = some units) :
    misplaces fresh text = false ↔ WellPlaced fresh (components units) := by
  -- `fresh` says that nothing of the component was read yet, and only then may a `**` begin
  fun_induction misplaces fresh text generalizing units with
  | case1 =>
    cases h
    simp [components, WellPlaced, hasStarPair]
  | case2 _ c rest ih =>
    obtain ⟨more, hmore, rfl⟩ := Option.map_eq_some_iff.1 h
    rw [ih hmore, wellPlaced_cons (by simp) (by simp)]
  | case3 _ rest ih =>
    obtain ⟨more, hmore, rfl⟩ := Option.map_eq_some_iff.1 h
    rw [ih hmore, components_slash, wellPlaced_true]
    simp [WellPlaced, hasStarPair]
  | case4 fresh rest ih =>
    obtain ⟨rest', hrest', rfl⟩ := Option.map_eq_some_iff.1 h
    obtain ⟨more, hmore, rfl⟩ := Option.map_eq_some_iff.1 hrest'
    obtain ⟨_, groups, htail, hcons⟩ :=
      @components_cons (.plain '*') (by simp) (.plain '*' :: more)
    obtain ⟨first, groups', hcomponents, hcons'⟩ :=
      @components_cons (.plain '*') (by simp) more
    obtain ⟨rfl, rfl⟩ := List.cons.inj (htail.symm.trans hcons')
    have hends := components_head_eq_nil hmore hcomponents
    rw [Bool.or_eq_false_iff, ih hmore, hcons, hcomponents]
    simp only [WellPlaced, hasStarPair, globstar, Bool.not_eq_false', Bool.and_eq_true, ← hends]
    constructor
    · rintro ⟨⟨rfl, rfl⟩, -, hgroups⟩
      exact ⟨by simp, hgroups⟩
    · rintro ⟨hfirst, hgroups⟩
      obtain ⟨rfl, hglobstar⟩ := hfirst trivial
      obtain rfl : first = [] := by simpa using hglobstar
      exact ⟨by simp, by simp [hasStarPair], hgroups⟩
  | case5 fresh c rest hescape hslash hstar ih =>
    have hc : c ≠ '\\' := by
      rintro rfl
      cases rest with
      | nil => simp [pieces] at h
      | cons d rest => exact hescape d rest rfl rfl
    have hpieces : pieces (c :: rest) = (pieces rest).map (.plain c :: ·) := by
      rw [pieces]
      · exact fun hc' _ => hc hc'
      · exact fun d more hc' _ => hc hc'
    obtain ⟨more, hmore, rfl⟩ := Option.map_eq_some_iff.1 (hpieces ▸ h)
    rw [ih hmore, wellPlaced_cons (by simpa using hslash)]
    intro hpiece hhead
    obtain ⟨rest, rfl⟩ := List.head?_eq_some_iff.1 ((head?_pieces (by decide) hmore).1 hhead)
    exact hstar rest (by simpa using hpiece) rfl

/-! ### The grammar -/

theorem isComponent_globstar {component : List Piece} (h : isComponent component = true)
    (hstars : hasStarPair component = true) : component = globstar := by
  simpa [isComponent, hstars] using h

/-- The slashes around a pattern are all that its body leaves out. -/
theorem mem_body {units : List Piece} {component : List Piece}
    (h : component ∈ components units) : component = [] ∨ component ∈ body units := by
  have hleading : ∀ groups : List (List Piece), component ∈ groups →
      component = [] ∨ component ∈ dropLeadingSlash groups := by
    intro groups hmem
    unfold dropLeadingSlash
    split
    · exact List.mem_cons.1 hmem
    · exact Or.inr hmem
  have htrailing : ∀ groups : List (List Piece), component ∈ groups →
      component = [] ∨ component ∈ dropTrailingSlash groups := by
    intro groups hmem
    unfold dropTrailingSlash
    split
    · next hlast =>
      have hgroups := List.dropLast_append_getLast? [] hlast
      rw [← hgroups, List.mem_append, List.mem_singleton] at hmem
      exact hmem.symm
    · exact Or.inr hmem
  rcases hleading _ h with hnil | hmem
  · exact Or.inl hnil
  · exact htrailing _ hmem

/-- No `**` of a pattern that follows the grammar is misplaced. -/
theorem misplaces_of_isGrammatical {text : Text} (h : isGrammatical text = true) :
    misplaces true text = false := by
  unfold isGrammatical at h
  split at h
  · cases h
  · next units hunits =>
    simp only [Bool.or_eq_true, Bool.and_eq_true, beq_iff_eq, List.all_eq_true] at h
    rw [misplaces_eq_false_iff hunits, wellPlaced_true]
    intro component hmem hstars
    rcases h with rfl | ⟨-, hall⟩
    · have hcomponents : components [.plain '/'] = [[], []] := rfl
      simp only [hcomponents, List.mem_cons, List.not_mem_nil, or_false, or_self] at hmem
      simp [hmem, hasStarPair] at hstars
    · rcases mem_body hmem with rfl | hbody
      · simp [hasStarPair] at hstars
      · exact isComponent_globstar (hall component hbody) hstars

/-- A pattern follows the grammar if no component of it is empty and no `**` is misplaced. -/
theorem isGrammatical_of_misplaces {text : Text} {units : List Piece} (h : pieces text = some units)
    (hne : text ≠ []) (hempty : [] ∉ dropLeadingSlash (components units))
    (hm : misplaces true text = false) : isGrammatical text = true := by
  have hplaced := wellPlaced_true.1 ((misplaces_eq_false_iff h).1 hm)
  have hbody : body units = dropLeadingSlash (components units) := by
    unfold body dropTrailingSlash
    exact if_neg fun hlast => hempty (List.mem_of_getLast? hlast)
  have hsub : ∀ component ∈ dropLeadingSlash (components units),
      component ∈ components units := by
    intro component hmem
    unfold dropLeadingSlash at hmem
    split at hmem
    · next heq =>
      rw [heq]
      exact List.mem_cons_of_mem _ hmem
    · exact hmem
  have hnonempty : dropLeadingSlash (components units) ≠ [] := by
    intro hnil
    cases units with
    | nil => exact hne (textOf_pieces h).symm
    | cons piece units =>
      by_cases hpiece : piece = .plain '/'
      · rw [hpiece, components_slash] at hnil
        exact components_ne_nil units hnil
      · obtain ⟨first, more, -, heq⟩ := components_cons hpiece units
        simp [heq, dropLeadingSlash] at hnil
  unfold isGrammatical
  rw [h]
  simp only [hbody, Bool.or_eq_true, Bool.and_eq_true, List.all_eq_true]
  refine Or.inr ⟨by simpa using hnonempty, fun component hmem => ?_⟩
  have hcomponent : component ≠ [] := fun hnil => hempty (hnil ▸ hmem)
  by_cases hstars : hasStarPair component = true
  · simp [isComponent, hplaced component (hsub component hmem) hstars]
  · simp [isComponent, hcomponent, hstars]

/-- A `/` at the end of a text makes no `**` a component that is none without it. Behind a
backslash, the `/` is passed over, and the backslash without it stands for itself. -/
theorem misplaces_of_append_slash {fresh : Bool} {text : Text}
    (h : misplaces fresh (text ++ ['/']) = false) : misplaces fresh text = false := by
  fun_induction misplaces fresh text with
  | case1 => rfl
  | case2 fresh c rest ih =>
    rw [List.cons_append, List.cons_append, misplaces_escaped] at h
    exact ih h
  | case3 fresh rest ih =>
    rw [List.cons_append, misplaces_slash] at h
    exact ih h
  | case4 fresh rest ih =>
    rw [List.cons_append, List.cons_append, misplaces_stars, Bool.or_eq_false_iff] at h
    have hends : endsComponent (rest ++ ['/']) = endsComponent rest := by
      cases rest <;> rfl
    rw [Bool.or_eq_false_iff, ← hends]
    exact ⟨h.1, ih h.2⟩
  | case5 fresh c rest hescape hslash hstar ih =>
    cases rest with
    | nil => cases fresh <;> simp_all [misplaces]
    | cons d rest =>
      rw [List.cons_append, misplaces_cons (fun e more hc _ => hescape d rest hc rfl) hslash
        fun more hc hmore => hstar rest hc (by simpa using (List.cons.inj hmore).1)] at h
      exact ih h

/-! ### Compilation -/

theorem mem_of_mem_collapseGlobstars {c : Char} {text : Text} (h : c ∈ collapseGlobstars text) :
    c ∈ text := by
  fun_induction collapseGlobstars text with
  | case1 rest _ ih => simp [ih h]
  | case2 rest _ ih =>
    simp only [List.mem_cons] at h ⊢
    rcases h with h | h | h | h
    · exact Or.inl h
    · exact Or.inr (Or.inl h)
    · exact Or.inr (Or.inl h)
    · exact Or.inr (Or.inr (Or.inr (ih h)))
  | case3 d rest _ ih =>
    simp only [List.mem_cons] at h ⊢
    exact h.imp_right ih
  | case4 => exact h

theorem mem_of_mem_dropGlobstars {c : Char} {text : Text} (h : c ∈ dropGlobstars text) :
    c ∈ text := by
  fun_induction dropGlobstars text with
  | case1 rest ih => simp [ih h]
  | case2 => exact h

/-- A core has no characters that are not in the pattern. -/
theorem mem_of_mem_core {c : Char} {pattern : Text} (h : c ∈ core pattern) : c ∈ pattern := by
  have hrest := mem_of_mem_collapseGlobstars h
  unfold splitAnchor at hrest
  split at hrest
  · next dropped hdropped =>
    unfold dropLeadingGlobstars? at hdropped
    split at hdropped
    · simp only [Option.some.injEq] at hdropped
      simp [mem_of_mem_dropGlobstars (hdropped ▸ hrest)]
    · simp only [Option.some.injEq] at hdropped
      simp [mem_of_mem_dropGlobstars (hdropped ▸ hrest)]
    · simp at hdropped
  · split at hrest
    · exact List.mem_cons_of_mem _ hrest
    · exact hrest

/-- A class of the pattern has a range that runs backwards. -/
def HasDescendingRange (pattern : Text) (range : BadRange) : Prop :=
  ∃ tokens cls, Token.read? (core pattern) = some tokens ∧ .bracket cls ∈ tokens ∧
    .range range.low range.high ∈ cls.members ∧ range.high.char < range.low.char

/-- Without a misplaced `**`, a pattern does not compile only if there is nothing of it or a range
runs backwards. -/
theorem compile_error_of_misplaces {pattern : Text} {directoryOnly : Bool} {error : PatternError}
    (h : compile pattern directoryOnly = .error error) (hm : misplaces true pattern = false) :
    pattern = [] ∧ directoryOnly = false ∨
      ∃ range, error = .descendingRange pattern range ∧ HasDescendingRange pattern range := by
  rcases compile_error h with ⟨-, hnil⟩ |
    ⟨hne, hall, ⟨-, hread⟩ | ⟨tokens, range, hread, heq, hbad⟩⟩
  · exact Or.inl hnil
  · have hcore : core pattern ≠ ['*', '*'] := fun hcore => hall (Or.inr ⟨hne, Or.inr hcore⟩)
    exact absurd hread (read?_core_ne_none hcore hm)
  · obtain ⟨cls, hmem, hrange, hlt⟩ := badToken?_eq_some hbad
    have htokens : .bracket cls ∈ tokens := by
      rcases List.mem_append.1 hmem with hmem | hmem
      · exact hmem
      · unfold ending at hmem
        split at hmem <;> simp at hmem
    exact Or.inr ⟨range, heq, tokens, cls, hread, htokens, hrange, hlt⟩

/-- A pattern without classes that compiles has no misplaced `**`. -/
theorem misplaces_of_compile {pattern : Text} {directoryOnly : Bool} {m : Matcher}
    (h : compile pattern directoryOnly = .ok m) (hclass : '[' ∉ pattern) :
    misplaces true pattern = false := by
  obtain ⟨-, ⟨-, hall⟩ | ⟨-, rfl, -⟩ | ⟨tokens, hread, hne, hall, -⟩⟩ := compile_ok h
  · rcases hall with hmem | ⟨-, hcore⟩
    · have hnone : ∀ text ∈ matchAll, misplaces true text = false := by decide
      exact hnone pattern hmem
    · rw [← misplaces_core]
      rcases hcore with hcore | hcore <;> rw [hcore] <;> rfl
  · rfl
  · have hcore : core pattern ≠ ['*', '*'] := fun hcore => hall (Or.inr ⟨hne, Or.inr hcore⟩)
    rw [← misplaces_core, misplaces_of_not_startsWithGlobstar (core_not_startsWithGlobstar hcore)]
    exact Token.misplaces_of_read? (collapsed_collapseGlobstars _)
      (fun hmem => hclass (mem_of_mem_core hmem)) (by simp [hread])

/-- The expression of a compiled pattern is well formed. -/
theorem wellFormed_of_compile {pattern : Text} {directoryOnly : Bool} {m : Matcher} {e : Expression}
    (h : compile pattern directoryOnly = .ok m) (hexpression : m.expression = some e) :
    Notation.WellFormed e.text := by
  obtain ⟨-, ⟨hnone, -⟩ | ⟨hsome, -, -⟩ | ⟨tokens, hread, -, -, hsome, hbad⟩⟩ := compile_ok h
  · simp [hnone] at hexpression
  · cases hsome.symm.trans hexpression
    exact @wellFormed_text [] [] (by simp [Token.read?]) (by simp [Ascending])
      false true []
  · cases hsome.symm.trans hexpression
    exact wellFormed_text hread (ascending_ending.1 (badToken?_eq_none.1 hbad)) _ _ _

theorem dropFinalNewline_of_not_blank {text : Text} (h : ∀ c ∈ text, Text.isBlank c = false) :
    text.dropFinalNewline = text := by
  unfold Text.dropFinalNewline Text.dropEnd?
  rw [if_neg]
  · rfl
  · intro hsuffix
    have hmem := (List.isSuffixOf_iff_suffix.1 hsuffix).subset (List.mem_singleton.2 rfl)
    have hblank := h '\n' hmem
    simp [show Text.isBlank '\n' = true from by decide] at hblank

/-- The check of a pattern gives it back. -/
theorem checkText_eq {pattern : Text} (h : ∃ text, checkText pattern = .ok text) :
    checkText pattern = .ok pattern := by
  obtain ⟨text, htext⟩ := h
  rw [htext]
  unfold checkText at htext
  split at htext
  · cases htext
  · split at htext
    · cases htext
    · split at htext
      · exact htext.symm
      · cases htext

/-- Among the texts without blanks, the check of a pattern accepts those that follow the grammar and
have no null character. -/
theorem checkText_ok_iff {pattern : Text} (h : ∀ c ∈ pattern, Text.isBlank c = false) :
    checkText pattern = .ok pattern ↔
      pattern ≠ [] ∧ '\x00' ∉ pattern ∧ isGrammatical pattern = true := by
  unfold checkText
  rw [dropFinalNewline_of_not_blank h]
  cases pattern with
  | nil => simp
  | cons c pattern =>
    by_cases hnull : '\x00' ∈ c :: pattern
    · simp [hnull]
    · by_cases hgrammar : isGrammatical (c :: pattern) = true <;> simp [hnull, hgrammar]

end PathRights.Pattern
