import PathRights.Proofs.Pattern.Agreement
import PathRights.Proofs.Pattern.Components

/-! Patterns written without wildcards. The names of a place, each behind a `/`, are a pattern for
this place alone, and with `/**` behind them one for all places below it. -/

namespace PathRights.Pattern

/-- A name that stands for itself in a pattern. -/
structure IsLiteral (name : Text) : Prop where
  nonempty : name ≠ []
  notBlank : ∀ c ∈ name, Text.isBlank c = false
  plain : ∀ c ∈ name, c ∉ ['\x00', '/', '*', '?', '[', '\\']

theorem IsLiteral.isName {name : Text} (h : IsLiteral name) : IsName name :=
  ⟨h.nonempty, fun hmem => h.plain '/' hmem (by simp)⟩

theorem mem_slashed {c : Char} {names : List Text} (h : c ∈ slashed names) :
    c = '/' ∨ ∃ name ∈ names, c ∈ name := by
  obtain ⟨name, hname, hmem⟩ := List.mem_flatMap.1 h
  rcases List.mem_cons.1 hmem with rfl | hmem
  · exact Or.inl rfl
  · exact Or.inr ⟨name, hname, hmem⟩

/-! ### Tokens -/

/-- The character is none that a pattern gives a meaning to; it may be a `/`. -/
def IsPlain (c : Char) : Prop := c ≠ '*' ∧ c ≠ '?' ∧ c ≠ '[' ∧ c ≠ '\\'

namespace Token

/-- Plain characters are read one by one, if no `*` makes the last of them part of a `**`. -/
theorem read?_plain {text back : Text} (htext : ∀ c ∈ text, IsPlain c)
    (hback : back.head? ≠ some '*') :
    read? (text ++ back) = (read? back).map (text.map .char ++ ·) := by
  induction text with
  | nil => simp
  | cons c text ih =>
    obtain ⟨⟨hstar, hone, hclass, hescape⟩, htext⟩ := List.forall_mem_cons.1 htext
    have hnext : (text ++ back).head? ≠ some '*' := by
      cases text with
      | nil => exact hback
      | cons d text => simpa using (htext d List.mem_cons_self).1
    have hchar : read? (c :: (text ++ back)) = (read? (text ++ back)).map (.char c :: ·) := by
      generalize text ++ back = rest at hnext
      rw [read?]
      · rintro more - rfl
        exact hnext rfl
      · rintro - rfl
        exact hnext rfl
      · exact fun _ h _ => hstar h
      · exact hstar
      · exact hone
      · exact hclass
      · exact fun _ _ h _ => hescape h
    rw [List.cons_append, hchar, ih htext, Option.map_map]
    rfl

theorem stands_chars {text : Text} {tokens : List Token} {target : Text} :
    Stands (text.map .char ++ tokens) target ↔ ∃ rest, Stands tokens rest ∧
      target = text ++ rest := by
  induction text generalizing target with
  | nil => simp
  | cons c text ih =>
    rw [List.map_cons, List.cons_append, stands_char_cons]
    simp only [ih]
    constructor
    · rintro ⟨_, ⟨rest, hrest, rfl⟩, rfl⟩
      exact ⟨rest, hrest, rfl⟩
    · rintro ⟨rest, hrest, rfl⟩
      exact ⟨_, ⟨rest, hrest, rfl⟩, rfl⟩

end Token

theorem collapseGlobstars_plain {text back : Text} (htext : ∀ c ∈ text, IsPlain c)
    (hback : back.head? ≠ some '*') :
    collapseGlobstars (text ++ back) = text ++ collapseGlobstars back := by
  induction text with
  | nil => rfl
  | cons c text ih =>
    have htext' := (List.forall_mem_cons.1 htext).2
    have hnext : (text ++ back).head? ≠ some '*' := by
      cases text with
      | nil => exact hback
      | cons d text => simpa using (htext' d List.mem_cons_self).1
    rw [List.cons_append, collapseGlobstars, ih htext', List.cons_append]
    rintro rest - heq
    rw [heq] at hnext
    exact hnext rfl

theorem isPlain_of_mem_slashed {names : List Text} (hnames : ∀ name ∈ names, IsLiteral name)
    {c : Char} (h : c ∈ slashed names) : IsPlain c := by
  rcases mem_slashed h with rfl | ⟨name, hname, hmem⟩
  · unfold IsPlain
    decide
  · have hplain := (hnames name hname).plain c hmem
    simp only [List.mem_cons, not_or] at hplain
    exact ⟨hplain.2.2.1, hplain.2.2.2.1, hplain.2.2.2.2.1, hplain.2.2.2.2.2.1⟩

theorem isPlain_of_mem_intercalate {names : List Text} (hnames : ∀ name ∈ names, IsLiteral name) :
    ∀ c ∈ List.intercalate ['/'] names, IsPlain c := by
  intro c hc
  cases names with
  | nil => cases hc
  | cons name names =>
    refine isPlain_of_mem_slashed hnames ?_
    rw [slashed_eq_cons_intercalate (List.cons_ne_nil name names)]
    exact List.mem_cons_of_mem _ hc

theorem exists_head_of_literal {names : List Text} (hnames : ∀ name ∈ names, IsLiteral name)
    (hne : names ≠ []) : ∃ c rest more, c ≠ '*' ∧ names = (c :: rest) :: more := by
  obtain ⟨name, more, rfl⟩ := List.exists_cons_of_ne_nil hne
  obtain ⟨c, rest, rfl⟩ :=
    List.exists_cons_of_ne_nil (hnames name List.mem_cons_self).nonempty
  have hplain : IsPlain c := isPlain_of_mem_slashed hnames (by simp)
  exact ⟨c, rest, more, hplain.1, rfl⟩

/-! ### Compilation -/

/-- What stands behind the names of a pattern for what is below them. -/
def behind (below : Bool) : Text := if below then "/**" else []

/-- The token for what is below the names of a pattern. -/
def behindTokens (below : Bool) : List Token := if below then [.below] else []

section

variable {names : List Text} (hnames : ∀ name ∈ names, IsLiteral name) (hne : names ≠ [])

include hnames hne

/-- A literal pattern without the `/` in front, which fixes its place. -/
theorem splitAnchor_literal (below : Bool) :
    splitAnchor (slashed names ++ behind below) =
      (false, List.intercalate ['/'] names ++ behind below) := by
  obtain ⟨c, rest, more, hstar, rfl⟩ := exists_head_of_literal hnames hne
  rw [intercalate_cons, slashed_cons]
  simp [splitAnchor, dropLeadingGlobstars?, hstar]

theorem core_literal (below : Bool) :
    core (slashed names ++ behind below) = List.intercalate ['/'] names ++ behind below := by
  have hplain := isPlain_of_mem_intercalate hnames
  have hback : (behind below).head? ≠ some '*' := by
    cases below <;> decide
  unfold core
  rw [splitAnchor_literal hnames hne, collapseGlobstars_plain hplain hback]
  cases below <;> rfl

omit hne in
theorem read?_literal (below : Bool) :
    Token.read? (List.intercalate ['/'] names ++ behind below) =
      some ((List.intercalate ['/'] names).map .char ++ behindTokens below) := by
  have hplain := isPlain_of_mem_intercalate hnames
  have hback : (behind below).head? ≠ some '*' := by
    cases below <;> decide
  have hread : Token.read? (behind below) = some (behindTokens below) := by
    cases below with
    | false =>
      show Token.read? [] = some []
      rw [Token.read?]
    | true =>
      show Token.read? ['/', '*', '*'] = some [.below]
      rw [Token.read?]
  rw [Token.read?_plain hplain hback, hread]
  rfl

theorem not_matchesAll_literal (below : Bool) : ¬ MatchesAll (slashed names ++ behind below) := by
  obtain ⟨c, rest, more, hstar, rfl⟩ := exists_head_of_literal hnames hne
  rintro (hmem | ⟨-, hcore⟩)
  · simp [matchAll, hstar] at hmem
  · rw [core_literal hnames hne, intercalate_cons] at hcore
    simp [hstar] at hcore

/-- A literal pattern compiles for either kind. -/
theorem compile_literal (below directoryOnly : Bool) :
    ∃ m, compile (slashed names ++ behind below) directoryOnly = .ok m := by
  have hpattern : slashed names ++ behind below ≠ [] := by
    rw [slashed_eq_cons_intercalate hne]
    exact nofun
  have hclass (tokens : List Token)
      (htokens : tokens = (List.intercalate ['/'] names).map .char ++ behindTokens below) :
      Ascending tokens := by
    intro cls hmem
    subst htokens
    cases below <;> simp [behindTokens] at hmem
  rw [compile_eq hpattern (not_matchesAll_literal hnames hne below), core_literal hnames hne,
    read?_literal hnames]
  dsimp only
  have hrange : (expressionWith (slashed names ++ behind below) directoryOnly
      ((List.intercalate ['/'] names).map .char ++ behindTokens below)).badRange? = none :=
    badToken?_eq_none.2 (ascending_ending.2 (hclass _ rfl))
  rw [hrange]
  exact ⟨_, rfl⟩

theorem selects_literal {below : Bool} {path : Text} :
    Selects (slashed names ++ behind below) path ↔
      Token.Stands ((List.intercalate ['/'] names).map .char ++ behindTokens below) path := by
  unfold Selects
  rw [core_literal hnames hne, splitAnchor_literal hnames hne, read?_literal hnames]
  simp [not_matchesAll_literal hnames hne below]

end

/-! ### Places -/

theorem intercalate_ne_nil {names : List Text} (hnames : ∀ name ∈ names, IsName name)
    (hne : names ≠ []) : List.intercalate ['/'] names ≠ [] := by
  obtain ⟨name, more, rfl⟩ := List.exists_cons_of_ne_nil hne
  rw [intercalate_cons]
  exact fun h => (hnames name List.mem_cons_self).1 (List.append_eq_nil_iff.1 h).1

theorem intercalate_inj {names names' : List Text} (hnames : ∀ name ∈ names, IsName name)
    (hnames' : ∀ name ∈ names', IsName name)
    (h : List.intercalate ['/'] names = List.intercalate ['/'] names') : names = names' := by
  by_cases hne : names = []
  · subst hne
    by_cases hne' : names' = []
    · exact hne'.symm
    · exact absurd h.symm (intercalate_ne_nil hnames' hne')
  · have hne' : names' ≠ [] := by
      rintro rfl
      exact intercalate_ne_nil hnames hne h
    refine slashed_inj (fun n hn => (hnames n hn).2) (fun n hn => (hnames' n hn).2) ?_
    rw [slashed_eq_cons_intercalate hne, slashed_eq_cons_intercalate hne', h]

theorem getLast?_intercalate_names {place : List Text} (hplace : ∀ name ∈ place, IsName name) :
    (List.intercalate ['/'] place).getLast? ≠ some '/' := by
  by_cases hne : place = []
  · subst hne
    exact nofun
  · exact getLast?_intercalate hne hplace

/-- A relative path leads to one place, whatever kind of entry it is for. -/
theorem relativePath_inj {place place' : List Text} (hplace : ∀ name ∈ place, IsName name)
    (hplace' : ∀ name ∈ place', IsName name) {directory directory' : Bool}
    (h : relativePath place directory = relativePath place' directory') : place = place' := by
  have hlast := getLast?_intercalate_names hplace
  have hlast' := getLast?_intercalate_names hplace'
  unfold relativePath at h
  cases directory with
  | false =>
    cases directory' with
    | false => exact intercalate_inj hplace hplace' (by simpa using h)
    | true => simp [show List.intercalate ['/'] place = _ from by simpa using h] at hlast
  | true =>
    cases directory' with
    | false => simp [show List.intercalate ['/'] place' = _ from by simpa using h.symm] at hlast'
    | true => exact intercalate_inj hplace hplace' (by simpa using h)

/-- The path of a place goes on behind the names of another just when the place is below it. -/
theorem intercalate_eq_append_iff {names place : List Text} (hnames : ∀ name ∈ names, IsName name)
    (hplace : ∀ name ∈ place, IsName name) (hne : names ≠ []) :
    (∃ rest, rest ≠ [] ∧
      List.intercalate ['/'] place = List.intercalate ['/'] names ++ '/' :: rest) ↔
      ∃ more, more ≠ [] ∧ place = names ++ more := by
  constructor
  · rintro ⟨rest, hrest, heq⟩
    have hplace' : place ≠ [] := by
      rintro rfl
      simp [List.intercalate] at heq
    have hslashed : slashed place = slashed names ++ '/' :: rest := by
      rw [slashed_eq_cons_intercalate hplace', slashed_eq_cons_intercalate hne, heq]
      rfl
    obtain ⟨below, hbelow, hrest'⟩ := slashed_eq_append (fun n hn => (hplace n hn).2)
      (fun n hn => (hnames n hn).2) rfl hslashed
    refine ⟨below, ?_, hbelow⟩
    rintro rfl
    cases hrest'
  · rintro ⟨more, hmore, rfl⟩
    obtain ⟨name, more, rfl⟩ := List.exists_cons_of_ne_nil hmore
    have hname := hplace name (by simp)
    refine ⟨name ++ slashed more, fun h => hname.1 (List.append_eq_nil_iff.1 h).1, ?_⟩
    have hslashed : slashed (names ++ name :: more) =
        slashed names ++ '/' :: (name ++ slashed more) := by simp
    rw [slashed_eq_cons_intercalate (by simp), slashed_eq_cons_intercalate hne] at hslashed
    exact (List.cons.inj hslashed).2

section

variable {names place : List Text} (hnames : ∀ name ∈ names, IsLiteral name) (hne : names ≠ [])
  (hplace : ∀ name ∈ place, IsName name) {directoryOnly : Bool} {m : Matcher}

include hnames hne hplace

theorem accepts_literal_iff {below : Bool}
    (h : compile (slashed names ++ behind below) directoryOnly = .ok m) :
    m.accepts (relativePath place directoryOnly) = true ↔
      ∃ rest, Token.Stands (behindTokens below) rest ∧
        List.intercalate ['/'] place = List.intercalate ['/'] names ++ rest := by
  have hpattern : slashed names ++ behind below ≠ [] := by
    rw [slashed_eq_cons_intercalate hne]
    exact nofun
  unfold relativePath
  rw [accepts_iff_selects h hpattern (getLast?_intercalate_names hplace),
    selects_literal hnames hne,
    Token.stands_chars]

/-- The names of a place are a pattern for it and for no other. -/
theorem accepts_literal (h : compile (slashed names ++ behind false) directoryOnly = .ok m) :
    m.accepts (relativePath place directoryOnly) = true ↔ place = names := by
  rw [accepts_literal_iff hnames hne hplace h]
  constructor
  · rintro ⟨rest, hrest, heq⟩
    rw [show rest = [] from hrest, List.append_nil] at heq
    exact intercalate_inj hplace (fun n hn => (hnames n hn).isName) heq
  · rintro rfl
    exact ⟨[], rfl, (List.append_nil _).symm⟩

/-- With `/**` behind them, they are one for all places below. -/
theorem accepts_literal_below (h : compile (slashed names ++ behind true) directoryOnly = .ok m) :
    m.accepts (relativePath place directoryOnly) = true ↔
      ∃ more, more ≠ [] ∧ place = names ++ more := by
  rw [accepts_literal_iff hnames hne hplace h,
    ← intercalate_eq_append_iff (fun n hn => (hnames n hn).isName) hplace hne]
  constructor
  · rintro ⟨_, hrest, heq⟩
    obtain ⟨rest, hsome, rfl⟩ := Token.stands_singleton.1 hrest
    exact ⟨rest, hsome, heq⟩
  · rintro ⟨rest, hrest, heq⟩
    exact ⟨_, Token.stands_singleton.2 ⟨rest, hrest, rfl⟩, heq⟩

end

/-! ### The check -/

theorem pieces_plain {text : Text} (h : '\\' ∉ text) : pieces text = some (text.map .plain) := by
  induction text with
  | nil => rfl
  | cons c text ih =>
    simp only [List.mem_cons, not_or] at h
    rw [pieces, ih h.2]
    · rfl
    · exact fun heq => absurd heq.symm h.1
    · exact fun _ _ heq => absurd heq.symm h.1

theorem components_group {group : List Piece} (h : .plain '/' ∉ group) {units first : List Piece}
    {more : List (List Piece)} (hunits : components units = first :: more) :
    components (group ++ units) = (group ++ first) :: more := by
  induction group with
  | nil => exact hunits
  | cons piece group ih =>
    simp only [List.mem_cons, not_or] at h
    rw [List.cons_append, components, if_neg (Ne.symm h.1), ih h.2]
    rfl

theorem components_groups {groups : List (List Piece)} (h : ∀ group ∈ groups, .plain '/' ∉ group) :
    components (groups.flatMap (.plain '/' :: ·)) = [] :: groups := by
  induction groups with
  | nil => rfl
  | cons group groups ih =>
    rw [List.forall_mem_cons] at h
    rw [List.flatMap_cons, List.cons_append, components_slash, components_group h.1 (ih h.2),
      List.append_nil]

/-- Components, each behind a `/`, follow the grammar, with and without a `/` behind the last. -/
theorem isGrammatical_groups {text : Text} {groups : List (List Piece)} {mark : Bool}
    (hpieces : pieces text =
      some ((groups ++ if mark then [[]] else []).flatMap (.plain '/' :: ·)))
    (hne : groups ≠ []) (hslash : ∀ group ∈ groups, .plain '/' ∉ group)
    (hcomponent : ∀ group ∈ groups, isComponent group = true) : isGrammatical text = true := by
  have hlast : groups.getLast? ≠ some [] := by
    intro hlast
    cases hcomponent [] (List.mem_of_getLast? hlast)
  have hslash' : ∀ group ∈ groups ++ (if mark then [[]] else []), .plain '/' ∉ group := by
    intro group hgroup
    rcases List.mem_append.1 hgroup with hgroup | hgroup
    · exact hslash group hgroup
    · cases mark with
      | false => cases hgroup
      | true => simp [List.mem_singleton.1 hgroup]
  have hbody : body ((groups ++ if mark then [[]] else []).flatMap (.plain '/' :: ·)) = groups := by
    unfold body
    rw [components_groups hslash']
    cases mark <;> simp [dropLeadingSlash, dropTrailingSlash, hlast]
  unfold isGrammatical
  rw [hpieces]
  dsimp only
  rw [hbody, Bool.or_eq_true, Bool.and_eq_true, List.all_eq_true]
  exact Or.inr ⟨by simpa using hne, hcomponent⟩

theorem isGrammatical_slashed {names : List Text} (hne : names ≠ [])
    (hslash : ∀ name ∈ names, '/' ∉ name ∧ '\\' ∉ name)
    (hcomponents : ∀ name ∈ names, isComponent (name.map .plain) = true) (mark : Bool) :
    isGrammatical (slashed names ++ if mark then ['/'] else []) = true := by
  have hescape : '\\' ∉ slashed names ++ if mark then ['/'] else [] := by
    intro hmem
    rcases List.mem_append.1 hmem with hmem | hmem
    · rcases mem_slashed hmem with heq | ⟨name, hname, hmem⟩
      · cases heq
      · exact (hslash name hname).2 hmem
    · cases mark <;> simp at hmem
  have hpieces : pieces (slashed names ++ if mark then ['/'] else []) =
      some ((names.map (List.map Piece.plain) ++ if mark then [[]] else []).flatMap
        (.plain '/' :: ·)) := by
    rw [pieces_plain hescape, List.map_append, slashed, List.map_flatMap, List.flatMap_append,
      List.flatMap_map]
    cases mark <;> rfl
  refine isGrammatical_groups hpieces (by simpa using hne)
    (List.forall_mem_map.2 fun name hname => ?_)
    (List.forall_mem_map.2 hcomponents)
  simpa using (hslash name hname).1

theorem isComponent_literal {name : Text} (h : IsLiteral name) :
    isComponent (name.map .plain) = true := by
  have hstars : hasStarPair (name.map .plain) = false := by
    have hplain : '*' ∉ name := fun hmem => h.plain '*' hmem (by simp)
    generalize name = text at hplain
    induction text with
    | nil => rfl
    | cons c text ih =>
      simp only [List.mem_cons, not_or] at hplain
      rw [List.map_cons, hasStarPair]
      · exact ih hplain.2
      · rintro _ heq -
        exact hplain.1 (Piece.plain.inj heq).symm
  unfold isComponent
  rw [hstars]
  simp [h.nonempty]

/-- The pattern of a line with the mark for directories behind it. -/
def marked (pattern : Text) (mark : Bool) : Text := pattern ++ if mark then ['/'] else []

theorem mem_marked_literal {names : List Text} (hnames : ∀ name ∈ names, IsLiteral name)
    (below mark : Bool) : ∀ c ∈ marked (slashed names ++ behind below) mark,
      Text.isBlank c = false ∧ c ≠ '\x00' := by
  intro c hc
  rcases List.mem_append.1 hc with hc | hc
  · rcases List.mem_append.1 hc with hc | hc
    · rcases mem_slashed hc with rfl | ⟨name, hname, hc⟩
      · decide
      · refine ⟨(hnames name hname).notBlank c hc, fun heq => ?_⟩
        exact (hnames name hname).plain c hc (by simp [heq])
    · have hback : (behind below).all fun c => !Text.isBlank c && c != '\x00' := by
        cases below <;> decide
      simpa using List.all_eq_true.1 hback c hc
  · have hback : (if mark then ['/'] else []).all fun c => !Text.isBlank c && c != '\x00' := by
      cases mark <;> decide
    simpa using List.all_eq_true.1 hback c hc

/-- A literal pattern passes the check, with and without the mark for directories. -/
theorem checkText_literal {names : List Text} (hnames : ∀ name ∈ names, IsLiteral name)
    (hne : names ≠ []) (below mark : Bool) :
    checkText (marked (slashed names ++ behind below) mark) =
      .ok (marked (slashed names ++ behind below) mark) := by
  have hmem := mem_marked_literal hnames below mark
  unfold marked at hmem ⊢
  refine (checkText_ok_iff fun c hc => (hmem c hc).1).2 ⟨?_, fun hc => (hmem _ hc).2 rfl, ?_⟩
  · rw [slashed_eq_cons_intercalate hne]
    exact nofun
  · have hsplit : slashed names ++ behind below =
        slashed (names ++ if below then ["**".toList] else []) := by
      cases below <;> simp [behind]
    rw [hsplit]
    have hall : ∀ name ∈ names ++ (if below then ["**".toList] else []),
        name = "**".toList ∨ IsLiteral name := by
      intro name hname
      rcases List.mem_append.1 hname with hname | hname
      · exact Or.inr (hnames name hname)
      · cases below with
        | false => cases hname
        | true => exact Or.inl (List.mem_singleton.1 hname)
    refine isGrammatical_slashed (by simp [hne]) (fun name hname => ?_) (fun name hname => ?_) mark
    · rcases hall name hname with rfl | h
      · decide
      · exact ⟨h.isName.2, fun hc => h.plain _ hc (by simp)⟩
    · rcases hall name hname with rfl | h
      · decide
      · exact isComponent_literal h

end PathRights.Pattern
