import PathRights.Proofs.Pattern.Literal
import PathRights.Proofs.Pattern.Runs

/-! Which patterns reach the root of the tree. Its path is `/`, so without the `/` that every
directory has nothing is left for a pattern to take. Of the tokens only a `*` can stand for nothing,
and only a lone one is left alone: what reaches the root is the bare `/`, and components that are
all `**` but for a `*` in the place of the last. `root_rules` says so by the components of a pattern
and by its text. -/

namespace PathRights.Pattern

/-! ### Tokens that stand for nothing -/

namespace Token

/-- Tokens do not stand for nothing when the first of them does not. -/
theorem not_stands_nil {token : Token} {more : Option (List Token)} {tokens : List Token}
    (htoken : ¬ token.Takes []) (h : more.map (token :: ·) = some tokens) : ¬ Stands tokens [] := by
  obtain ⟨more, -, rfl⟩ := Option.map_eq_some_iff.1 h
  rintro ⟨taken, rest, htaken, -, heq⟩
  rw [(List.append_eq_nil_iff.1 heq.symm).1] at htaken
  exact htoken htaken

/-- The tokens of a text stand for nothing only if there are none, or a single `*`. -/
theorem stands_nil_iff {text : Text} {tokens : List Token} (h : read? text = some tokens) :
    Stands tokens [] ↔ text = [] ∨ text = ['*'] := by
  fun_induction read? text generalizing tokens with
  | case1 => simp_all
  | case2 rest | case7 rest _ _ | case8 rest | case9 _ rest =>
    simpa using not_stands_nil (by simp [Takes]) h
  | case3 => simpa using @not_stands_nil .below (some []) _ (by simp [Takes]) h
  | case4 => simp at h
  | case5 rest hstar ih =>
    obtain ⟨more, hmore, rfl⟩ := Option.map_eq_some_iff.1 h
    have hrest : rest ≠ ['*'] := hstar []
    have hstands : Stands (.star :: more) [] ↔ Stands more [] := by
      simp [Stands, Takes]
    rw [hstands, ih hmore]
    simp [hrest]
  | case6 rest =>
    obtain ⟨more, -, rfl⟩ := Option.map_eq_some_iff.1 h
    simp [stands_consRow]
  | case10 c rest _ _ _ hstar =>
    have hc : c ≠ '*' := hstar
    simpa [hc] using not_stands_nil (by simp [Takes]) h

end Token

/-- What can be left of a pattern that reaches the root: nothing, a `**`, or a `*`. -/
def rootCores : List Text := [[], doubleStar, ['*']]

theorem not_mem_slash_of_mem_rootCores : ∀ last ∈ rootCores, '/' ∉ last := by decide

/-- A pattern selects the root by what is left of it. -/
theorem selects_nil_iff {pattern : Text} (hne : pattern ≠ []) :
    Selects pattern [] ↔ core pattern ∈ rootCores := by
  have hstart : ∀ tokens : List Token, (if (splitAnchor pattern).1 then
      ∃ start ∈ starts [], Token.Stands tokens start else Token.Stands tokens []) ↔
        Token.Stands tokens [] := by
    intro tokens
    cases (splitAnchor pattern).1 <;> simp [starts, starts.afterSlash]
  simp only [Selects, hstart, rootCores, List.mem_cons, List.not_mem_nil, or_false]
  constructor
  · rintro (hall | ⟨tokens, hread, hstands⟩)
    · rcases core_of_matchesAll hall with rfl | hcore | hcore
      · exact Or.inr (Or.inr rfl)
      · exact Or.inl hcore
      · exact Or.inr (Or.inl hcore)
    · exact ((Token.stands_nil_iff hread).1 hstands).imp_right Or.inr
  · rintro (hcore | hcore | hcore)
    · exact Or.inl (Or.inr ⟨hne, Or.inl hcore⟩)
    · exact Or.inl (Or.inr ⟨hne, Or.inr hcore⟩)
    · rw [hcore]
      exact Or.inr ⟨_, Token.read?_star, (Token.stands_nil_iff Token.read?_star).2 (Or.inr rfl)⟩

/-! ### Patterns of `**` -/

/-- A pattern of components `**`, any number of them, and a last one. -/
def starRun (rooted : Bool) (count : Nat) (last : Text) : Text :=
  (if rooted then ['/'] else []) ++
  List.intercalate ['/'] (List.replicate count doubleStar ++ [last])

theorem dropGlobstars_starRun (count : Nat) {last : Text} (hslash : '/' ∉ last) :
    dropGlobstars (List.intercalate ['/'] (List.replicate count doubleStar ++ [last])) = last := by
  induction count with
  | zero => simpa [List.intercalate] using @dropGlobstars_component last [] hslash rfl fun _ => rfl
  | succ count ih =>
    rw [List.replicate_succ, List.cons_append, intercalate_cons,
      slashed_eq_cons_intercalate (by simp), dropGlobstars_doubleStar, ih]

theorem core_starRun (rooted : Bool) (count : Nat) {last : Text}
    (hlast : last ∈ rootCores) : core (starRun rooted count last) = last := by
  have hslash := not_mem_slash_of_mem_rootCores last hlast
  have hhead :
      (List.intercalate ['/'] (List.replicate count doubleStar ++ [last])).head? ≠ some '/' := by
    cases count with
    | zero =>
      rw [List.replicate_zero, List.nil_append, List.intercalate_singleton]
      exact fun hhead => hslash (List.mem_of_head? hhead)
    | succ count => simp [List.replicate_succ, intercalate_cons, doubleStar]
  have hunrooted : unrooted (starRun rooted count last) =
      List.intercalate ['/'] (List.replicate count doubleStar ++ [last]) := by
    cases rooted with
    | false => exact unrooted_of_head?_ne hhead
    | true => rfl
  rw [core_eq_unrooted, hunrooted, dropGlobstars_starRun count hslash]
  simpa [collapseGlobstars] using collapseGlobstars_append hslash []

/-- Nothing is left of no other patterns but these. -/
theorem exists_eq_starRun {pattern : Text} (h : core pattern ∈ rootCores) :
    ∃ rooted count last, last ∈ rootCores ∧ pattern = starRun rooted count last := by
  obtain ⟨front, component, more, hparts⟩ := exists_parts pattern
  have hmore : more = [] := by
    by_contra hmore
    have hslash : '/' ∈ core pattern := by
      rw [hparts.core_eq, List.mem_append]
      refine Or.inr (List.mem_of_head? ?_)
      rw [head?_collapseGlobstars, slashed_eq_cons_intercalate hmore]
      rfl
    exact not_mem_slash_of_mem_rootCores _ h hslash
  subst hmore
  have hcomponent : core pattern = component := by
    rw [hparts.core_eq]
    exact List.append_nil component
  have hunrooted : unrooted pattern =
      List.intercalate ['/'] (List.replicate front.length doubleStar ++ [component]) := by
    rw [← intercalate_namesOf, hparts.namesOf_eq, ← List.eq_replicate_of_mem hparts.front_eq]
  rw [hcomponent] at h
  rcases eq_unrooted pattern with heq | ⟨-, heq⟩
  · exact ⟨true, front.length, component, h, heq.trans (by rw [hunrooted]; rfl)⟩
  · exact ⟨false, front.length, component, h, heq.symm.trans hunrooted⟩

/-! ### Components of a checked pattern -/

/-- The components of a pattern are its body, with nothing but empty ones around it. -/
theorem exists_components_eq (units : List Piece) : ∃ rooted marked : Bool, components units =
    (if rooted then [[]] else []) ++ body units ++ if marked then [[]] else [] := by
  have htrail : ∀ groups : List (List Piece), ∃ marked : Bool,
      groups = dropTrailingSlash groups ++ if marked then [[]] else [] := by
    intro groups
    unfold dropTrailingSlash
    split
    · next hlast => exact ⟨true, (List.dropLast_append_getLast? [] hlast).symm⟩
    · exact ⟨false, (List.append_nil groups).symm⟩
  obtain ⟨marked, hmarked⟩ := htrail (dropLeadingSlash (components units))
  have hlead : ∃ rooted : Bool, components units =
      (if rooted then [[]] else []) ++ dropLeadingSlash (components units) := by
    generalize components units = groups
    unfold dropLeadingSlash
    split
    · exact ⟨true, rfl⟩
    · exact ⟨false, rfl⟩
  obtain ⟨rooted, hrooted⟩ := hlead
  refine ⟨rooted, marked, ?_⟩
  rw [List.append_assoc, body, ← hmarked]
  exact hrooted

/-- The body of a pattern with a mark behind it, by its components. -/
theorem body_eq_of_components {units : List Piece} {rooted : Bool} {groups : List (List Piece)}
    (h : components units = (if rooted then [[]] else []) ++ groups ++ [[]])
    (hfirst : rooted = false → groups.head? ≠ some []) : body units = groups := by
  have hlead : dropLeadingSlash (components units) = groups ++ [[]] ∨
      groups = [] ∧ dropLeadingSlash (components units) = [] := by
    rw [h]
    cases rooted with
    | true => exact Or.inl rfl
    | false =>
      cases groups with
      | nil => exact Or.inr ⟨rfl, rfl⟩
      | cons group groups =>
        have hgroup : group ≠ [] := by simpa using hfirst rfl
        refine Or.inl ?_
        unfold dropLeadingSlash
        split
        · next heq => exact absurd (List.cons.inj heq).1 hgroup
        · rfl
  unfold body
  rcases hlead with hlead | ⟨rfl, hlead⟩
  · rw [hlead]
    simp [dropTrailingSlash]
  · rw [hlead]
    rfl

/-- Names are the components of the pattern that they make up. -/
theorem components_intercalate {names : List Text} (hne : names ≠ [])
    (hslash : ∀ name ∈ names, '/' ∉ name) :
    components ((List.intercalate ['/'] names).map .plain) = names.map (List.map .plain) := by
  have hgroups : ∀ group ∈ names.map (List.map Piece.plain), .plain '/' ∉ group := by
    intro group hgroup
    obtain ⟨name, hname, rfl⟩ := List.mem_map.1 hgroup
    simpa using hslash name hname
  have hunits : (names.map (List.map Piece.plain)).flatMap (.plain '/' :: ·) =
      .plain '/' :: (List.intercalate ['/'] names).map .plain := by
    rw [← List.map_cons, ← slashed_eq_cons_intercalate hne, slashed, List.map_flatMap,
      List.flatMap_map]
    rfl
  have hcomponents := components_groups hgroups
  rw [hunits, components_slash] at hcomponents
  exact (List.cons.inj hcomponents).2

theorem starRun_eq_intercalate (rooted : Bool) (count : Nat) (last : Text) :
    starRun rooted count last = List.intercalate ['/']
      ((if rooted then [[]] else []) ++ (List.replicate count doubleStar ++ [last])) := by
  cases rooted with
  | false => rfl
  | true =>
    have hne : List.replicate count doubleStar ++ [last] ≠ [] := by simp
    rw [if_pos rfl, List.singleton_append, intercalate_cons, slashed_eq_cons_intercalate hne]
    rfl

/-- With a mark behind it, a run of `**` has the components that it is written with. -/
theorem body_starRun {rooted : Bool} {count : Nat} {last : Text} {units : List Piece}
    (hlast : last ∈ rootCores) (hne : starRun rooted count last ≠ [])
    (hunits : pieces (starRun rooted count last ++ ['/']) = some units) :
    body units = List.replicate count globstar ++ [last.map .plain] := by
  have hmarked : starRun rooted count last ++ ['/'] = List.intercalate ['/']
      ((if rooted then [[]] else []) ++ (List.replicate count doubleStar ++ [last]) ++ [[]]) := by
    rw [intercalate_concat (by simp), ← starRun_eq_intercalate, List.append_nil]
    rfl
  have hplain : ∀ last ∈ rootCores, '/' ∉ last ∧ '\\' ∉ last := by decide
  have hnames : ∀ name ∈ (if rooted then [[]] else []) ++
    (List.replicate count doubleStar ++ [last]) ++
      [[]], '/' ∉ name ∧ '\\' ∉ name := by
    intro name hname
    refine hplain name ?_
    simp only [List.mem_append, List.mem_replicate, List.mem_singleton] at hname
    rcases hname with (hname | ⟨-, rfl⟩ | rfl) | rfl
    · cases rooted <;> simp_all [rootCores]
    · decide
    · exact hlast
    · decide
  have hescape : '\\' ∉ starRun rooted count last ++ ['/'] := by
    intro hmem
    rw [hmarked] at hmem
    have hslashed := List.mem_cons_of_mem '/' hmem
    rw [← slashed_eq_cons_intercalate (by simp)] at hslashed
    rcases mem_slashed hslashed with heq | ⟨name, hname, hmem⟩
    · cases heq
    · exact (hnames name hname).2 hmem
  rw [pieces_plain hescape, Option.some.injEq, hmarked] at hunits
  refine @body_eq_of_components _ rooted _ ?_ ?_
  · rw [← hunits, components_intercalate (by simp) fun name hname => (hnames name hname).1]
    cases rooted <;> simp [globstar, doubleStar]
  · rintro rfl
    cases count with
    | zero => simpa [starRun, List.intercalate] using hne
    | succ count => simp [List.replicate_succ, globstar]

/-- A matcher reaches the root when its pattern is a run of `**` and what can be left of one. -/
theorem accepts_root_iff {stem : Text} {m : Matcher} (h : compile stem true = .ok m) :
    m.accepts ['/'] = true ↔
      ∃ rooted count last, last ∈ rootCores ∧ stem = starRun rooted count last := by
  by_cases hne : stem = []
  · subst hne
    cases h
    exact iff_of_true (by decide) ⟨false, 0, [], by decide, rfl⟩
  · have haccepts := @accepts_iff_selects _ [] _ _ h hne (by simp)
    rw [if_pos rfl, List.nil_append, selects_nil_iff hne] at haccepts
    rw [haccepts]
    constructor
    · exact exists_eq_starRun
    · rintro ⟨rooted, count, last, hlast, rfl⟩
      rwa [core_starRun rooted count hlast]

/-- The pattern of a line is the bare `/`, or it has components that are all `**`, except perhaps
for a last one that is `*`. -/
def IsRootPattern (raw : Text) : Prop :=
  raw = ['/'] ∨ ∃ rooted count last, (last = doubleStar ∨ last = ['*']) ∧
    raw = starRun rooted count last ++ ['/']

/-- Among the checked patterns, the form tells what is left of a pattern. -/
theorem isRootPattern_iff {stem : Text} (hgrammar : isGrammatical (stem ++ ['/']) = true) :
    IsRootPattern (stem ++ ['/']) ↔
      ∃ rooted count last, last ∈ rootCores ∧ stem = starRun rooted count last := by
  constructor
  · rintro (hbare | ⟨rooted, count, last, hlast, heq⟩)
    · exact ⟨false, 0, [], by decide, List.append_cancel_right hbare⟩
    · refine ⟨rooted, count, last, ?_, List.append_cancel_right heq⟩
      rcases hlast with rfl | rfl <;> decide
  · rintro ⟨rooted, count, last, hlast, rfl⟩
    by_cases hne : starRun rooted count last = []
    · exact Or.inl (by rw [hne]; rfl)
    refine Or.inr ⟨rooted, count, last, ?_, rfl⟩
    unfold isGrammatical at hgrammar
    split at hgrammar
    · cases hgrammar
    next units hunits =>
    -- an empty component at the end would be a `/` too many
    have hbody := body_starRun hlast hne hunits
    have hunits' : units ≠ [.plain '/'] := by
      rintro rfl
      have htext : starRun rooted count last ++ ['/'] = [] ++ ['/'] := (textOf_pieces hunits).symm
      exact hne (List.append_cancel_right htext)
    have hcomponent : isComponent (last.map .plain) = true := by
      simp only [Bool.or_eq_true, beq_iff_eq, hunits', false_or, Bool.and_eq_true,
        List.all_eq_true] at hgrammar
      exact hgrammar.2 _ (by simp [hbody])
    have hnil : last ≠ [] := by
      rintro rfl
      cases hcomponent
    simpa [rootCores, hnil] using hlast

theorem getLast?_starRun (rooted : Bool) (count : Nat) {last : Text} (hne : last ≠ []) :
    (starRun rooted count last).getLast? = last.getLast? := by
  rw [starRun_eq_intercalate, ← List.append_assoc, ← List.nil_append last,
    ← intercalate_append_last,
    List.getLast?_append_of_ne_nil _ hne, List.nil_append]

/-- The body of a pattern tells its text, but for a `/` in front. -/
theorem exists_eq_starRun_of_body {raw : Text} {units : List Piece} {count : Nat} {last : Text}
    (hunits : pieces raw = some units) (hslash : raw.getLast? = some '/')
    (hlast : last = doubleStar ∨ last = ['*'])
    (hbody : body units = List.replicate count globstar ++ [last.map .plain]) :
    ∃ rooted, raw = starRun rooted count last ++ ['/'] := by
  obtain ⟨rooted, marked, hcomponents⟩ := exists_components_eq units
  have hraw : raw = List.intercalate ['/'] ((if rooted then [[]] else []) ++
      (List.replicate count doubleStar ++ [last]) ++ if marked then [[]] else []) := by
    rw [← textOf_pieces hunits, ← intercalate_components, hcomponents, hbody]
    rcases hlast with rfl | rfl <;> cases rooted <;> cases marked <;>
      simp [globstar, doubleStar, textOf]
  cases marked with
  | true =>
    rw [if_pos rfl, intercalate_concat (by simp), ← starRun_eq_intercalate, List.append_nil] at hraw
    exact ⟨rooted, hraw⟩
  | false =>
    have hstar : last ≠ [] ∧ last.getLast? ≠ some '/' := by rcases hlast with rfl | rfl <;> decide
    rw [if_neg Bool.false_ne_true, List.append_nil, ← starRun_eq_intercalate] at hraw
    rw [hraw, getLast?_starRun rooted count hstar.1] at hslash
    exact absurd hslash hstar.2

/-- The form of a checked pattern for directories, by its components. -/
theorem isRootPattern_iff_body {raw : Text} {units : List Piece} (hunits : pieces raw = some units)
    (hslash : raw.getLast? = some '/') (hgrammar : isGrammatical raw = true) :
    IsRootPattern raw ↔ raw = ['/'] ∨ (∀ component ∈ body units, component = globstar) ∨
      ∃ front, body units = front ++ [[.plain '*']] ∧
        ∀ component ∈ front, component = globstar := by
  constructor
  · rintro (hbare | ⟨rooted, count, last, hlast, rfl⟩)
    · exact Or.inl hbare
    refine Or.inr ?_
    have hroot : last ∈ rootCores := by rcases hlast with rfl | rfl <;> decide
    have hne : starRun rooted count last ≠ [] := by
      intro hnil
      have hlast' : last ≠ [] := by rcases hlast with rfl | rfl <;> decide
      have hend := getLast?_starRun rooted count hlast'
      rw [hnil] at hend
      exact hlast' (List.getLast?_eq_none_iff.1 hend.symm)
    have hbody := body_starRun hroot hne hunits
    rcases hlast with rfl | rfl
    · refine Or.inl fun component hmem => ?_
      rw [hbody, List.mem_append, List.mem_replicate, List.mem_singleton] at hmem
      rcases hmem with ⟨-, rfl⟩ | rfl <;> rfl
    · exact Or.inr ⟨_, hbody, fun component hmem => List.eq_of_mem_replicate hmem⟩
  · rintro (hbare | hall | ⟨front, hbody, hfront⟩)
    · exact Or.inl hbare
    · have hbody := List.eq_replicate_of_mem hall
      cases hlength : (body units).length with
      | zero =>
        -- the bare `/` is the one checked pattern without a body
        unfold isGrammatical at hgrammar
        rw [hunits] at hgrammar
        simp only [List.eq_nil_of_length_eq_zero hlength, List.isEmpty_nil, Bool.not_true,
          Bool.false_and, Bool.or_false, beq_iff_eq] at hgrammar
        exact Or.inl ((textOf_pieces hunits).symm.trans (by rw [hgrammar]; rfl))
      | succ count =>
        rw [hlength, List.replicate_succ'] at hbody
        obtain ⟨rooted, heq⟩ :=
          @exists_eq_starRun_of_body _ _ _ doubleStar hunits hslash (Or.inl rfl) hbody
        exact Or.inr ⟨rooted, count, doubleStar, Or.inl rfl, heq⟩
    · rw [List.eq_replicate_of_mem hfront] at hbody
      obtain ⟨rooted, heq⟩ :=
        @exists_eq_starRun_of_body _ _ _ ['*'] hunits hslash (Or.inr rfl) hbody
      exact Or.inr ⟨rooted, front.length, ['*'], Or.inr rfl, heq⟩

/-! ### Rules that reach the root -/

/-- The root is reached by the bare `/` and by patterns for directories that have no components but
`**`, and perhaps a last `*`. Their text is a run of `**`, then `**/` or `*/`, and no other rule
selects the root. -/
theorem root_rules :
    (∀ (raw stem : Text) (units : List Piece) (m : Matcher),
      (∀ c ∈ raw, Text.isBlank c = false) → checkText raw = .ok raw → raw = stem ++ ['/'] →
      pieces raw = some units → compile stem true = .ok m →
      (m.accepts ['/'] = true ↔ raw = ['/'] ∨ (∀ component ∈ body units, component = globstar) ∨
        ∃ front, body units = front ++ [[.plain '*']] ∧ ∀ component ∈ front, component = globstar) ∧
      (m.accepts ['/'] = true ↔ IsRootPattern raw)) ∧
    ∀ (registry : Registry) (number : Nat) (raw roleName : Text) (rule : Rule),
      (∀ c ∈ raw, Text.isBlank c = false) →
      Rule.ofFields registry number raw roleName = .ok rule →
      (rule.selects ⟨['/'], .directory⟩ = true ↔ IsRootPattern raw) := by
  refine ⟨fun raw stem units m hblank hcheck hraw hunits hm => ?_,
    fun registry number raw roleName rule hblank hrule => ?_⟩
  · obtain ⟨-, -, hgrammar⟩ := (checkText_ok_iff hblank).1 hcheck
    have haccepts : m.accepts ['/'] = true ↔ IsRootPattern raw := by
      rw [hraw] at hgrammar ⊢
      exact (accepts_root_iff hm).trans (isRootPattern_iff hgrammar).symm
    have hslash : raw.getLast? = some '/' := by rw [hraw, List.getLast?_concat]
    exact ⟨haccepts.trans (isRootPattern_iff_body hunits hslash hgrammar), haccepts⟩
  · obtain ⟨hcheck, hpattern, hmark, hcompile⟩ := Rule.ofFields_ok hrule
    obtain ⟨-, -, hgrammar⟩ := (checkText_ok_iff hblank).1 (checkText_eq hcheck)
    have hraw := Rule.append_splitMark raw
    cases hdirectory : (Rule.splitMark raw).2 with
    | true =>
      rw [hdirectory, if_pos rfl] at hraw
      rw [hmark, hpattern, hdirectory] at hcompile
      rw [hraw] at hgrammar
      have hselects : rule.selects ⟨['/'], .directory⟩ = rule.matcher.accepts ['/'] := by
        rw [Rule.selects, hmark, hdirectory]
        rfl
      rw [hselects, accepts_root_iff hcompile, ← isRootPattern_iff hgrammar, ← hraw]
    | false =>
      have hselects : rule.selects ⟨['/'], .directory⟩ = false := by
        rw [Rule.selects, hmark, hdirectory]
        rfl
      rw [hselects]
      refine iff_of_false Bool.false_ne_true fun hform => ?_
      have hlast : ∃ stem, raw = stem ++ ['/'] := by
        rcases hform with rfl | ⟨rooted, count, last, -, rfl⟩
        · exact ⟨[], rfl⟩
        · exact ⟨_, rfl⟩
      obtain ⟨stem, rfl⟩ := hlast
      rw [Rule.splitMark, Text.dropEnd?_append] at hdirectory
      cases hdirectory

/-- A pattern for the root, and one that asks for a character too many. -/
theorem root_rules_starred :
    (∃ m, compile "/**/*" true = .ok m ∧ (m.accepts ['/'] = true ↔ IsRootPattern "/**/*/")) ∧
    ∃ rule, Rule.ofFields ⟨[]⟩ 1 "**/[!a]*/" "-" = .ok rule ∧
      (rule.selects ⟨['/'], .directory⟩ = true ↔ IsRootPattern "**/[!a]*/") := by
  have hmatcher : ∃ m, compile "/**/*" true = .ok m := ⟨_, by with_unfolding_all rfl⟩
  have hrule : ∃ rule, Rule.ofFields ⟨[]⟩ 1 "**/[!a]*/" "-" = .ok rule :=
    ⟨_, by with_unfolding_all rfl⟩
  have hall : ["/**/*/".toList, "**/[!a]*/".toList].all (·.all (!Text.isBlank ·)) = true := by
    decide
  have hblank : ∀ raw ∈ ["/**/*/".toList, "**/[!a]*/".toList], ∀ c ∈ raw, Text.isBlank c = false :=
    fun raw hraw c hc => by simpa using List.all_eq_true.1 (List.all_eq_true.1 hall raw hraw) c hc
  obtain ⟨m, hm⟩ := hmatcher
  obtain ⟨rule, hrule⟩ := hrule
  exact ⟨⟨m, hm, (root_rules.1 "/**/*/" "/**/*" _ m (hblank _ (by simp)) (by with_unfolding_all rfl)
    rfl
    rfl hm).2⟩, rule, hrule, root_rules.2 _ _ _ _ _ (hblank _ (by simp)) hrule⟩

end PathRights.Pattern
