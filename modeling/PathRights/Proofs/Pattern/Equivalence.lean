import PathRights.Proofs.Pattern.Depth
import PathRights.Proofs.Rule.Written
import PathRights.Rule.Table

/-! Patterns that are written differently and mean the same. A matcher is known by the core of its
pattern and by whether the pattern may begin anywhere: `accepts_iff` says so for every pattern,
those that are compiled without an expression included. So a `**` in front of a pattern without a
`/` changes nothing, and the `/` behind a pattern changes only the kind of entry it is for. -/

namespace PathRights.Pattern

/-! ### What a matcher accepts -/

/-- The core of a pattern can be compiled. -/
def IsReadable (body : Text) : Prop :=
  body = [] ∨ body = doubleStar ∨ ∃ tokens, Token.read? body = some tokens ∧ Ascending tokens

/-- A pattern with this core reaches a text that has the form of a path of its kind. -/
def Reaches (anywhere directoryOnly : Bool) (body text : Text) : Prop :=
  body = [] ∨ body = doubleStar ∨ ∃ tokens, Token.read? body = some tokens ∧
    (⟨anywhere, tokens ++ ending directoryOnly body⟩ : Expression).accepts text = true

/-- The core tells that a pattern matches everything, unless the pattern is a single `*`. -/
theorem core_of_matchesAll {pattern : Text} (h : MatchesAll pattern) :
    pattern = ['*'] ∨ core pattern = [] ∨ core pattern = doubleStar := by
  rcases h with hmem | ⟨-, hcore⟩
  · simp only [matchAll, List.mem_cons, List.not_mem_nil, or_false] at hmem
    rcases hmem with rfl | rfl | rfl
    · exact Or.inl rfl
    · exact Or.inr (Or.inr rfl)
    · exact Or.inr (Or.inr rfl)
  · exact Or.inr hcore

theorem Token.read?_star : read? ['*'] = some [.star] := by
  rw [read?]
  · rw [read?]
    rfl
  · simp

/-- Whether a pattern can be compiled depends on its core, and not on the kind of entry. -/
theorem compiles_iff {pattern : Text} (hne : pattern ≠ []) (directoryOnly : Bool) :
    (∃ m, compile pattern directoryOnly = .ok m) ↔ IsReadable (core pattern) := by
  by_cases hall : MatchesAll pattern
  · refine iff_of_true ⟨_, compile_of_matchesAll hall directoryOnly⟩ ?_
    rcases core_of_matchesAll hall with rfl | hcore | hcore
    · exact Or.inr (Or.inr ⟨_, Token.read?_star, by simp [Ascending]⟩)
    · exact Or.inl hcore
    · exact Or.inr (Or.inl hcore)
  have hbad : ∀ tokens, (expressionWith pattern directoryOnly tokens).badRange? = none ↔
      Ascending tokens := fun tokens => badToken?_eq_none.trans ascending_ending
  constructor
  · rintro ⟨m, h⟩
    obtain ⟨-, ⟨-, hall'⟩ | ⟨-, hnil, -⟩ | ⟨tokens, hread, -, -, -, hrange⟩⟩ := compile_ok h
    · exact absurd hall' hall
    · exact absurd hnil hne
    · exact Or.inr (Or.inr ⟨tokens, hread, (hbad tokens).1 hrange⟩)
  · rintro (hcore | hcore | ⟨tokens, hread, hascending⟩)
    · exact absurd (Or.inr ⟨hne, Or.inl hcore⟩) hall
    · exact absurd (Or.inr ⟨hne, Or.inr hcore⟩) hall
    · rw [compile_eq hne hall, hread]
      dsimp only
      rw [(hbad tokens).2 hascending]
      exact ⟨_, rfl⟩

/-- A start of a text is what is left of it behind nothing, or behind one of its `/`. -/
theorem mem_starts_iff_append {text start : Text} :
    start ∈ starts text ↔ ∃ front, (front = [] ∨ front.getLast? = some '/') ∧
      text = front ++ start := by
  rw [mem_starts]
  constructor
  · rintro (rfl | ⟨before, rfl⟩)
    · exact ⟨[], Or.inl rfl, rfl⟩
    · exact ⟨before ++ ['/'], Or.inr List.getLast?_concat, by simp⟩
  · rintro ⟨front, rfl | hfront, rfl⟩
    · exact Or.inl rfl
    · obtain ⟨before, rfl⟩ := List.getLast?_eq_some_iff.1 hfront
      exact Or.inr ⟨before, by simp⟩

theorem mem_starts_self (text : Text) : text ∈ starts text := List.mem_cons_self

theorem mem_starts_trans {text start start' : Text} (h : start ∈ starts text)
    (h' : start' ∈ starts start) : start' ∈ starts text := by
  rw [mem_starts_iff_append] at h h' ⊢
  obtain ⟨front, hfront, rfl⟩ := h
  obtain ⟨front', hfront', rfl⟩ := h'
  refine ⟨front ++ front', ?_, (List.append_assoc _ _ _).symm⟩
  rcases hfront' with rfl | hfront'
  · rwa [List.append_nil]
  · exact Or.inr (by rw [List.getLast?_append, hfront']; rfl)

/-- Behind the last `/` of a text there is none. -/
theorem exists_start_without_slash (text : Text) : ∃ start ∈ starts text, '/' ∉ start := by
  induction text with
  | nil => exact ⟨[], mem_starts_self [], by simp⟩
  | cons c text ih =>
    obtain ⟨start, hstart, hslash⟩ := ih
    rcases mem_starts.1 hstart with rfl | ⟨before, rfl⟩
    · by_cases hc : c = '/'
      · exact ⟨text, mem_starts.2 (Or.inr ⟨[], by rw [hc]; rfl⟩), hslash⟩
      · exact ⟨c :: text, mem_starts_self _, by simp [hslash, Ne.symm hc]⟩
    · exact ⟨start, mem_starts.2 (Or.inr ⟨c :: before, rfl⟩), hslash⟩

/-- A single `*` that may begin anywhere reaches all paths, as a pattern without an expression
does. -/
theorem reaches_star {directoryOnly : Bool} {text : Text}
    (hkind : text.getLast? = some '/' ↔ directoryOnly = true) :
    Reaches true directoryOnly ['*'] text := by
  refine Or.inr (Or.inr ⟨_, Token.read?_star, Expression.accepts_iff.2 ?_⟩)
  rw [if_pos rfl]
  cases directoryOnly with
  | false =>
    obtain ⟨start, hstart, hslash⟩ := exists_start_without_slash text
    exact ⟨start, hstart, Token.stands_singleton.2 hslash⟩
  | true =>
    obtain ⟨front, rfl⟩ := List.getLast?_eq_some_iff.1 (hkind.2 rfl)
    obtain ⟨start, hstart, hslash⟩ := exists_start_without_slash front
    refine ⟨start ++ ['/'], mem_starts_concat.2 (Or.inr ⟨start, hstart, rfl⟩), ?_⟩
    exact Token.stands_append.2
      ⟨start, ['/'], Token.stands_singleton.2 hslash, Token.stands_singleton.2 rfl, rfl⟩

/-- A matcher accepts the texts that end as its kind of path does and that its core reaches, whether
or not it has an expression. -/
theorem accepts_iff {pattern : Text} {directoryOnly : Bool} {m : Matcher}
    (h : compile pattern directoryOnly = .ok m) (hne : pattern ≠ []) (text : Text) :
    m.accepts text = true ↔ (text.getLast? = some '/' ↔ directoryOnly = true) ∧
      Reaches (splitAnchor pattern).1 directoryOnly (core pattern) text := by
  obtain ⟨hkind, hcases⟩ := compile_ok h
  have haccepts : m.accepts text = true ↔ (text.getLast? = some '/' ↔ directoryOnly = true) ∧
      ∀ e, m.expression = some e → e.accepts text = true := by
    unfold Matcher.accepts
    rw [hkind]
    cases m.expression <;> cases directoryOnly <;> simp
  rw [haccepts]
  refine and_congr_right fun hslash => ?_
  rcases hcases with ⟨hnone, hall⟩ | ⟨-, hnil, -⟩ | ⟨tokens, hread, -, hall, hsome, -⟩
  · refine iff_of_true (by simp [hnone]) ?_
    rcases core_of_matchesAll hall with rfl | hcore | hcore
    · exact reaches_star hslash
    · exact Or.inl hcore
    · exact Or.inr (Or.inl hcore)
  · exact absurd hnil hne
  · have hcore : core pattern ≠ [] ∧ core pattern ≠ doubleStar :=
      ⟨fun heq => hall (Or.inr ⟨hne, Or.inl heq⟩), fun heq => hall (Or.inr ⟨hne, Or.inr heq⟩)⟩
    simp [hsome, Reaches, hread, hcore, expressionWith]

/-! ### Equivalence -/

/-- Two patterns can be compiled alike, and their matchers accept the same texts. -/
structure Equivalent (directoryOnly : Bool) (pattern pattern' : Text) : Prop where
  compiles : (∃ m, compile pattern directoryOnly = .ok m) ↔
    ∃ m, compile pattern' directoryOnly = .ok m
  accepts : ∀ m m', compile pattern directoryOnly = .ok m →
      compile pattern' directoryOnly = .ok m' →
    ∀ text, m.accepts text = m'.accepts text

namespace Equivalent

variable {directoryOnly : Bool} {pattern pattern' pattern'' : Text}

theorem refl (directoryOnly : Bool) (pattern : Text) :
    Equivalent directoryOnly pattern pattern := by
  refine ⟨Iff.rfl, fun m m' h h' text => ?_⟩
  cases h.symm.trans h'
  rfl

theorem symm (h : Equivalent directoryOnly pattern pattern') :
    Equivalent directoryOnly pattern' pattern :=
  ⟨h.compiles.symm, fun m m' hm hm' text => (h.accepts m' m hm' hm text).symm⟩

theorem trans (h : Equivalent directoryOnly pattern pattern')
    (h' : Equivalent directoryOnly pattern' pattern'') :
    Equivalent directoryOnly pattern pattern'' := by
  refine ⟨h.compiles.trans h'.compiles, fun m m'' hm hm'' text => ?_⟩
  obtain ⟨m', hm'⟩ := h.compiles.1 ⟨m, hm⟩
  exact (h.accepts m m' hm hm' text).trans (h'.accepts m' m'' hm' hm'' text)

/-- Patterns with the same core are equivalent, if they are anchored alike or match everything. -/
theorem of_core (hne : pattern ≠ []) (hne' : pattern' ≠ []) (hcore : core pattern = core pattern')
    (hanchor : core pattern = doubleStar ∨ (splitAnchor pattern).1 = (splitAnchor pattern').1) :
    Equivalent directoryOnly pattern pattern' := by
  constructor
  · rw [compiles_iff hne, compiles_iff hne', hcore]
  · intro m m' hm hm' text
    rw [Bool.eq_iff_iff, accepts_iff hm hne, accepts_iff hm' hne', ← hcore]
    rcases hanchor with hstars | hanchor
    · simp [Reaches, hstars]
    · rw [hanchor]

/-- Patterns that cannot be compiled are equivalent. -/
theorem of_unreadable (hne : pattern ≠ []) (hne' : pattern' ≠ [])
    (h : ¬ IsReadable (core pattern)) (h' : ¬ IsReadable (core pattern')) :
    Equivalent directoryOnly pattern pattern' := by
  refine ⟨?_, fun m m' hm _ _ => absurd ((compiles_iff hne directoryOnly).1 ⟨m, hm⟩) h⟩
  rw [compiles_iff hne, compiles_iff hne']
  exact iff_of_false h h'

end Equivalent

/-! ### Anchors -/

theorem core_eq_unrooted (pattern : Text) :
    core pattern = collapseGlobstars (dropGlobstars (unrooted pattern)) := by
  rw [core, (splitAnchor_eq pattern).1]

theorem unrooted_of_head?_ne {pattern : Text} (h : pattern.head? ≠ some '/') :
    unrooted pattern = pattern := by
  rcases eq_unrooted pattern with heq | ⟨-, heq⟩
  · rw [heq] at h
    exact absurd rfl h
  · exact heq

/-- What may begin anywhere reaches a text when it reaches a start of it, wherever it may begin
then. -/
theorem reaches_iff_exists_start {anywhere directoryOnly : Bool} {body text : Text} :
    Reaches true directoryOnly body text ↔
      ∃ start ∈ starts text, Reaches anywhere directoryOnly body start := by
  constructor
  · rintro (hbody | hbody | ⟨tokens, hread, haccepts⟩)
    · exact ⟨text, mem_starts_self text, Or.inl hbody⟩
    · exact ⟨text, mem_starts_self text, Or.inr (Or.inl hbody)⟩
    · obtain ⟨start, hstart, hstands⟩ := Expression.accepts_iff.1 haccepts
      refine ⟨start, hstart, Or.inr (Or.inr ⟨tokens, hread, Expression.accepts_iff.2 ?_⟩)⟩
      cases anywhere with
      | false => exact hstands
      | true => exact ⟨start, mem_starts_self start, hstands⟩
  · rintro ⟨start, hstart, hbody | hbody | ⟨tokens, hread, haccepts⟩⟩
    · exact Or.inl hbody
    · exact Or.inr (Or.inl hbody)
    · refine Or.inr (Or.inr ⟨tokens, hread, Expression.accepts_iff.2 ?_⟩)
      have hstands := Expression.accepts_iff.1 haccepts
      cases anywhere with
      | false => exact ⟨start, hstart, hstands⟩
      | true =>
        obtain ⟨start', hstart', hstands⟩ := hstands
        exact ⟨start', mem_starts_trans hstart hstart', hstands⟩

/-- No pattern for directories that needs an expression reaches the empty text. -/
theorem matchesAll_of_reaches_nil {anywhere : Bool} {body : Text}
    (h : Reaches anywhere true body []) :
    body = [] ∨ body = doubleStar := by
  rcases h with hbody | hbody | ⟨tokens, hread, haccepts⟩
  · exact Or.inl hbody
  · exact Or.inr hbody
  · have hstands := Expression.accepts_iff.1 haccepts
    cases anywhere with
    | false => exact absurd hstands (not_stands_ending hread)
    | true =>
      obtain ⟨start, hstart, hstands⟩ := hstands
      obtain rfl : start = [] := by simpa [starts, starts.afterSlash] using hstart
      exact absurd hstands (not_stands_ending hread)

/-- The start at which a path is reached can be chosen so that something of the path is left. -/
theorem reaches_iff_append {anywhere directoryOnly : Bool} {body text : Text} (hne : text ≠ [])
    (hkind : text.getLast? = some '/' ↔ directoryOnly = true) :
    Reaches true directoryOnly body text ↔ ∃ front back, (front = [] ∨ front.getLast? = some '/') ∧
      back ≠ [] ∧ Reaches anywhere directoryOnly body back ∧ text = front ++ back := by
  rw [@reaches_iff_exists_start anywhere]
  constructor
  · rintro ⟨start, hstart, hreaches⟩
    obtain ⟨front, hfront, rfl⟩ := mem_starts_iff_append.1 hstart
    by_cases hnil : start = []
    · subst hnil
      rw [List.append_nil] at hne hkind ⊢
      obtain rfl := hkind.1 (hfront.resolve_left hne)
      have hbody := matchesAll_of_reaches_nil hreaches
      exact ⟨[], front, Or.inl rfl, hne, hbody.imp_right Or.inl, rfl⟩
    · exact ⟨front, start, hfront, hnil, hreaches, rfl⟩
  · rintro ⟨front, back, hfront, -, hreaches, rfl⟩
    exact ⟨back, mem_starts_iff_append.2 ⟨front, hfront, rfl⟩, hreaches⟩

/-- A pattern without a `/` in front accepts what the pattern behind a `/` accepts, and whatever
has this behind one of its `/`. -/
theorem accepts_iff_anchored {pattern : Text} {directoryOnly : Bool} {m : Matcher}
    (h : compile pattern directoryOnly = .ok m) (hne : pattern ≠ [])
    (hroot : pattern.head? ≠ some '/') :
    ∃ anchored, compile ('/' :: pattern) directoryOnly = .ok anchored ∧ ∀ text, text ≠ [] →
      (m.accepts text = true ↔ ∃ front back, (front = [] ∨ front.getLast? = some '/') ∧
        back ≠ [] ∧ anchored.accepts back = true ∧ text = front ++ back) := by
  have hcore : core ('/' :: pattern) = core pattern := by
    rw [core_eq_unrooted, core_eq_unrooted, unrooted_of_head?_ne hroot]
    rfl
  have hanywhere : (splitAnchor pattern).1 = true := (splitAnchor_eq pattern).2.2 (Or.inl hroot)
  have hreadable := (compiles_iff hne directoryOnly).1 ⟨m, h⟩
  obtain ⟨anchored, hanchored⟩ :=
    (compiles_iff (List.cons_ne_nil '/' pattern) directoryOnly).2 (hcore.symm ▸ hreadable)
  refine ⟨anchored, hanchored, fun text htext => ?_⟩
  -- the last character, which tells the kind, belongs to what is left
  have hlast : ∀ front back : Text, back ≠ [] → (front ++ back).getLast? = back.getLast? := by
    intro front back hback
    rw [List.getLast?_append_of_ne_nil _ hback]
  simp only [accepts_iff h hne, accepts_iff hanchored (List.cons_ne_nil '/' pattern), hcore,
    hanywhere]
  constructor
  · rintro ⟨hkind, hreaches⟩
    obtain ⟨front, back, hfront, hback, hreaches', rfl⟩ :=
      (reaches_iff_append htext hkind).1 hreaches
    exact ⟨front, back, hfront, hback, ⟨hlast front back hback ▸ hkind, hreaches'⟩, rfl⟩
  · rintro ⟨front, back, hfront, hback, ⟨hkind, hreaches⟩, rfl⟩
    rw [← hlast front back hback] at hkind
    exact ⟨hkind, (reaches_iff_append htext hkind).2 ⟨front, back, hfront, hback, hreaches, rfl⟩⟩

/-- A `**` in front of a pattern that may begin anywhere changes nothing, with or without a `/`
before it. -/
theorem equivalent_doubleStar {pattern lead : Text} {directoryOnly : Bool} (hne : pattern ≠ [])
    (hroot : pattern.head? ≠ some '/') (hlead : lead = [] ∨ lead = ['/']) :
    Equivalent directoryOnly (lead ++ doubleStar ++ '/' :: pattern) pattern := by
  have hunrooted :
      unrooted (lead ++ doubleStar ++ '/' :: pattern) = doubleStar ++ '/' :: pattern := by
    rcases hlead with rfl | rfl
    · rfl
    · rfl
  have hanywhere : (splitAnchor (lead ++ doubleStar ++ '/' :: pattern)).1 = true :=
    (splitAnchor_eq _).2.2 (Or.inr ⟨pattern, hunrooted⟩)
  refine .of_core (by simp) hne ?_ (Or.inr ?_)
  · rw [core_eq_unrooted, core_eq_unrooted, hunrooted, unrooted_of_head?_ne hroot,
      dropGlobstars_doubleStar]
  · rw [hanywhere, (splitAnchor_eq pattern).2.2 (Or.inl hroot)]

/-! ### Directories and everything else -/

/-- A pattern can be compiled for directories just when it can be for everything else, and a
directory is then selected by the one matcher when an entry of the same path is by the other. So a
rule and the rule with a `/` behind its pattern select the same names. -/
theorem kinds_select_alike {pattern : Text} (hne : pattern ≠ []) :
    ((∃ m, compile pattern true = .ok m) ↔ ∃ m, compile pattern false = .ok m) ∧
    (∀ forDirectories forOthers, compile pattern true = .ok forDirectories →
      compile pattern false = .ok forOthers → ∀ text, text.getLast? ≠ some '/' →
        forDirectories.accepts (text ++ ['/']) = forOthers.accepts text) ∧
    ∀ (registry : Registry) (number number' : Nat) (roleName roleName' : Text)
      (forDirectories forOthers : Rule), pattern.getLast? ≠ some '/' →
      Rule.ofFields registry number (pattern ++ ['/']) roleName = .ok forDirectories →
      Rule.ofFields registry number' pattern roleName' = .ok forOthers →
      ∀ (names : List Text) (kind : EntryKind), names ≠ [] → (∀ name ∈ names, IsName name) →
        kind ≠ .directory → forDirectories.selects ⟨relativePath names true, .directory⟩ =
          forOthers.selects ⟨relativePath names false, kind⟩ := by
  have haccepts : ∀ forDirectories forOthers, compile pattern true = .ok forDirectories →
      compile pattern false = .ok forOthers → ∀ text, text.getLast? ≠ some '/' →
        forDirectories.accepts (text ++ ['/']) = forOthers.accepts text := by
    intro forDirectories forOthers hdirectories hothers text hlast
    have hselects := accepts_iff_selects hothers hne hlast
    rw [if_neg Bool.false_ne_true, List.append_nil] at hselects
    rw [Bool.eq_iff_iff, hselects]
    exact accepts_iff_selects hdirectories hne hlast
  refine ⟨(compiles_iff hne true).trans (compiles_iff hne false).symm, haccepts, ?_⟩
  intro registry number number' roleName roleName' forDirectories forOthers hlast hdirectories
    hothers names kind hnames hname hkind
  obtain ⟨-, hpattern, hmark, hcompile⟩ := Rule.ofFields_ok hdirectories
  obtain ⟨-, hpattern', hmark', hcompile'⟩ := Rule.ofFields_ok hothers
  have hsplit := Rule.splitMark_append hlast true
  have hsplit' := Rule.splitMark_append hlast false
  rw [if_pos rfl] at hsplit
  rw [if_neg Bool.false_ne_true, List.append_nil] at hsplit'
  rw [hsplit] at hpattern hmark
  rw [hsplit'] at hpattern' hmark'
  rw [hpattern, hmark] at hcompile
  rw [hpattern', hmark'] at hcompile'
  have hsame := haccepts _ _ hcompile hcompile' _ (getLast?_intercalate hnames hname)
  have hother : (kind == .directory) = false := by simpa using hkind
  simp only [Rule.selects, Entry.isDirectory, hmark, hmark', hother, relativePath]
  simpa using hsame

/-- A pattern that takes everything below a directory, for directories and for a link. -/
theorem kinds_select_alike_below : ∃ forDirectories forOthers,
    Rule.ofFields ⟨[]⟩ 1 "src/**/" "-" = .ok forDirectories ∧
      Rule.ofFields ⟨[]⟩ 2 "src/**" "-" = .ok forOthers ∧
      forDirectories.selects ⟨relativePath ["src".toList, "a".toList] true, .directory⟩ =
        forOthers.selects ⟨relativePath ["src".toList, "a".toList] false, .symlink⟩ := by
  have hrules : ∃ forDirectories forOthers,
      Rule.ofFields ⟨[]⟩ 1 ("src/**".toList ++ ['/']) "-" = .ok forDirectories ∧
        Rule.ofFields ⟨[]⟩ 2 "src/**" "-" = .ok forOthers :=
    ⟨_, _, by with_unfolding_all rfl, by with_unfolding_all rfl⟩
  obtain ⟨forDirectories, forOthers, hdirectories, hothers⟩ := hrules
  exact ⟨forDirectories, forOthers, hdirectories, hothers,
    (kinds_select_alike (by decide)).2.2 _ _ _ _ _
    _ _ (by decide) hdirectories hothers _ _ (by decide) (by decide) (by decide)⟩

end PathRights.Pattern
