import PathRights.Proofs.Pattern.Language
import PathRights.Proofs.Pattern.Reading

/-! What the compilation of a pattern can end in. A pattern is cut down to its core, which has no
`**` in front and no runs of `**`; the core is read into tokens. `compile_ok` and `compile_error`
list the outcomes, and `accepts_of_compile` says what a matcher accepts in terms that do not depend
on the kind of entry that it is for. -/

namespace PathRights.Pattern

/-- What is left of a pattern when its anchor is taken off and runs of `**` are cut down. -/
def core (pattern : Text) : Text := collapseGlobstars (splitAnchor pattern).2

/-- What the tokens of a core are followed by in the expression. -/
def ending (directoryOnly : Bool) (body : Text) : List Token :=
  if directoryOnly ∧ ¬ "/**".toList.isSuffixOf body then [.char '/'] else []

/-- The pattern accepts every path of its kind. -/
def MatchesAll (pattern : Text) : Prop :=
  pattern ∈ matchAll ∨ pattern ≠ [] ∧ (core pattern = [] ∨ core pattern = ['*', '*'])

/-- The expression of a pattern with these tokens. -/
def expressionWith (pattern : Text) (directoryOnly : Bool) (tokens : List Token) : Expression :=
  ⟨(splitAnchor pattern).1, tokens ++ ending directoryOnly (core pattern)⟩

theorem dropGlobstars_not_globstar (text : Text) (rest : Text) :
    dropGlobstars text ≠ '*' :: '*' :: '/' :: rest := by
  fun_induction dropGlobstars text with
  | case1 _ ih => exact ih
  | case2 text h => exact fun e => h rest e

theorem misplaces_dropGlobstars (text : Text) :
    misplaces true (dropGlobstars text) = misplaces true text := by
  fun_induction dropGlobstars text with
  | case1 rest ih => rw [ih]; rfl
  | case2 => rfl

/-- No whole `**` stands in front of what follows the anchor, unless there is nothing else. -/
theorem splitAnchor_not_globstar (pattern rest : Text) :
    (splitAnchor pattern).2 ≠ '*' :: '*' :: '/' :: rest := by
  unfold splitAnchor
  split
  · next dropped h =>
    unfold dropLeadingGlobstars? at h
    split at h
    · simp only [Option.some.injEq] at h
      exact h ▸ dropGlobstars_not_globstar _ rest
    · simp only [Option.some.injEq] at h
      exact h ▸ dropGlobstars_not_globstar _ rest
    · simp at h
  · next h =>
    unfold dropLeadingGlobstars? at h
    split at h
    · simp at h
    · simp at h
    · next hslash hstars =>
      split
      · exact fun e => hslash rest (by rw [← e])
      · exact fun e => hstars rest e

theorem misplaces_splitAnchor (pattern : Text) :
    misplaces true (splitAnchor pattern).2 = misplaces true pattern := by
  unfold splitAnchor
  split
  · next dropped h =>
    unfold dropLeadingGlobstars? at h
    split at h
    · simp only [Option.some.injEq] at h
      rw [← h, misplaces_dropGlobstars]
      rfl
    · simp only [Option.some.injEq] at h
      rw [← h, misplaces_dropGlobstars]
      rfl
    · simp at h
  · split
    · rfl
    · rfl

theorem misplaces_core (pattern : Text) :
    misplaces true (core pattern) = misplaces true pattern := by
  rw [core, (misplaces_collapseGlobstars _).1, misplaces_splitAnchor]

theorem core_not_startsWithGlobstar {pattern : Text} (h : core pattern ≠ ['*', '*']) :
    startsWithGlobstar ('/' :: core pattern) = false := by
  refine Bool.eq_false_iff.2 fun hstart => ?_
  rcases startsWithGlobstar_iff.1 hstart with heq | ⟨more, heq⟩
  · exact h (List.cons.inj heq).2
  · obtain ⟨rest, hrest, hmore⟩ := collapseGlobstars_eq_cons (by decide) (List.cons.inj heq).2
    obtain ⟨rest, rfl, hnext⟩ := collapseGlobstars_eq_cons (by decide) hmore
    have hhead := head?_collapseGlobstars rest
    rw [hnext, List.head?_cons] at hhead
    obtain ⟨rest, rfl⟩ := List.head?_eq_some_iff.1 hhead.symm
    exact splitAnchor_not_globstar pattern rest hrest

/-- The core of a pattern without a misplaced `**` has tokens. -/
theorem read?_core_ne_none {pattern : Text} (h : core pattern ≠ ['*', '*'])
    (hm : misplaces true pattern = false) : Token.read? (core pattern) ≠ none := by
  refine Token.read?_ne_none (collapsed_collapseGlobstars _) ?_
  rw [← misplaces_of_not_startsWithGlobstar (core_not_startsWithGlobstar h), misplaces_core, hm]

theorem compile_of_matchesAll {pattern : Text} (h : MatchesAll pattern) (directoryOnly : Bool) :
    compile pattern directoryOnly = .ok ⟨pattern, directoryOnly, none⟩ := by
  unfold compile
  by_cases hall : matchAll.contains pattern = true
  · rw [if_pos hall]
  · rcases h with hmem | ⟨hne, hcore⟩
    · exact absurd (by simpa using hmem) hall
    · rw [if_neg hall, if_neg (by simpa using hne)]
      have hbody : (core pattern).isEmpty = true ∨ core pattern = "**".toList := by
        simpa using hcore
      exact if_pos hbody

theorem compile_of_not_matchesAll {pattern : Text} (hne : pattern ≠ [])
    (hall : ¬ MatchesAll pattern) (directoryOnly : Bool) :
    compile pattern directoryOnly =
      match expressionOf (splitAnchor pattern).1 directoryOnly (core pattern) with
      | none => .error (.misplacedGlobstar (core pattern))
      | some e =>
        match e.badRange? with
        | some range => .error (.descendingRange pattern range)
        | none => .ok ⟨pattern, directoryOnly, some e⟩ := by
  have hmem : ¬ matchAll.contains pattern = true := fun h => hall (Or.inl (by simpa using h))
  have hcore : ¬ ((core pattern).isEmpty = true ∨ core pattern = "**".toList) :=
    fun h => hall (Or.inr ⟨hne, by simpa using h⟩)
  unfold compile
  rw [if_neg hmem, if_neg (by simpa using hne)]
  exact if_neg hcore

/-- A pattern that does not match everything is compiled by way of the tokens of its core. -/
theorem compile_eq {pattern : Text} (hne : pattern ≠ []) (hall : ¬ MatchesAll pattern)
    (directoryOnly : Bool) : compile pattern directoryOnly =
      match Token.read? (core pattern) with
      | none => .error (.misplacedGlobstar (core pattern))
      | some tokens =>
        match (expressionWith pattern directoryOnly tokens).badRange? with
        | some range => .error (.descendingRange pattern range)
        | none =>
          .ok ⟨pattern, directoryOnly, some (expressionWith pattern directoryOnly tokens)⟩ := by
  rw [compile_of_not_matchesAll hne hall]
  unfold expressionOf
  cases Token.read? (core pattern) <;> rfl

/-- The three ways in which a pattern compiles, by what the matcher has for an expression. -/
theorem compile_ok {pattern : Text} {directoryOnly : Bool} {m : Matcher}
    (h : compile pattern directoryOnly = .ok m) :
    m.directoryOnly = directoryOnly ∧
      (m.expression = none ∧ MatchesAll pattern ∨
        m.expression = some ⟨false, [.char '/']⟩ ∧ pattern = [] ∧ directoryOnly = true ∨
        ∃ tokens, Token.read? (core pattern) = some tokens ∧ pattern ≠ [] ∧ ¬ MatchesAll pattern ∧
          m.expression = some (expressionWith pattern directoryOnly tokens) ∧
          (expressionWith pattern directoryOnly tokens).badRange? = none) := by
  by_cases hall : MatchesAll pattern
  · rw [compile_of_matchesAll hall] at h
    cases h
    exact ⟨rfl, Or.inl ⟨rfl, hall⟩⟩
  by_cases hne : pattern = []
  · subst hne
    cases directoryOnly with
    | false => cases h
    | true =>
      cases h
      exact ⟨rfl, Or.inr (Or.inl ⟨rfl, rfl, rfl⟩)⟩
  · rw [compile_eq hne hall] at h
    split at h
    · cases h
    · next tokens hread =>
      split at h
      · cases h
      · next hrange =>
        cases h
        exact ⟨rfl, Or.inr (Or.inr ⟨tokens, hread, hne, hall, rfl, hrange⟩)⟩

/-- The three ways in which a pattern does not compile. -/
theorem compile_error {pattern : Text} {directoryOnly : Bool} {error : PatternError}
    (h : compile pattern directoryOnly = .error error) :
    error = .empty ∧ pattern = [] ∧ directoryOnly = false ∨
      pattern ≠ [] ∧ ¬ MatchesAll pattern ∧
        (error = .misplacedGlobstar (core pattern) ∧ Token.read? (core pattern) = none ∨
          ∃ tokens range, Token.read? (core pattern) = some tokens ∧
            error = .descendingRange pattern range ∧
            (expressionWith pattern directoryOnly tokens).badRange? = some range) := by
  by_cases hall : MatchesAll pattern
  · rw [compile_of_matchesAll hall] at h
    cases h
  by_cases hne : pattern = []
  · subst hne
    cases directoryOnly with
    | false =>
      cases h
      exact Or.inl ⟨rfl, rfl, rfl⟩
    | true => cases h
  · refine Or.inr ⟨hne, hall, ?_⟩
    rw [compile_eq hne hall] at h
    split at h
    · next hread =>
      cases h
      exact Or.inl ⟨rfl, hread⟩
    · next tokens hread =>
      split at h
      · next range hrange =>
        cases h
        exact Or.inr ⟨tokens, range, hread, rfl, hrange⟩
      · cases h

/-! ### Ranges that run backwards -/

theorem badMember?_eq_none {whole before : Text} {members : List ClassMember} :
    badMember? whole before members = none ↔ ∀ member ∈ members, member.isDescending = false := by
  induction members generalizing before with
  | nil => simp [badMember?]
  | cons member members ih =>
    cases member with
    | single item => simp [badMember?, ih, ClassMember.isDescending]
    | range low high =>
      by_cases h : high.char < low.char <;> simp [badMember?, ih, ClassMember.isDescending, h]

theorem badMember?_eq_some {whole before : Text} {members : List ClassMember} {range : BadRange}
    (h : badMember? whole before members = some range) :
    .range range.low range.high ∈ members ∧ range.high.char < range.low.char := by
  induction members generalizing before with
  | nil => simp [badMember?] at h
  | cons member members ih =>
    cases member with
    | single item =>
      obtain ⟨hmem, hlt⟩ := ih h
      exact ⟨List.mem_cons_of_mem _ hmem, hlt⟩
    | range low high =>
      by_cases hlt : high.char < low.char
      · rw [badMember?, if_pos hlt] at h
        cases h
        exact ⟨List.mem_cons_self, hlt⟩
      · rw [badMember?, if_neg hlt] at h
        obtain ⟨hmem, hrange⟩ := ih h
        exact ⟨List.mem_cons_of_mem _ hmem, hrange⟩

/-- No class among the tokens has a range that runs backwards. -/
def Ascending (tokens : List Token) : Prop :=
  ∀ cls, Token.bracket cls ∈ tokens → ∀ member ∈ cls.members, member.isDescending = false

theorem badToken?_eq_none {whole before : Text} {tokens : List Token} :
    badToken? whole before tokens = none ↔ Ascending tokens := by
  induction tokens generalizing before with
  | nil => simp [badToken?, Ascending]
  | cons token tokens ih =>
    cases token with
    | bracket cls =>
      rw [badToken?]
      split
      · next range h =>
        simp only [reduceCtorEq, false_iff]
        intro hall
        rw [badMember?_eq_none.2 (hall cls (by simp))] at h
        cases h
      · next h =>
        rw [badMember?_eq_none] at h
        rw [ih]
        constructor
        · intro hall cls' hmem
          rcases List.mem_cons.1 hmem with heq | hmem
          · cases heq
            exact h
          · exact hall cls' hmem
        · exact fun hall cls' hmem => hall cls' (List.mem_cons_of_mem _ hmem)
    | _ => simp [badToken?, ih, Ascending]

theorem badToken?_eq_some {whole before : Text} {tokens : List Token} {range : BadRange}
    (h : badToken? whole before tokens = some range) :
    ∃ cls, Token.bracket cls ∈ tokens ∧ .range range.low range.high ∈ cls.members ∧
      range.high.char < range.low.char := by
  induction tokens generalizing before with
  | nil => simp [badToken?] at h
  | cons token tokens ih =>
    cases token with
    | bracket cls =>
      rw [badToken?] at h
      split at h
      · next hmember =>
        cases h
        exact ⟨cls, List.mem_cons_self, badMember?_eq_some hmember⟩
      · obtain ⟨cls', hmem, hrange⟩ := ih h
        exact ⟨cls', List.mem_cons_of_mem _ hmem, hrange⟩
    | _ =>
      obtain ⟨cls', hmem, hrange⟩ := ih h
      exact ⟨cls', List.mem_cons_of_mem _ hmem, hrange⟩

theorem ascending_ending {directoryOnly : Bool} {body : Text} {tokens : List Token} :
    Ascending (tokens ++ ending directoryOnly body) ↔ Ascending tokens := by
  unfold ending
  split <;> simp [Ascending]

/-! ### Paths of either kind -/

namespace Token

theorem consRow_append_below (front : List Token) :
    ∃ front', consRow (front ++ [.below]) = front' ++ [.below] := by
  unfold consRow
  split
  · next count tokens h =>
    cases front with
    | nil => cases h
    | cons token front =>
      obtain ⟨rfl, rfl⟩ := List.cons.inj h
      exact ⟨.row (count + 1) :: front, rfl⟩
  · exact ⟨.row 1 :: front, rfl⟩

/-- Nothing of an ending without a bracket can belong to what ends with one. -/
theorem suffix_of_bracket {tail inner after : Text} (hbracket : ']' ∉ tail)
    (h : tail <:+ inner ++ ']' :: after) : tail <:+ after := by
  obtain ⟨before, hbefore⟩ := h
  rw [show inner ++ ']' :: after = (inner ++ [']']) ++ after by simp] at hbefore
  rcases List.append_eq_append_iff.1 hbefore with ⟨between, hinner, htail⟩ | ⟨between, -, hafter⟩
  · rcases List.eq_nil_or_concat between with rfl | ⟨front, last, rfl⟩
    · exact ⟨[], by simpa using htail⟩
    · rw [List.concat_eq_append, ← List.append_assoc] at hinner
      obtain ⟨-, hlast⟩ := List.append_inj' hinner rfl
      refine absurd ?_ hbracket
      rw [htail]
      simp [← hlast]
  · exact ⟨between, hafter.symm⟩

/-- A pattern that ends with `/**` has the token for it at the end. -/
theorem read?_below {text : Text} {tokens : List Token} (h : read? text = some tokens)
    (hsuffix : ['/', '*', '*'] <:+ text) : ∃ front, tokens = front ++ [.below] := by
  have hcons : ∀ {token : Token} {rest : Text} {tokens : List Token},
      (∀ more, read? rest = some more → ∃ front, more = front ++ [.below]) →
      (read? rest).map (token :: ·) = some tokens → ∃ front, tokens = front ++ [.below] := by
    intro token rest tokens ih h
    obtain ⟨more, hmore, rfl⟩ := Option.map_eq_some_iff.1 h
    obtain ⟨front, rfl⟩ := ih more hmore
    exact ⟨token :: front, rfl⟩
  -- a token that took a part of the last `/**` would leave a `**` that has no tokens
  fun_induction read? text generalizing tokens with
  | case1 => simp at hsuffix
  | case2 rest ih =>
    refine hcons (fun more hmore => ih hmore ?_) h
    simp only [List.suffix_cons_iff] at hsuffix
    rcases hsuffix with heq | heq | heq | heq | hrest
    · simp at heq
    · simp at heq
    · simp at heq
    · obtain ⟨-, rfl⟩ := List.cons.inj heq
      simp [read?] at hmore
    · exact hrest
  | case3 =>
    cases h
    exact ⟨[], rfl⟩
  | case4 => simp at h
  | case5 rest hstar ih =>
    refine hcons (fun more hmore => ih hmore ?_) h
    exact (List.suffix_cons_iff.1 hsuffix).resolve_left (by simp)
  | case6 rest ih =>
    obtain ⟨more, hmore, rfl⟩ := Option.map_eq_some_iff.1 h
    obtain ⟨front, rfl⟩ := ih hmore ((List.suffix_cons_iff.1 hsuffix).resolve_left (by simp))
    exact consRow_append_below front
  | case7 rest cls after hclass ih =>
    obtain ⟨-, inner, rfl, -, -⟩ := CharClass.read?_local hclass
    refine hcons (fun more hmore => ih hmore ?_) h
    exact suffix_of_bracket (by decide) ((List.suffix_cons_iff.1 hsuffix).resolve_left (by simp))
  | case8 rest hclass ih =>
    refine hcons (fun more hmore => ih hmore ?_) h
    exact (List.suffix_cons_iff.1 hsuffix).resolve_left (by simp)
  | case9 c rest ih =>
    refine hcons (fun more hmore => ih hmore ?_) h
    rcases List.suffix_cons_iff.1 ((List.suffix_cons_iff.1 hsuffix).resolve_left (by simp)) with
      heq | hrest
    · obtain ⟨-, rfl⟩ := List.cons.inj heq
      simp [read?] at hmore
    · exact hrest
  | case10 c rest _ hbelow _ _ _ _ _ ih =>
    refine hcons (fun more hmore => ih hmore ?_) h
    refine (List.suffix_cons_iff.1 hsuffix).resolve_left fun heq => ?_
    obtain ⟨rfl, rfl⟩ := List.cons.inj heq
    exact hbelow rfl rfl

/-- A `**` at the end takes one `/` more as well as one less. -/
theorem stands_below_concat {front : List Token} {text : Text} (h : text.getLast? ≠ some '/') :
    Stands (front ++ [.below]) (text ++ ['/']) ↔ Stands (front ++ [.below]) text := by
  simp only [stands_append, stands_singleton, Takes]
  constructor
  · rintro ⟨before, _, hbefore, ⟨rest, hrest, rfl⟩, heq⟩
    obtain ⟨rest, last, rfl⟩ := (List.eq_nil_or_concat rest).resolve_left hrest
    rw [List.concat_eq_append, ← List.cons_append, ← List.append_assoc] at heq
    obtain ⟨rfl, hlast⟩ := List.append_inj' heq rfl
    refine ⟨before, '/' :: rest, hbefore, ⟨rest, ?_, rfl⟩, rfl⟩
    rintro rfl
    simp at h
  · rintro ⟨before, _, hbefore, ⟨rest, hrest, rfl⟩, rfl⟩
    exact ⟨before, '/' :: (rest ++ ['/']), hbefore, ⟨rest ++ ['/'], by simp, rfl⟩, by simp⟩

end Token

theorem mem_starts_concat {text start : Text} :
    start ∈ starts (text ++ ['/']) ↔ start = [] ∨ ∃ rest ∈ starts text, start = rest ++ ['/'] := by
  simp only [mem_starts]
  constructor
  · rintro (rfl | ⟨before, h⟩)
    · exact Or.inr ⟨text, Or.inl rfl, rfl⟩
    · rcases List.eq_nil_or_concat start with rfl | ⟨rest, last, rfl⟩
      · exact Or.inl rfl
      · rw [List.concat_eq_append, ← List.cons_append, ← List.append_assoc] at h
        obtain ⟨rfl, hlast⟩ := List.append_inj' h rfl
        refine Or.inr ⟨rest, Or.inr ⟨before, rfl⟩, ?_⟩
        rw [List.concat_eq_append, hlast]
  · rintro (rfl | ⟨rest, rfl | ⟨before, rfl⟩, rfl⟩)
    · exact Or.inr ⟨text, rfl⟩
    · exact Or.inl rfl
    · exact Or.inr ⟨before, by simp⟩

theorem getLast?_of_mem_starts {text start : Text} (h : start ∈ starts text)
    (hlast : text.getLast? ≠ some '/') : start.getLast? ≠ some '/' := by
  rcases mem_starts.1 h with rfl | ⟨before, rfl⟩
  · exact hlast
  · intro hstart
    simp [List.getLast?_append, List.getLast?_cons, hstart] at hlast

/-- With their ending for directories, the tokens of a text stand for a path with `/` behind it when
without it they stand for the path. -/
theorem stands_ending {body : Text} {tokens : List Token} (h : Token.read? body = some tokens)
    (text : Text) (hlast : text.getLast? ≠ some '/') :
    Token.Stands (tokens ++ ending true body) (text ++ ['/']) ↔ Token.Stands tokens text := by
  unfold ending
  by_cases hsuffix : "/**".toList.isSuffixOf body
  · obtain ⟨front, rfl⟩ := Token.read?_below h (List.isSuffixOf_iff_suffix.1 hsuffix)
    rw [if_neg (fun hand => hand.2 hsuffix), List.append_nil, Token.stands_below_concat hlast]
  · rw [if_pos ⟨rfl, hsuffix⟩, Token.stands_append]
    constructor
    · rintro ⟨before, after, hbefore, hafter, heq⟩
      rw [Token.stands_singleton.1 hafter] at heq
      exact List.append_cancel_right heq ▸ hbefore
    · exact fun hstands => ⟨text, ['/'], hstands, Token.stands_singleton.2 rfl, rfl⟩

theorem not_stands_ending {body : Text} {tokens : List Token} (h : Token.read? body = some tokens) :
    ¬ Token.Stands (tokens ++ ending true body) [] := by
  unfold ending
  intro hstands
  by_cases hsuffix : "/**".toList.isSuffixOf body
  · obtain ⟨front, rfl⟩ := Token.read?_below h (List.isSuffixOf_iff_suffix.1 hsuffix)
    rw [if_neg (fun hand => hand.2 hsuffix), List.append_nil, Token.stands_append] at hstands
    obtain ⟨_, after, -, hafter, heq⟩ := hstands
    obtain ⟨rest, -, rfl⟩ := Token.stands_singleton.1 hafter
    simp at heq
  · rw [if_pos ⟨rfl, hsuffix⟩, Token.stands_append] at hstands
    obtain ⟨_, after, -, hafter, heq⟩ := hstands
    rw [Token.stands_singleton.1 hafter] at heq
    simp at heq

/-- The pattern selects a path, given without the `/` behind the path of a directory. -/
def Selects (pattern path : Text) : Prop :=
  MatchesAll pattern ∨ ∃ tokens, Token.read? (core pattern) = some tokens ∧
    if (splitAnchor pattern).1 then ∃ start ∈ starts path, Token.Stands tokens start
    else Token.Stands tokens path

/-- A matcher accepts the paths of its kind that the pattern selects, the same ones for directories
as for everything else. -/
theorem accepts_iff_selects {pattern path : Text} {directoryOnly : Bool} {m : Matcher}
    (h : compile pattern directoryOnly = .ok m) (hne : pattern ≠ [])
    (hlast : path.getLast? ≠ some '/') :
    m.accepts (path ++ if directoryOnly then ['/'] else []) = true ↔ Selects pattern path := by
  obtain ⟨hkind, hcases⟩ := compile_ok h
  have haccepts : m.accepts (path ++ if directoryOnly then ['/'] else []) = true ↔
      ∀ e, m.expression = some e →
        e.accepts (path ++ if directoryOnly then ['/'] else []) = true := by
    have hslash : ((path ++ if directoryOnly then ['/'] else []).getLast? == some '/') =
        m.directoryOnly := by
      rw [hkind]
      cases directoryOnly <;> simp [hlast]
    unfold Matcher.accepts
    rw [hslash]
    cases m.expression <;> simp
  rw [haccepts]
  rcases hcases with ⟨hnone, hall⟩ | ⟨-, hempty, -⟩ | ⟨tokens, hread, -, hall, hsome, -⟩
  · simp [hnone, Selects, hall]
  · exact absurd hempty hne
  · have hselects : Selects pattern path ↔
        if (splitAnchor pattern).1 then ∃ start ∈ starts path, Token.Stands tokens start
        else Token.Stands tokens path := by
      simp [Selects, hall, hread]
    simp only [hsome, Option.some.injEq, forall_eq', Expression.accepts_iff, hselects,
      expressionWith]
    cases directoryOnly with
    | false => simp [ending]
    | true =>
      cases (splitAnchor pattern).1 with
      | false => simpa using stands_ending hread path hlast
      | true =>
        simp only [if_true]
        constructor
        · rintro ⟨start, hstart, hstands⟩
          rcases mem_starts_concat.1 hstart with rfl | ⟨rest, hrest, rfl⟩
          · exact absurd hstands (not_stands_ending hread)
          · exact ⟨rest, hrest,
              (stands_ending hread rest (getLast?_of_mem_starts hrest hlast)).1 hstands⟩
        · rintro ⟨rest, hrest, hstands⟩
          exact ⟨rest ++ ['/'], mem_starts_concat.2 (Or.inr ⟨rest, hrest, rfl⟩),
            (stands_ending hread rest (getLast?_of_mem_starts hrest hlast)).2 hstands⟩

end PathRights.Pattern
