import PathRights.Proofs.Pattern.Form

/-! The grammar of patterns as one expression with repetitions, choices and a look at the next
character. An expression may take the beginning of a text in several ways, and a text is recognized
if one of them leaves nothing. -/

namespace PathRights.Pattern

/-- An expression for beginnings of texts. -/
inductive Recognizer where
  | nothing
  | one (accepts : Char → Bool)
  /-- Takes nothing, where another character than `c` comes next. -/
  | notBefore (c : Char)
  | both (first second : Recognizer)
  | either (first second : Recognizer)
  | many (inner : Recognizer)

namespace Recognizer

/-- The expression takes the beginning of `text` that leaves `rest`. -/
inductive Takes : Recognizer → (text rest : Text) → Prop
  | nothing {text : Text} : Takes nothing text text
  | one {accepts : Char → Bool} {c : Char} {rest : Text} (h : accepts c = true) :
      Takes (one accepts) (c :: rest) rest
  | notBefore {c : Char} {text : Text} (h : text.head? ≠ some c) : Takes (notBefore c) text text
  | both {first second : Recognizer} {text middle rest : Text} (hfirst : Takes first text middle)
      (hsecond : Takes second middle rest) : Takes (both first second) text rest
  | left {first second : Recognizer} {text rest : Text} (h : Takes first text rest) :
      Takes (either first second) text rest
  | right {first second : Recognizer} {text rest : Text} (h : Takes second text rest) :
      Takes (either first second) text rest
  | stop {inner : Recognizer} {text : Text} : Takes (many inner) text text
  | again {inner : Recognizer} {text middle rest : Text} (hinner : Takes inner text middle)
      (hmore : Takes (many inner) middle rest) : Takes (many inner) text rest

/-- One given character. -/
def char (c : Char) : Recognizer := one (· == c)

/-- The expression, or nothing. -/
def optional (inner : Recognizer) : Recognizer := either inner nothing

/-- A character that means nothing special, one behind a backslash, or a `*` before no other. -/
def unit : Recognizer :=
  either (one fun c => c != '/' && c != '*' && c != '\\')
    (either (both (char '\\') (one fun _ => true)) (both (char '*') (notBefore '*')))

/-- A component: `**`, or one unit and more. -/
def component : Recognizer := either (both (char '*') (char '*')) (both unit (many unit))

/-- A pattern: components with a `/` between them and perhaps around them, or a bare `/`. -/
def pattern : Recognizer :=
  either (both (optional (char '/'))
    (both component (both (many (both (char '/') component)) (optional (char '/'))))) (char '/')

/-- The expression takes the whole of a text, or all but a line feed at its end. -/
def Recognizes (r : Recognizer) (text : Text) : Prop := r.Takes text [] ∨ r.Takes text ['\n']

/-! ### What expressions take -/

section

variable {text rest : Text} {first second inner : Recognizer} {c : Char}

theorem takes_nothing_iff : Takes nothing text rest ↔ text = rest := by
  constructor
  · intro h
    cases h
    rfl
  · rintro rfl
    exact .nothing

theorem takes_one_iff {accepts : Char → Bool} :
    Takes (one accepts) text rest ↔ ∃ c, accepts c = true ∧ text = c :: rest := by
  constructor
  · intro h
    cases h with
    | one h => exact ⟨_, h, rfl⟩
  · rintro ⟨c, h, rfl⟩
    exact .one h

theorem takes_char_iff : Takes (char c) text rest ↔ text = c :: rest := by
  rw [char, takes_one_iff]
  simp

theorem takes_notBefore_iff : Takes (notBefore c) text rest ↔
    text = rest ∧ rest.head? ≠ some c := by
  constructor
  · intro h
    cases h with
    | notBefore h => exact ⟨rfl, h⟩
  · rintro ⟨rfl, h⟩
    exact .notBefore h

theorem takes_both_iff : Takes (both first second) text rest ↔
    ∃ middle, Takes first text middle ∧ Takes second middle rest := by
  constructor
  · intro h
    cases h with
    | both hfirst hsecond => exact ⟨_, hfirst, hsecond⟩
  · rintro ⟨middle, hfirst, hsecond⟩
    exact .both hfirst hsecond

theorem takes_either_iff :
    Takes (either first second) text rest ↔ Takes first text rest ∨ Takes second text rest := by
  constructor
  · intro h
    cases h with
    | left h => exact Or.inl h
    | right h => exact Or.inr h
  · exact Or.rec .left .right

theorem takes_slash_iff : Takes (optional (char '/')) text rest ↔
    ∃ mark : Bool, text = (if mark then ['/'] else []) ++ rest := by
  rw [optional, takes_either_iff, takes_char_iff, takes_nothing_iff]
  simp [or_comm]

end

/-! ### Components -/

/-- No `*` by itself has another behind it in the units and in the `rest` that follows them. -/
def StarsApart : (units : List Piece) → (rest : Text) → Prop
  | [], _ => True
  | piece :: units, rest =>
    (piece = .plain '*' → (textOf units ++ rest).head? ≠ some '*') ∧ StarsApart units rest

theorem takes_unit_iff {text rest : Text} : Takes unit text rest ↔
    ∃ piece, text = textOf [piece] ++ rest ∧ piece ≠ .plain '/' ∧ piece ≠ .plain '\\' ∧
      (piece = .plain '*' → rest.head? ≠ some '*') := by
  simp only [unit, takes_either_iff, takes_one_iff, takes_both_iff, takes_char_iff,
    takes_notBefore_iff, bne_iff_ne, Bool.and_eq_true]
  constructor
  · rintro (⟨c, ⟨⟨hslash, hstar⟩, hescape⟩, rfl⟩ | ⟨_, rfl, c, -, rfl⟩ | ⟨_, rfl, rfl, hnext⟩)
    · exact ⟨.plain c, rfl, by simpa using hslash, by simpa using hescape, by simp [hstar]⟩
    · exact ⟨.pair c, rfl, by simp, by simp, by simp⟩
    · exact ⟨.plain '*', rfl, by simp, by simp, fun _ => hnext⟩
  · rintro ⟨piece, rfl, hslash, hescape, hnext⟩
    cases piece with
    | pair c => exact Or.inr (Or.inl ⟨_, rfl, c, trivial, rfl⟩)
    | plain c =>
      by_cases hstar : c = '*'
      · exact Or.inr (Or.inr ⟨rest, by rw [hstar]; rfl, rfl, hnext (by rw [hstar])⟩)
      · exact Or.inl ⟨c, ⟨⟨by simpa using hslash, hstar⟩, by simpa using hescape⟩, rfl⟩

theorem takes_units_iff {text rest : Text} : Takes (many unit) text rest ↔
    ∃ units, text = textOf units ++ rest ∧ .plain '/' ∉ units ∧ .plain '\\' ∉ units ∧
      StarsApart units rest := by
  constructor
  · intro h
    generalize hmany : many unit = r at h
    induction h with
    | stop => exact ⟨[], rfl, by simp, by simp, trivial⟩
    | again hinner _ _ ih =>
      cases hmany
      obtain ⟨piece, rfl, hslash, hescape, hnext⟩ := takes_unit_iff.1 hinner
      obtain ⟨units, rfl, hslashes, hescapes, hapart⟩ := ih rfl
      refine ⟨piece :: units, ?_, ?_, ?_, hnext, hapart⟩
      · rw [← List.append_assoc, ← textOf_append, List.singleton_append]
      · simp [hslash.symm, hslashes]
      · simp [hescape.symm, hescapes]
    | _ => cases hmany
  · rintro ⟨units, rfl, hslash, hescape, hapart⟩
    induction units with
    | nil => exact .stop
    | cons piece units ih =>
      obtain ⟨hslash', hslash⟩ := not_or.1 (mt List.mem_cons.2 hslash)
      obtain ⟨hescape', hescape⟩ := not_or.1 (mt List.mem_cons.2 hescape)
      rw [← List.singleton_append, textOf_append, List.append_assoc]
      exact .again (takes_unit_iff.2 ⟨piece, rfl, Ne.symm hslash', Ne.symm hescape', hapart.1⟩)
        (ih hslash hescape hapart.2)

section

variable {text rest : Text} (hrest : rest.head? ≠ some '*')

include hrest

/-- Before a text that does not go on with `*`, only the units themselves count. -/
theorem starsApart_iff {units : List Piece} : StarsApart units rest ↔ ¬ globstar <:+: units := by
  induction units with
  | nil => simp [StarsApart, globstar]
  | cons piece units ih =>
    have hhead : (textOf units ++ rest).head? = some '*' ↔ units.head? = some (.plain '*') := by
      cases units with
      | nil => simpa [textOf] using hrest
      | cons next units => cases next <;> simp [textOf]
    have hprefix : globstar <+: piece :: units ↔
        piece = .plain '*' ∧ units.head? = some (.plain '*') := by
      cases units <;> simp [globstar, List.cons_prefix_cons, eq_comm]
    rw [StarsApart, ih, Ne, hhead, List.infix_cons_iff, hprefix]
    tauto

theorem takes_component_iff : Takes component text rest ↔
    ∃ group, IsComponentForm group ∧ text = textOf group ++ rest := by
  simp only [component, takes_either_iff, takes_both_iff, takes_char_iff, takes_unit_iff,
    takes_units_iff]
  constructor
  · rintro (⟨_, rfl, rfl⟩ |
      ⟨_, ⟨piece, rfl, hslash, hescape, hnext⟩, units, rfl, hslashes, hescapes,
      hapart⟩)
    · exact ⟨globstar, ⟨by decide, by decide, by decide, Or.inl rfl⟩, rfl⟩
    · refine ⟨piece :: units, ⟨by simp, ?_, ?_, Or.inr ?_⟩, ?_⟩
      · simp [hslash.symm, hslashes]
      · simp [hescape.symm, hescapes]
      · exact (starsApart_iff hrest).1 ⟨hnext, hapart⟩
      · rw [← List.append_assoc, ← textOf_append, List.singleton_append]
  · rintro ⟨group, hgroup, rfl⟩
    rcases hgroup.apart with rfl | hapart
    · exact Or.inl ⟨_, rfl, rfl⟩
    · obtain ⟨piece, units, rfl⟩ := List.exists_cons_of_ne_nil hgroup.nonempty
      obtain ⟨hslash, hslashes⟩ := not_or.1 (mt List.mem_cons.2 hgroup.separated)
      obtain ⟨hescape, hescapes⟩ := not_or.1 (mt List.mem_cons.2 hgroup.paired)
      obtain ⟨hnext, hapart⟩ := (starsApart_iff hrest).2 hapart
      refine Or.inr ⟨textOf units ++ rest, ⟨piece, ?_, Ne.symm hslash, Ne.symm hescape, hnext⟩,
        units, rfl, hslashes, hescapes, hapart⟩
      rw [← List.append_assoc, ← textOf_append, List.singleton_append]

theorem head?_slashed_append (names : List Text) : (slashed names ++ rest).head? ≠ some '*' := by
  cases names with
  | nil => exact hrest
  | cons name names => simp

theorem takes_components_iff : Takes (many (both (char '/') component)) text rest ↔
    ∃ groups : List (List Piece), (∀ group ∈ groups, IsComponentForm group) ∧
      text = slashed (groups.map textOf) ++ rest := by
  constructor
  · intro h
    generalize hmany : many (both (char '/') component) = r at h
    induction h with
    | stop => exact ⟨[], by simp, rfl⟩
    | again hinner _ _ ih =>
      cases hmany
      obtain ⟨groups, hgroups, rfl⟩ := ih hrest rfl
      obtain ⟨_, hslash, hcomponent⟩ := takes_both_iff.1 hinner
      obtain rfl := takes_char_iff.1 hslash
      obtain ⟨group, hgroup, rfl⟩ :=
        (takes_component_iff (head?_slashed_append hrest _)).1 hcomponent
      exact ⟨group :: groups, List.forall_mem_cons.2 ⟨hgroup, hgroups⟩, by simp⟩
    | _ => cases hmany
  · rintro ⟨groups, hgroups, rfl⟩
    induction groups with
    | nil => exact .stop
    | cons group groups ih =>
      obtain ⟨hgroup, hgroups⟩ := List.forall_mem_cons.1 hgroups
      rw [List.map_cons, slashed_cons, List.cons_append, List.append_assoc]
      exact .again (.both (takes_char_iff.2 rfl)
        ((takes_component_iff (head?_slashed_append hrest _)).2 ⟨group, hgroup, rfl⟩)) (ih hgroups)

/-- The expression takes what has the form of a pattern. -/
theorem takes_pattern_iff : Takes pattern text rest ↔ ∃ front, IsForm front ∧
    text = front ++ rest := by
  have hmark : ∀ mark : Bool, ((if mark then ['/'] else []) ++ rest).head? ≠ some '*' := by
    intro mark
    cases mark with
    | false => exact hrest
    | true => simp
  have hwritten : ∀ (rooted mark : Bool) (group : List Piece) (groups : List (List Piece)),
      written rooted (group :: groups) mark ++ rest = (if rooted then ['/'] else []) ++
        (textOf group ++ (slashed (groups.map textOf) ++
          ((if mark then ['/'] else []) ++ rest))) := by
    intro rooted mark group groups
    simp [written, intercalate_cons]
  rw [pattern, takes_either_iff, takes_char_iff]
  constructor
  · rintro (h | rfl)
    · obtain ⟨_, hrooted, h⟩ := takes_both_iff.1 h
      obtain ⟨_, hfirst, h⟩ := takes_both_iff.1 h
      obtain ⟨_, hmore, hlast⟩ := takes_both_iff.1 h
      obtain ⟨rooted, rfl⟩ := takes_slash_iff.1 hrooted
      obtain ⟨mark, rfl⟩ := takes_slash_iff.1 hlast
      obtain ⟨groups, hgroups, rfl⟩ := (takes_components_iff (hmark mark)).1 hmore
      obtain ⟨group, hgroup, rfl⟩ :=
        (takes_component_iff (head?_slashed_append (hmark mark) _)).1 hfirst
      exact ⟨written rooted (group :: groups) mark, Or.inr ⟨rooted, group :: groups, mark, by simp,
        List.forall_mem_cons.2 ⟨hgroup, hgroups⟩, rfl⟩, (hwritten rooted mark group groups).symm⟩
    · exact ⟨['/'], Or.inl rfl, rfl⟩
  · rintro ⟨front, rfl | ⟨rooted, groups, mark, hne, hgroups, rfl⟩, rfl⟩
    · exact Or.inr rfl
    · obtain ⟨group, groups, rfl⟩ := List.exists_cons_of_ne_nil hne
      obtain ⟨hgroup, hgroups⟩ := List.forall_mem_cons.1 hgroups
      rw [hwritten]
      exact Or.inl (.both (takes_slash_iff.2 ⟨rooted, rfl⟩)
        (.both ((takes_component_iff (head?_slashed_append (hmark mark) _)).2 ⟨group, hgroup, rfl⟩)
          (.both ((takes_components_iff (hmark mark)).2 ⟨groups, hgroups, rfl⟩)
            (takes_slash_iff.2 ⟨mark, rfl⟩))))

end

end Recognizer

/-! ### The check -/

theorem recognizes_iff {text : Text} : Recognizer.pattern.Recognizes text ↔
    isGrammatical text = true ∨ isGrammatical text.dropFinalNewline = true := by
  rw [Recognizer.Recognizes, Recognizer.takes_pattern_iff (by simp),
    Recognizer.takes_pattern_iff (by decide), isGrammatical_iff_isForm, isGrammatical_iff_isForm]
  simp only [List.append_nil]
  constructor
  · rintro (⟨front, hform, rfl⟩ | ⟨front, hform, rfl⟩)
    · exact Or.inl hform
    · refine Or.inr ?_
      rwa [Text.dropFinalNewline, Text.dropEnd?_append, Option.getD_some]
  · rintro (hform | hform)
    · exact Or.inl ⟨text, hform, rfl⟩
    · rcases eq_dropFinalNewline text with heq | heq
      · exact Or.inl ⟨text, heq ▸ hform, rfl⟩
      · exact Or.inr ⟨_, hform, heq⟩

/-- What the check of a text accepts, without a word on how it reads. -/
theorem check_str_iff {text : Text} : (∃ result, check (.str text) = .ok result) ↔
    text ≠ [] ∧ '\x00' ∉ text ∧ Recognizer.pattern.Recognizes text := by
  have hcheck : check (.str text) = checkText text := by
    cases text <;> rfl
  rw [hcheck, recognizes_iff]
  unfold checkText
  cases text with
  | nil => simp
  | cons c text =>
    by_cases hnull : '\x00' ∈ c :: text
    · simp [hnull]
    · by_cases hgrammar : isGrammatical (c :: text) = true ∨
          isGrammatical (Text.dropFinalNewline (c :: text)) = true <;> simp [hnull, hgrammar]

/-- The check of a text accepts what the expression recognizes. Where no line feed ends the text,
these are the texts that have the form of a pattern: one or more components with a `/` between them
and perhaps around them, read with every backslash paired, or the bare `/`. -/
theorem check_accepts_form (text : Text) :
    ((∃ result, check (.str text) = .ok result) ↔
      text ≠ [] ∧ '\x00' ∉ text ∧ Recognizer.pattern.Recognizes text) ∧
    (text.getLast? ≠ some '\n' → ((∃ result, check (.str text) = .ok result) ↔
      text ≠ [] ∧ '\x00' ∉ text ∧ IsForm text)) := by
  refine ⟨check_str_iff, ?_⟩
  intro hlast
  have hdrop : text.dropFinalNewline = text := by
    rcases eq_dropFinalNewline text with heq | heq
    · exact heq.symm
    · rw [heq, List.getLast?_concat] at hlast
      exact absurd rfl hlast
  rw [check_str_iff, recognizes_iff, hdrop, or_self, isGrammatical_iff_isForm]

/-- A `*` behind a backslash next to another, and three of them in a row. -/
theorem check_accepts_form_escaped :
    ("/\\**x/**/".toList.getLast? ≠ some '\n' ∧ IsForm "/\\**x/**/") ∧
    "a/***".toList.getLast? ≠ some '\n' ∧ ¬ IsForm "a/***" := by
  have haccepted : ∃ result, check (.str "/\\**x/**/") = .ok result := ⟨_, rfl⟩
  have hrefused : ¬ ∃ result, check (.str "a/***") = .ok result := nofun
  refine ⟨⟨by decide, (((check_accepts_form _).2 (by decide)).1 haccepted).2.2⟩, by decide, ?_⟩
  intro hform
  exact hrefused (((check_accepts_form _).2 (by decide)).2 ⟨by decide, by decide, hform⟩)

end PathRights.Pattern
