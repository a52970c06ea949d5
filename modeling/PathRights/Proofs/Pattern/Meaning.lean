import PathRights.Proofs.Pattern.Agreement

/-! The meaning of a pattern by its components. A component matches a name character by character,
`**` stands for names, and a pattern that does not begin with `/` matches the last names of a path.
This speaks of patterns whose `/` all separate components, with none of them behind a backslash and
no class that accepts one. -/

namespace PathRights.Pattern

/-- A component of a pattern, other than `**`, matches a name. -/
inductive MatchesName : (component name : Text) → Prop
  | nil : MatchesName [] []
  | star {rest taken name : Text} (h : MatchesName rest name) :
      MatchesName ('*' :: rest) (taken ++ name)
  | one {c : Char} {rest name : Text} (h : MatchesName rest name) :
      MatchesName ('?' :: rest) (c :: name)
  | bracket {c : Char} {rest after name : Text} {cls : CharClass}
      (hclass : CharClass.read? rest = some (cls, after)) (haccepts : cls.accepts c = true)
      (h : MatchesName after name) : MatchesName ('[' :: rest) (c :: name)
  | opening {rest name : Text} (hclass : CharClass.read? rest = none) (h : MatchesName rest name) :
      MatchesName ('[' :: rest) ('[' :: name)
  | escaped {c : Char} {rest name : Text} (h : MatchesName rest name) :
      MatchesName ('\\' :: c :: rest) (c :: name)
  | char {c : Char} {rest name : Text} (hc : c ∉ ['*', '?', '[', '\\'])
      (h : MatchesName rest name) : MatchesName (c :: rest) (c :: name)

/-- The component `**`. -/
def doubleStar : Text := ['*', '*']

/-- The components of a pattern match names. A `**` at the end stands for at least one name, any
other `**` for any number of them, and every other component for one. -/
inductive MatchesNames : (components names : List Text) → Prop
  | nil : MatchesNames [] []
  | last {names : List Text} (h : names ≠ []) : MatchesNames [doubleStar] names
  | any {components taken names : List Text} (hne : components ≠ [])
      (h : MatchesNames components names) : MatchesNames (doubleStar :: components) (taken ++ names)
  | name {component name : Text} {components names : List Text} (hne : component ≠ doubleStar)
      (hname : MatchesName component name) (h : MatchesNames components names) :
      MatchesNames (component :: components) (name :: names)

/-- The pattern without a `/` in front. -/
def unrooted : Text → Text
  | '/' :: rest => rest
  | pattern => pattern

/-- The components of a pattern. -/
def namesOf (pattern : Text) : List Text := List.splitOn '/' (unrooted pattern)

/-- The pattern must match a path from its beginning. -/
def IsAnchored (pattern : Text) : Prop :=
  pattern.head? = some '/' ∧ (namesOf pattern).head? ≠ some doubleStar

/-- The pattern matches a path, given by its names: all of them if it is anchored, else some of them
up to the last. -/
def MatchesPath (pattern : Text) (names : List Text) : Prop :=
  (IsAnchored pattern → MatchesNames (namesOf pattern) names) ∧
    (¬ IsAnchored pattern → ∃ before below, below ≠ [] ∧ names = before ++ below ∧
      MatchesNames (namesOf pattern) below)

namespace MatchesName

theorem star_iff {rest name : Text} : MatchesName ('*' :: rest) name ↔
    ∃ taken name', MatchesName rest name' ∧ name = taken ++ name' := by
  constructor
  · intro h
    cases h with
    | star h => exact ⟨_, _, h, rfl⟩
    | char hc => simp at hc
  · rintro ⟨taken, name', h, rfl⟩
    exact .star h

theorem one_iff {rest name : Text} : MatchesName ('?' :: rest) name ↔
    ∃ c name', MatchesName rest name' ∧ name = c :: name' := by
  constructor
  · intro h
    cases h with
    | one h => exact ⟨_, _, h, rfl⟩
    | char hc => simp at hc
  · rintro ⟨c, name', h, rfl⟩
    exact .one h

theorem bracket_iff {rest after name : Text} {cls : CharClass}
    (hclass : CharClass.read? rest = some (cls, after)) : MatchesName ('[' :: rest) name ↔
      ∃ c name', cls.accepts c = true ∧ MatchesName after name' ∧ name = c :: name' := by
  constructor
  · intro h
    cases h with
    | bracket hread haccepts h =>
      cases hclass.symm.trans hread
      exact ⟨_, _, haccepts, h, rfl⟩
    | opening hread => cases hclass.symm.trans hread
    | char hc => simp at hc
  · rintro ⟨c, name', haccepts, h, rfl⟩
    exact .bracket hclass haccepts h

theorem opening_iff {rest name : Text} (hclass : CharClass.read? rest = none) :
    MatchesName ('[' :: rest) name ↔ ∃ name', MatchesName rest name' ∧ name = '[' :: name' := by
  constructor
  · intro h
    cases h with
    | bracket hread => cases hclass.symm.trans hread
    | opening _ h => exact ⟨_, h, rfl⟩
    | char hc => simp at hc
  · rintro ⟨name', h, rfl⟩
    exact .opening hclass h

theorem escaped_iff {c : Char} {rest name : Text} : MatchesName ('\\' :: c :: rest) name ↔
    ∃ name', MatchesName rest name' ∧ name = c :: name' := by
  constructor
  · intro h
    cases h with
    | escaped h => exact ⟨_, h, rfl⟩
    | char hc => simp at hc
  · rintro ⟨name', h, rfl⟩
    exact .escaped h

theorem char_iff {c : Char} {rest name : Text} (hc : c ∉ ['*', '?', '[', '\\']) :
    MatchesName (c :: rest) name ↔ ∃ name', MatchesName rest name' ∧ name = c :: name' := by
  constructor
  · intro h
    cases h with
    | char _ h => exact ⟨_, h, rfl⟩
    | _ => simp at hc
  · rintro ⟨name', h, rfl⟩
    exact .char hc h

theorem nil_iff {name : Text} : MatchesName [] name ↔ name = [] := by
  constructor
  · intro h
    cases h
    rfl
  · rintro rfl
    exact .nil

end MatchesName

namespace MatchesNames

theorem nil_iff {names : List Text} : MatchesNames [] names ↔ names = [] := by
  constructor
  · intro h
    cases h
    rfl
  · rintro rfl
    exact .nil

theorem last_iff {names : List Text} : MatchesNames [doubleStar] names ↔ names ≠ [] := by
  constructor
  · intro h
    cases h with
    | last h => exact h
    | any hne => exact absurd rfl hne
    | name hne => exact absurd rfl hne
  · exact .last

theorem any_iff {components names : List Text} (hne : components ≠ []) :
    MatchesNames (doubleStar :: components) names ↔
      ∃ taken names', MatchesNames components names' ∧ names = taken ++ names' := by
  constructor
  · intro h
    cases h with
    | last => exact absurd rfl hne
    | any _ h => exact ⟨_, _, h, rfl⟩
    | name hne => exact absurd rfl hne
  · rintro ⟨taken, names', h, rfl⟩
    exact .any hne h

theorem name_iff {component : Text} {components names : List Text} (hne : component ≠ doubleStar) :
    MatchesNames (component :: components) names ↔
      ∃ name names', MatchesName component name ∧ MatchesNames components names' ∧
        names = name :: names' := by
  constructor
  · intro h
    cases h with
    | last => exact absurd rfl hne
    | any => exact absurd rfl hne
    | name _ hname h => exact ⟨_, _, hname, h, rfl⟩
  · rintro ⟨name, names', hname, h, rfl⟩
    exact .name hne hname h

theorem ne_nil {components names : List Text} (h : MatchesNames components names)
    (hne : components ≠ []) : names ≠ [] := by
  induction h with
  | nil => exact absurd rfl hne
  | last h => exact h
  | any hmore _ ih => simp [ih hmore]
  | name => simp

/-- Two `**` next to each other stand for what one stands for. -/
theorem any_any_iff {components names : List Text} :
    MatchesNames (doubleStar :: doubleStar :: components) names ↔
      MatchesNames (doubleStar :: components) names := by
  rw [any_iff (by simp)]
  constructor
  · rintro ⟨taken, names', h, rfl⟩
    by_cases hne : components = []
    · subst hne
      have hnames := last_iff.1 h
      exact .last (by simp [hnames])
    · obtain ⟨taken', names', h', rfl⟩ := (any_iff hne).1 h
      exact (any_iff hne).2 ⟨taken ++ taken', names', h', by simp⟩
  · exact fun h => ⟨[], names, h, rfl⟩

end MatchesNames

/-! ### Patterns whose `/` are all separators -/

/-- The classes of a text, from left to right. -/
def classes : Text → List CharClass
  | [] => []
  | '\\' :: _ :: rest => classes rest
  | '[' :: rest =>
    match _ : CharClass.read? rest with
    | some (cls, after) => cls :: classes after
    | none => classes rest
  | _ :: rest => classes rest
termination_by text => text.length
decreasing_by
  all_goals simp only [List.length_cons]
  all_goals try omega
  exact Nat.lt_succ_of_lt (CharClass.length_read? (by assumption))

/-- The class has no `/` in it and does not accept one. -/
def CharClass.AvoidsSlash (cls : CharClass) : Prop :=
  (∀ item ∈ cls.items, item.char ≠ '/') ∧ cls.accepts '/' = false

instance : DecidablePred CharClass.AvoidsSlash := fun cls =>
  inferInstanceAs (Decidable ((∀ item ∈ cls.items, item.char ≠ '/') ∧ cls.accepts '/' = false))

/-- No `/` of the text stands behind a backslash. -/
def EscapesNoSlash (text : Text) : Prop := ∃ units, pieces text = some units ∧ .pair '/' ∉ units

/-- Every `/` of the text separates components, and no class accepts one. -/
structure Separated (text : Text) : Prop where
  escapes : EscapesNoSlash text
  avoids : ∀ cls ∈ classes text, cls.AvoidsSlash

theorem EscapesNoSlash.of_escaped {c : Char} {rest : Text}
    (h : EscapesNoSlash ('\\' :: c :: rest)) :
    c ≠ '/' ∧ EscapesNoSlash rest := by
  obtain ⟨units, hunits, hslash⟩ := h
  obtain ⟨more, hmore, rfl⟩ := Option.map_eq_some_iff.1 hunits
  simp only [List.mem_cons, Piece.pair.injEq, not_or] at hslash
  exact ⟨Ne.symm hslash.1, more, hmore, hslash.2⟩

theorem EscapesNoSlash.of_cons {c : Char} {rest : Text}
    (hescape : ∀ d more, c = '\\' → rest = d :: more → False) (h : EscapesNoSlash (c :: rest)) :
    EscapesNoSlash rest := by
  obtain ⟨units, hunits, hslash⟩ := h
  have hne : c = '\\' → rest ≠ [] := by
    rintro rfl rfl
    simp [pieces] at hunits
  rw [pieces] at hunits
  · obtain ⟨more, hmore, rfl⟩ := Option.map_eq_some_iff.1 hunits
    exact ⟨more, hmore, fun hmem => hslash (List.mem_cons_of_mem _ hmem)⟩
  · exact hne
  · exact hescape

theorem not_escapesNoSlash : ¬ EscapesNoSlash ['\\'] := by
  rintro ⟨units, hunits, -⟩
  simp [pieces] at hunits

theorem EscapesNoSlash.of_bracket {rest after : Text} {cls : CharClass}
    (hclass : CharClass.read? rest = some (cls, after)) (h : EscapesNoSlash ('[' :: rest)) :
    EscapesNoSlash after := by
  have hclose := CharClass.read?_close (P := EscapesNoSlash) (fun c rest => .of_cons)
    (fun c rest h => h.of_escaped.2) hclass (h.of_cons (by simp))
  exact hclose.of_cons (by simp)

theorem Separated.of_escaped {c : Char} {rest : Text} (h : Separated ('\\' :: c :: rest)) :
    c ≠ '/' ∧ Separated rest := by
  refine ⟨h.escapes.of_escaped.1, h.escapes.of_escaped.2, ?_⟩
  have havoids := h.avoids
  rwa [classes] at havoids

theorem Separated.of_bracket {rest after : Text} {cls : CharClass} (h : Separated ('[' :: rest))
    (hclass : CharClass.read? rest = some (cls, after)) : cls.AvoidsSlash ∧ Separated after := by
  have havoids : ∀ cls' ∈ cls :: classes after, cls'.AvoidsSlash := by
    intro cls' hmem
    refine h.avoids cls' ?_
    rw [classes]
    split
    · next hread =>
      rw [hclass] at hread
      cases hread
      exact hmem
    · next hread =>
      rw [hclass] at hread
      cases hread
  exact ⟨havoids cls List.mem_cons_self, h.escapes.of_bracket hclass,
    fun cls' hmem => havoids cls' (List.mem_cons_of_mem _ hmem)⟩

theorem Separated.of_opening {rest : Text} (h : Separated ('[' :: rest))
    (hclass : CharClass.read? rest = none) : Separated rest := by
  refine ⟨h.escapes.of_cons (by simp), fun cls hmem => h.avoids cls ?_⟩
  rw [classes]
  split
  · next hread =>
    rw [hclass] at hread
    cases hread
  · exact hmem

theorem Separated.of_cons {c : Char} {rest : Text} (h : Separated (c :: rest))
    (hescape : c ≠ '\\') (hbracket : c ≠ '[') : Separated rest := by
  refine ⟨h.escapes.of_cons fun _ _ hc _ => hescape hc, fun cls hmem => h.avoids cls ?_⟩
  rw [classes]
  · exact hmem
  · exact fun _ _ hc _ => hescape hc
  · exact hbracket

end PathRights.Pattern
