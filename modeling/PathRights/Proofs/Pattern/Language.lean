import Mathlib.Data.List.Basic
import PathRights.Pattern.Matcher

/-! The language of a pattern. `Token.Takes` says which texts a token stands for and `Token.Stands`
which texts a list of tokens stands for; `Token.accepts_iff` says that the matcher, which tries the
texts that can be left over one after the other, decides exactly this. Relative paths are given by
the names on the way to an entry. -/

namespace PathRights.Pattern

/-- A name of an entry: it is not empty and has no `/` in it. -/
def IsName (name : Text) : Prop := name ≠ [] ∧ '/' ∉ name

instance : DecidablePred IsName := fun name => inferInstanceAs (Decidable (name ≠ [] ∧ '/' ∉ name))

/-- The names, each behind a `/`. -/
def slashed (names : List Text) : Text := names.flatMap ('/' :: ·)

@[simp] theorem slashed_nil : slashed [] = [] := rfl

@[simp] theorem slashed_cons (name : Text) (names : List Text) :
    slashed (name :: names) = '/' :: (name ++ slashed names) := rfl

@[simp] theorem slashed_append (names more : List Text) :
    slashed (names ++ more) = slashed names ++ slashed more := by
  simp [slashed]

/-- A joined list of names is the first name and the others behind their `/`. -/
theorem intercalate_cons (name : Text) (names : List Text) :
    List.intercalate ['/'] (name :: names) = name ++ slashed names := by
  induction names generalizing name with
  | nil => simp
  | cons next more ih =>
    rw [List.intercalate_cons_cons, ih next]
    simp

theorem slashed_eq_cons_intercalate {names : List Text} (h : names ≠ []) :
    slashed names = '/' :: List.intercalate ['/'] names := by
  obtain ⟨name, more, rfl⟩ := List.exists_cons_of_ne_nil h
  rw [intercalate_cons, slashed_cons]

theorem intercalate_concat {names : List Text} (hne : names ≠ []) (name : Text) :
    List.intercalate ['/'] (names ++ [name]) = List.intercalate ['/'] names ++ "/" ++ name := by
  obtain ⟨first, more, rfl⟩ := List.exists_cons_of_ne_nil hne
  rw [List.cons_append, intercalate_cons, intercalate_cons]
  simp

/-- The relative path of an entry: the names on the way to it, with a `/` at the end when it is a
directory. -/
def relativePath (names : List Text) (directory : Bool) : Text :=
  List.intercalate ['/'] names ++ if directory then ['/'] else []

/-! ### Where a text can be cut -/

theorem mem_afterRun {text rest : Text} :
    rest ∈ afterRun text ↔ ∃ taken, '/' ∉ taken ∧ text = taken ++ rest := by
  induction text with
  | nil =>
    constructor
    · intro h
      exact ⟨[], by simp, by simpa [afterRun, eq_comm] using h⟩
    · rintro ⟨taken, -, h⟩
      simp [afterRun, (List.append_eq_nil_iff.1 h.symm).2]
  | cons c text ih =>
    simp only [afterRun, List.mem_cons]
    constructor
    · rintro (rfl | h)
      · exact ⟨[], by simp, rfl⟩
      · by_cases hc : c = '/'
        · simp [hc] at h
        · obtain ⟨taken, htaken, rfl⟩ := ih.1 (by simpa [hc] using h)
          exact ⟨c :: taken, by simp [htaken, Ne.symm hc], rfl⟩
    · rintro ⟨taken, htaken, h⟩
      cases taken with
      | nil => exact Or.inl h.symm
      | cons d taken =>
        simp only [List.cons_append, List.cons.injEq] at h
        obtain ⟨rfl, rfl⟩ := h
        simp only [List.mem_cons, not_or] at htaken
        exact Or.inr (by simpa [Ne.symm htaken.1] using ih.2 ⟨taken, htaken.2, rfl⟩)

theorem mem_afterRow {count : Nat} {text rest : Text} :
    rest ∈ afterRow count text ↔
      ∃ taken, (taken.length = count ∧ '/' ∉ taken) ∧ text = taken ++ rest := by
  induction count generalizing text with
  | zero => simp [afterRow, eq_comm]
  | succ count ih =>
    cases text with
    | nil =>
      simp only [afterRow, List.not_mem_nil, false_iff]
      rintro ⟨taken, ⟨hlength, -⟩, h⟩
      simp [(List.append_eq_nil_iff.1 h.symm).1] at hlength
    | cons c text =>
      simp only [afterRow]
      constructor
      · intro h
        by_cases hc : c = '/'
        · simp [hc] at h
        · obtain ⟨taken, ⟨hlength, htaken⟩, rfl⟩ := ih.1 (by simpa [hc] using h)
          exact ⟨c :: taken, ⟨by simp [hlength], by simp [htaken, Ne.symm hc]⟩, rfl⟩
      · rintro ⟨taken, ⟨hlength, htaken⟩, h⟩
        cases taken with
        | nil => simp at hlength
        | cons d taken =>
          simp only [List.cons_append, List.cons.injEq] at h
          obtain ⟨rfl, rfl⟩ := h
          simp only [List.mem_cons, not_or] at htaken
          simp only [List.length_cons, Nat.add_right_cancel_iff] at hlength
          simpa [Ne.symm htaken.1] using ih.2 ⟨taken, ⟨hlength, htaken.2⟩, rfl⟩

theorem mem_afterSomething {text rest : Text} :
    rest ∈ afterSomething text ↔ ∃ taken, taken ≠ [] ∧ text = taken ++ rest := by
  induction text with
  | nil => simp [afterSomething]
  | cons c text ih =>
    simp only [afterSomething, List.mem_cons, ih]
    constructor
    · rintro (rfl | ⟨taken, -, rfl⟩)
      · exact ⟨[c], by simp, rfl⟩
      · exact ⟨c :: taken, by simp, rfl⟩
    · rintro ⟨taken, htaken, h⟩
      obtain ⟨d, taken, rfl⟩ := List.exists_cons_of_ne_nil htaken
      simp only [List.cons_append, List.cons.injEq] at h
      obtain ⟨rfl, rfl⟩ := h
      cases taken with
      | nil => exact Or.inl rfl
      | cons d taken => exact Or.inr ⟨d :: taken, by simp, rfl⟩

theorem mem_afterComponents {inside : Bool} {text rest : Text} :
    rest ∈ afterComponents inside text ↔
      ∃ taken names, '/' ∉ taken ∧ (∀ name ∈ names, IsName name) ∧
        if inside then text = taken ++ (slashed names ++ '/' :: rest)
        else taken = [] ∧ '/' :: text = slashed names ++ '/' :: rest := by
  -- a name that has begun is `taken` so far, which is why both values of `inside` go together
  induction text generalizing inside with
  | nil =>
    cases inside with
    | true => simp [afterComponents]
    | false =>
      constructor
      · intro h
        exact ⟨[], [], by simp, by simp, by simpa [afterComponents, eq_comm] using h⟩
      · rintro ⟨_, names, -, -, -, h⟩
        cases names <;> simp_all [afterComponents]
  | cons c text ih =>
    cases inside with
    | false =>
      simp only [afterComponents, List.mem_cons, Bool.false_eq_true, if_false]
      constructor
      · rintro (rfl | h)
        · exact ⟨[], [], by simp, by simp, rfl, by simp⟩
        · by_cases hc : c = '/'
          · simp [hc] at h
          · obtain ⟨taken, names, htaken, hnames, heq⟩ := ih.1 (by simpa [hc] using h)
            have hname : IsName (c :: taken) := ⟨by simp, by simp [htaken, Ne.symm hc]⟩
            refine ⟨[], (c :: taken) :: names, by simp, by simpa [hname] using hnames, rfl, ?_⟩
            simpa using heq
      · rintro ⟨_, names, -, hnames, -, h⟩
        cases names with
        | nil =>
          simp only [slashed_nil, List.nil_append, List.cons.injEq, true_and] at h
          exact Or.inl h.symm
        | cons name names =>
          have hname := hnames name (by simp)
          obtain ⟨d, taken, rfl⟩ := List.exists_cons_of_ne_nil hname.1
          simp only [slashed_cons, List.cons_append, List.cons.injEq, true_and] at h
          obtain ⟨rfl, rfl⟩ := h
          have hslash := hname.2
          simp only [List.mem_cons, not_or] at hslash
          refine Or.inr ?_
          rw [if_neg (Ne.symm hslash.1)]
          exact ih.2 ⟨taken, names, hslash.2, fun n hn => hnames n (by simp [hn]), by simp⟩
    | true =>
      simp only [afterComponents, if_true]
      constructor
      · intro h
        by_cases hc : c = '/'
        · obtain ⟨_, names, -, hnames, -, heq⟩ := ih.1 (by simpa [hc] using h)
          exact ⟨[], names, by simp, hnames, by simpa [hc] using heq⟩
        · obtain ⟨taken, names, htaken, hnames, heq⟩ := ih.1 (by simpa [hc] using h)
          exact ⟨c :: taken, names, by simp [htaken, Ne.symm hc], hnames, by simpa using heq⟩
      · rintro ⟨taken, names, htaken, hnames, h⟩
        cases taken with
        | nil =>
          obtain ⟨rfl, -⟩ : c = '/' ∧ True := by cases names <;> simp_all
          exact ih.2 ⟨[], names, by simp, hnames, by simpa using h⟩
        | cons d taken =>
          simp only [List.cons_append, List.cons.injEq] at h
          obtain ⟨rfl, rfl⟩ := h
          simp only [List.mem_cons, not_or] at htaken
          rw [if_neg (Ne.symm htaken.1)]
          exact ih.2 ⟨taken, names, htaken.2, hnames, by simp⟩

/-- A pattern that may begin anywhere begins at the start of the text or behind a `/` of it. -/
theorem mem_starts {text start : Text} :
    start ∈ starts text ↔ text = start ∨ ∃ before, text = before ++ '/' :: start := by
  have hafter : start ∈ starts.afterSlash text ↔ ∃ before, text = before ++ '/' :: start := by
    induction text with
    | nil => simp [starts.afterSlash]
    | cons c text ih =>
      by_cases hc : c = '/'
      · subst hc
        simp only [starts.afterSlash, if_true, List.mem_cons, ih]
        constructor
        · rintro (rfl | ⟨before, rfl⟩)
          · exact ⟨[], rfl⟩
          · exact ⟨'/' :: before, rfl⟩
        · rintro ⟨before, h⟩
          cases before with
          | nil => exact Or.inl (by simpa using h.symm)
          | cons d before => exact Or.inr ⟨before, by simpa using (List.cons.inj h).2⟩
      · simp only [starts.afterSlash, hc, if_false, ih]
        constructor
        · rintro ⟨before, rfl⟩
          exact ⟨c :: before, rfl⟩
        · rintro ⟨before, h⟩
          cases before with
          | nil => exact absurd (List.cons.inj h).1 hc
          | cons d before => exact ⟨before, (List.cons.inj h).2⟩
  rw [starts, List.mem_cons, hafter, eq_comm]

/-! ### Tokens and the texts they stand for -/

namespace Token

/-- The token stands for exactly this text. -/
def Takes : Token → Text → Prop
  | .char c, text => text = [c]
  | .row count, text => text.length = count ∧ '/' ∉ text
  | .star, text => '/' ∉ text
  | .bracket cls, text => ∃ c, text = [c] ∧ cls.accepts c = true
  | .span, text => ∃ names, (∀ name ∈ names, IsName name) ∧ text = slashed names ++ ['/']
  | .below, text => ∃ rest, rest ≠ [] ∧ text = '/' :: rest

/-- The tokens stand for exactly this text, each for a part of it. -/
def Stands : List Token → Text → Prop
  | [], text => text = []
  | token :: tokens, text => ∃ taken rest, token.Takes taken ∧ Stands tokens rest ∧
      text = taken ++ rest

theorem mem_rests {token : Token} {text rest : Text} :
    rest ∈ token.rests text ↔ ∃ taken, token.Takes taken ∧ text = taken ++ rest := by
  cases token with
  | char c => cases text <;> simp [rests, Takes, eq_comm]
  | row count => simp [rests, Takes, mem_afterRow]
  | star => simp [rests, Takes, mem_afterRun]
  | bracket cls =>
    cases text with
    | nil => simp [rests, Takes]
    | cons x text =>
      simp only [rests, Takes]
      constructor
      · intro h
        by_cases hx : cls.accepts x = true
        · rw [if_pos hx, List.mem_singleton] at h
          exact ⟨[x], ⟨x, rfl, hx⟩, by rw [h]; rfl⟩
        · simp [hx] at h
      · rintro ⟨_, ⟨y, rfl, hy⟩, h⟩
        obtain ⟨rfl, rfl⟩ := List.cons.inj h
        simp [hy]
  | span =>
    constructor
    · intro h
      unfold rests at h
      split at h <;> try contradiction
      next text _ =>
        obtain ⟨_, names, -, hnames, -, heq⟩ := mem_afterComponents.1 h
        exact ⟨slashed names ++ ['/'], ⟨names, hnames, rfl⟩, by simpa using heq⟩
    · rintro ⟨_, ⟨names, hnames, rfl⟩, rfl⟩
      have hslash : ∃ more, slashed names ++ ['/'] ++ rest = '/' :: more := by
        cases names <;> simp
      obtain ⟨more, hmore⟩ := hslash
      rw [hmore]
      exact mem_afterComponents.2 ⟨[], names, by simp, hnames, rfl, by simpa using hmore.symm⟩
  | below =>
    constructor
    · intro h
      unfold rests at h
      split at h <;> try contradiction
      next text _ =>
        obtain ⟨taken, htaken, rfl⟩ := mem_afterSomething.1 h
        exact ⟨'/' :: taken, ⟨taken, htaken, rfl⟩, rfl⟩
    · rintro ⟨_, ⟨taken, htaken, rfl⟩, rfl⟩
      exact mem_afterSomething.2 ⟨taken, htaken, rfl⟩

/-- The matcher accepts the texts that the tokens stand for. -/
theorem accepts_iff {tokens : List Token} {text : Text} :
    accepts tokens text = true ↔ Stands tokens text := by
  induction tokens generalizing text with
  | nil => simp [accepts, Stands]
  | cons token tokens ih =>
    simp only [accepts, Stands, List.any_eq_true, mem_rests, ih]
    constructor
    · rintro ⟨rest, ⟨taken, htaken, rfl⟩, hrest⟩
      exact ⟨taken, rest, htaken, hrest, rfl⟩
    · rintro ⟨taken, rest, htaken, hrest, rfl⟩
      exact ⟨rest, ⟨taken, htaken, rfl⟩, hrest⟩

@[simp] theorem stands_nil {text : Text} : Stands [] text ↔ text = [] := Iff.rfl

theorem stands_append {front back : List Token} {text : Text} :
    Stands (front ++ back) text ↔
      ∃ before after, Stands front before ∧ Stands back after ∧ text = before ++ after := by
  induction front generalizing text with
  | nil => simp [Stands]
  | cons token front ih =>
    simp only [List.cons_append, Stands, ih]
    constructor
    · rintro ⟨taken, _, htaken, ⟨before, after, hbefore, hafter, rfl⟩, rfl⟩
      exact ⟨taken ++ before, after, ⟨taken, before, htaken, hbefore, rfl⟩, hafter, by simp⟩
    · rintro ⟨_, after, ⟨taken, before, htaken, hbefore, rfl⟩, hafter, rfl⟩
      exact ⟨taken, before ++ after, htaken, ⟨before, after, hbefore, hafter, rfl⟩, by simp⟩

theorem stands_singleton {token : Token} {text : Text} :
    Stands [token] text ↔ token.Takes text := by
  simp [Stands]

theorem stands_char_cons {c : Char} {tokens : List Token} {text : Text} :
    Stands (.char c :: tokens) text ↔ ∃ rest, Stands tokens rest ∧ text = c :: rest := by
  simp [Stands, Takes]

theorem stands_bracket_cons {cls : CharClass} {tokens : List Token} {text : Text} :
    Stands (.bracket cls :: tokens) text ↔
      ∃ c rest, cls.accepts c = true ∧ Stands tokens rest ∧ text = c :: rest := by
  constructor
  · rintro ⟨_, rest, ⟨c, rfl, hc⟩, hrest, rfl⟩
    exact ⟨c, rest, hc, hrest, rfl⟩
  · rintro ⟨c, rest, hc, hrest, rfl⟩
    exact ⟨[c], rest, ⟨c, rfl, hc⟩, hrest, rfl⟩

end Token

namespace Expression

/-- An expression that may match anywhere accepts a text when its tokens stand for what begins at
the start of the text or behind a `/`. -/
theorem accepts_iff {e : Expression} {text : Text} :
    e.accepts text = true ↔
      if e.anywhere then ∃ start ∈ starts text, Token.Stands e.tokens start
      else Token.Stands e.tokens text := by
  unfold accepts
  cases e.anywhere <;> simp [Token.accepts_iff]

end Expression

end PathRights.Pattern
