/-!
Text, as every other module of the library reads it: a list of characters. Names, paths, patterns,
rule lines and messages are all `Text`, so that each operation on them is a recursion on a list and
each fact about them an induction. A string literal stands for its characters.
-/

namespace PathRights

/-- Text is the list of its characters. -/
abbrev Text := List Char

instance : Coe String Text := ⟨String.toList⟩

namespace Text

/-- The text in front of the first character that satisfies `p`, that character, and what
follows. -/
def breakAt (p : Char → Bool) : Text → Option (Text × Char × Text)
  | [] => none
  | c :: rest =>
    if p c then some ([], c, rest)
    else (breakAt p rest).map fun (before, sep, after) => (c :: before, sep, after)

/-- Puts `c` in front of the first piece. -/
def consHead (c : Char) : List Text → List Text
  | [] => [[c]]
  | piece :: pieces => (c :: piece) :: pieces

/-- What precedes a final `ending`, when the text ends with it. -/
def dropEnd? (ending text : Text) : Option Text :=
  if ending.isSuffixOf text then some (text.take (text.length - ending.length)) else none

/-- The text without one final line feed: what a check of a whole line looks at, since it takes a
line feed at the very end for the end of the line. -/
def dropFinalNewline (text : Text) : Text :=
  (dropEnd? ['\n'] text).getD text

theorem breakAt_eq_none {p : Char → Bool} {text : Text} :
    breakAt p text = none ↔ ∀ c ∈ text, p c = false := by
  induction text with
  | nil => simp [breakAt]
  | cons c rest ih => by_cases h : p c <;> simp [breakAt, h, ih]

/-- The parts that `breakAt` returns make up the text. -/
theorem eq_of_breakAt {p : Char → Bool} {text before after : Text} {sep : Char}
    (h : breakAt p text = some (before, sep, after)) :
    text = before ++ sep :: after ∧ p sep ∧ ∀ c ∈ before, p c = false := by
  induction text generalizing before with
  | nil => simp [breakAt] at h
  | cons c rest ih =>
    by_cases hc : p c
    · simp only [breakAt, hc, if_true, Option.some.injEq, Prod.mk.injEq] at h
      obtain ⟨rfl, rfl, rfl⟩ := h
      simp [hc]
    · simp only [breakAt, hc, Bool.false_eq_true, if_false, Option.map_eq_some_iff,
        Prod.mk.injEq, Prod.exists] at h
      obtain ⟨before', sep', after', hrest, rfl, rfl, rfl⟩ := h
      obtain ⟨rfl, hsep, hbefore⟩ := ih hrest
      exact ⟨rfl, hsep, by simpa [hc] using hbefore⟩

theorem breakAt_append {p : Char → Bool} {before after : Text} {sep : Char} (hsep : p sep)
    (hbefore : ∀ c ∈ before, p c = false) :
    breakAt p (before ++ sep :: after) = some (before, sep, after) := by
  induction before with
  | nil => simp [breakAt, hsep]
  | cons c rest ih => simp_all [breakAt]

end Text

end PathRights
