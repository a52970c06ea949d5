import PathRights.Proofs.Pattern.Agreement
import PathRights.Rule.Source

/-! What can be wrong with the pattern of a line. The fields of a line hold no blanks, and a `/` at
the end of the first is taken off before it is compiled. `checkText_agrees_with_compile` says that
the check of a pattern lets nothing through that cannot be compiled, but for ranges that run
backwards, and stops nothing that can be. -/

namespace PathRights

namespace Text

theorem mem_consHead {c : Char} {pieces : List Text} {piece : Text}
    (h : piece ∈ consHead c pieces) :
    piece ∈ pieces ∨ ∃ rest, piece = c :: rest ∧ (rest = [] ∨ rest ∈ pieces) := by
  cases pieces with
  | nil => simp_all [consHead]
  | cons first pieces =>
    simp only [consHead, List.mem_cons] at h ⊢
    rcases h with rfl | h
    · exact Or.inr ⟨first, rfl, Or.inr (Or.inl rfl)⟩
    · exact Or.inl (Or.inr h)

/-- The fields of a line hold no blanks. -/
theorem isBlank_of_mem_fields {line field : Text} (h : field ∈ fields line) :
    ∀ c ∈ field, isBlank c = false := by
  fun_induction fields line generalizing field with
  | case1 => simp_all
  | case2 c rest hblank next hnext hnext' ih => exact ih h
  | case3 c rest hblank next hnext hnext' ih =>
    rcases List.mem_cons.1 h with rfl | h
    · simp
    · exact ih h
  | case4 c rest hblank hnone ih =>
    rcases List.mem_cons.1 h with rfl | h
    · simp
    · exact ih h
  | case5 c rest hblank ih =>
    rcases mem_consHead h with h | ⟨more, rfl, rfl | hmore⟩
    · exact ih h
    · simpa using hblank
    · simpa [hblank] using ih hmore

/-- A text that ends with another is what precedes it and the other. -/
theorem eq_of_dropEnd? {ending text rest : Text} (h : dropEnd? ending text = some rest) :
    text = rest ++ ending := by
  unfold dropEnd? at h
  split at h
  · next hsuffix =>
    obtain ⟨before, rfl⟩ := List.isSuffixOf_iff_suffix.1 hsuffix
    simp_all
  · cases h

end Text

namespace Rule

/-- The raw pattern of a line is its pattern and the `/` that marks it. -/
theorem append_splitMark (raw : Text) :
    raw = (splitMark raw).1 ++ if (splitMark raw).2 then ['/'] else [] := by
  unfold splitMark
  split
  · next rest h => simpa using Text.eq_of_dropEnd? h
  · simp

/-- What is left of the fields of a line when their pattern is compiled. -/
theorem ofFields_uncompilable {registry : Registry} {lineNumber : Nat} {raw roleName : Text}
    {error : Pattern.PatternError}
    (h : ofFields registry lineNumber raw roleName = .error (.uncompilable error)) :
    (∃ text, Pattern.checkText raw = .ok text) ∧
      Pattern.compile (splitMark raw).1 (splitMark raw).2 = .error error := by
  unfold ofFields at h
  split at h
  · cases h
  · next text htext =>
    refine ⟨⟨text, htext⟩, ?_⟩
    dsimp only at h
    split at h
    · next fault hrole =>
      cases h
      unfold readRole at hrole
      split at hrole
      · cases hrole
      · split at hrole
        · cases hrole
        · split at hrole
          · cases hrole
          · split at hrole <;> cases hrole
    · split at h
      · next error' hcompile =>
        cases h
        exact hcompile
      · cases h

theorem ofFields_ok {registry : Registry} {lineNumber : Nat} {raw roleName : Text} {rule : Rule}
    (h : ofFields registry lineNumber raw roleName = .ok rule) :
    (∃ text, Pattern.checkText raw = .ok text) ∧
      rule.pattern = (splitMark raw).1 ∧ rule.forDirectories = (splitMark raw).2 ∧
      Pattern.compile rule.pattern rule.forDirectories = .ok rule.matcher := by
  unfold ofFields at h
  split at h
  · cases h
  · next text htext =>
    dsimp only at h
    split at h
    · cases h
    · split at h
      · cases h
      · next matcher hcompile =>
        cases h
        exact ⟨⟨text, htext⟩, rfl, rfl, hcompile⟩

/-- Every line that is read by its fields has a first field without blanks for its pattern. -/
theorem readLine_eq (registry : Registry) (lineNumber : Nat) (line : Text) :
    readLine registry lineNumber line = .error .emptyPattern ∨
      readLine registry lineNumber line = .error .tooManyFields ∨
      ∃ raw roleName, (∀ c ∈ raw, Text.isBlank c = false) ∧
        readLine registry lineNumber line = ofFields registry lineNumber raw roleName := by
  unfold readLine
  have hblank := @Text.isBlank_of_mem_fields line
  split
  · exact Or.inl rfl
  · next raw _ heq =>
    exact Or.inr (Or.inr ⟨raw, noRole, hblank (by simp [heq]), rfl⟩)
  · next raw roleName _ heq =>
    exact Or.inr (Or.inr ⟨raw, roleName, hblank (by simp [heq]), rfl⟩)
  · exact Or.inr (Or.inl rfl)

/-- A pattern that was checked compiles without its mark, but for ranges that run backwards. -/
theorem compile_splitMark {raw : Text} {error : Pattern.PatternError}
    (hblank : ∀ c ∈ raw, Text.isBlank c = false) (hcheck : ∃ text, Pattern.checkText raw = .ok text)
    (h : Pattern.compile (splitMark raw).1 (splitMark raw).2 = .error error) :
    ∃ range, error = .descendingRange (splitMark raw).1 range ∧
      Pattern.HasDescendingRange (splitMark raw).1 range := by
  obtain ⟨hne, -, hgrammar⟩ := (Pattern.checkText_ok_iff hblank).1 (Pattern.checkText_eq hcheck)
  have hraw := append_splitMark raw
  have hm : Pattern.misplaces true (splitMark raw).1 = false := by
    have hm := Pattern.misplaces_of_isGrammatical hgrammar
    rw [hraw] at hm
    cases hmark : (splitMark raw).2 with
    | true => exact Pattern.misplaces_of_append_slash (by simpa [hmark] using hm)
    | false => simpa [hmark] using hm
  rcases Pattern.compile_error_of_misplaces h hm with ⟨hnil, hmark⟩ | hrange
  · rw [hnil, hmark] at hraw
    exact absurd hraw hne
  · exact hrange

/-- The check of patterns and their compilation agree. When a line is read, a pattern that was
checked is compiled unless a range in a class of it runs backwards, and its expression is then well
formed. A pattern without classes, and with no empty component and no backslash at its end, is
compiled just when it passes the check. -/
theorem checkText_agrees_with_compile :
    (∀ (registry : Registry) (lineNumber : Nat) (line : Text) (error : Pattern.PatternError),
      readLine registry lineNumber line = .error (.uncompilable error) →
        ∃ pattern range, error = .descendingRange pattern range ∧
          Pattern.HasDescendingRange pattern range) ∧
    (∀ (registry : Registry) (lineNumber : Nat) (line : Text) (rule : Rule)
      (e : Pattern.Expression), readLine registry lineNumber line = .ok rule →
        rule.matcher.expression = some e → Pattern.Notation.WellFormed e.text) ∧
    ∀ (pattern : Text) (directoryOnly : Bool) (units : List Pattern.Piece), pattern ≠ [] →
      (∀ c ∈ pattern, Text.isBlank c = false) → '\x00' ∉ pattern → '[' ∉ pattern →
      Pattern.pieces pattern = some units →
      [] ∉ Pattern.dropLeadingSlash (Pattern.components units) →
      ((∃ error, Pattern.compile pattern directoryOnly = .error error) ↔
        ∃ error, Pattern.checkText pattern = .error error) := by
  refine ⟨fun registry lineNumber line error h => ?_,
    fun registry lineNumber line rule e h he => ?_,
    fun pattern directoryOnly units hne hblank hnull hclass hunits hempty => ?_⟩
  · rcases readLine_eq registry lineNumber line with hline | hline | ⟨raw, roleName, hblank, hline⟩
    · rw [hline] at h
      cases h
    · rw [hline] at h
      cases h
    · obtain ⟨hcheck, hcompile⟩ := ofFields_uncompilable (hline ▸ h)
      exact ⟨_, compile_splitMark hblank hcheck hcompile⟩
  · rcases readLine_eq registry lineNumber line with hline | hline | ⟨raw, roleName, -, hline⟩
    · rw [hline] at h
      cases h
    · rw [hline] at h
      cases h
    · obtain ⟨-, -, -, hcompile⟩ := ofFields_ok (hline ▸ h)
      exact Pattern.wellFormed_of_compile hcompile he
  · have hgrammar : Pattern.checkText pattern = .ok pattern ↔
        Pattern.misplaces true pattern = false := by
      rw [Pattern.checkText_ok_iff hblank]
      exact ⟨fun h => Pattern.misplaces_of_isGrammatical h.2.2,
        fun h => ⟨hne, hnull, Pattern.isGrammatical_of_misplaces hunits hne hempty h⟩⟩
    constructor
    · rintro ⟨error, herror⟩
      cases hcheck : Pattern.checkText pattern with
      | error error' => exact ⟨error', rfl⟩
      | ok text =>
        have hm := hgrammar.1 (Pattern.checkText_eq ⟨text, hcheck⟩)
        rcases Pattern.compile_error_of_misplaces herror hm with ⟨hnil, -⟩ | ⟨_, -, hrange⟩
        · exact absurd hnil hne
        · obtain ⟨tokens, cls, htokens, hmem, -⟩ := hrange
          obtain ⟨before, _, hcore, rest, after, rfl, -⟩ :=
            Pattern.Token.exists_isReadFrom htokens hmem
          exact absurd (Pattern.mem_of_mem_core (by simp [hcore])) hclass
    · rintro ⟨error, herror⟩
      cases hcompile : Pattern.compile pattern directoryOnly with
      | error error' => exact ⟨error', rfl⟩
      | ok m =>
        have hcheck := hgrammar.2 (Pattern.misplaces_of_compile hcompile hclass)
        rw [herror] at hcheck
        cases hcheck

/-- A line of each kind: one with a range that runs backwards, one that is read, and a pattern that
is not checked and not compiled. -/
theorem checkText_agrees_with_compile_for_lines :
    (∃ error, readLine ⟨[]⟩ 1 "/[z-a] -" = .error (.uncompilable error) ∧
      ∃ pattern range, error = .descendingRange pattern range ∧
        Pattern.HasDescendingRange pattern range) ∧
    (∃ rule e, readLine ⟨[]⟩ 1 "*.[ch]" = .ok rule ∧ rule.matcher.expression = some e ∧
      Pattern.Notation.WellFormed e.text) ∧
    ((∃ error, Pattern.compile "a/b**" false = .error error) ∧
      ∃ error, Pattern.checkText "a/b**" = .error error) := by
  have hbad : readLine ⟨[]⟩ 1 "/[z-a] -" = .error (.uncompilable (.descendingRange "/[z-a]"
      ⟨⟨'z', false⟩, ⟨'a', false⟩, "[", "[z-a]"⟩)) := by
    with_unfolding_all rfl
  have hgood : ∃ rule e, readLine ⟨[]⟩ 1 "*.[ch]" = .ok rule ∧ rule.matcher.expression = some e :=
    ⟨_, _, by with_unfolding_all rfl, rfl⟩
  have hcompile : ∃ error, Pattern.compile "a/b**" false = .error error :=
    ⟨.misplacedGlobstar "a/b**", by decide +kernel⟩
  have hblank : ∀ c ∈ "a/b**".toList, Text.isBlank c = false := by
    have hall : "a/b**".toList.all (!Text.isBlank ·) = true := by decide
    simpa using List.all_eq_true.1 hall
  obtain ⟨rule, e, hrule, he⟩ := hgood
  exact ⟨⟨_, hbad, checkText_agrees_with_compile.1 _ _ _ _ hbad⟩,
    ⟨rule, e, hrule, he, checkText_agrees_with_compile.2.1 _ _ _ _ _ hrule he⟩,
    hcompile, (checkText_agrees_with_compile.2.2 "a/b**" false
      [.plain 'a', .plain '/', .plain 'b', .plain '*', .plain '*'] (by decide) hblank
      (by decide) (by decide) (by decide) (by decide)).1 hcompile⟩

end Rule

end PathRights
