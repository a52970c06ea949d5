import PathRights.Proofs.Pattern.Form
import PathRights.Proofs.Rule.Written

/-! The `/` that marks a rule for directories, and what is left of a pattern without it. The mark is
taken off the text of a pattern, where a `/` behind a backslash looks like any other. So what a rule
holds passes the check of patterns unless the mark was the second half of such a pair, and then it
never does: `stored_pattern_checked_iff`. -/

namespace PathRights

namespace Pattern

theorem pieces_dangling {units : List Piece} (h : .plain '\\' ∉ units) :
    pieces (textOf units ++ ['\\']) = none := by
  induction units with
  | nil => rfl
  | cons piece units ih =>
    obtain ⟨hpiece, hunits⟩ := not_or.1 (mt List.mem_cons.2 h)
    cases piece with
    | plain c =>
      have hc : c ≠ '\\' := by simpa [eq_comm] using hpiece
      rw [textOf, List.cons_append, pieces_cons hc, ih hunits, Option.map_none]
    | pair c => rw [textOf, List.cons_append, List.cons_append, pieces, ih hunits, Option.map_none]

/-- A `/` at the end of a text stands by itself, or a backslash in front of it is left alone when it
is taken off. -/
theorem pieces_of_marked {stem : Text} {units : List Piece}
    (h : pieces (stem ++ ['/']) = some units) :
    (∃ more, units = more ++ [.plain '/'] ∧ pieces stem = some more) ∨
      (∃ more, units = more ++ [.pair '/'] ∧ pieces stem = none) := by
  obtain ⟨htext, hpaired⟩ := pieces_eq_some_iff.1 h
  rcases List.eq_nil_or_concat' units with rfl | ⟨more, last, rfl⟩
  · cases stem <;> cases htext
  · have hmore : .plain '\\' ∉ more := fun hmem => hpaired (List.mem_append_left _ hmem)
    rw [textOf_append] at htext
    cases last with
    | plain c =>
      obtain ⟨rfl, hc⟩ := List.append_inj' htext rfl
      cases hc
      exact Or.inl ⟨more, rfl, pieces_eq_some_iff.2 ⟨rfl, hmore⟩⟩
    | pair c =>
      have hsplit : textOf more ++ ['\\'] ++ [c] = stem ++ ['/'] := by
        rw [← htext, List.append_assoc]
        rfl
      obtain ⟨rfl, hc⟩ := List.append_inj' hsplit rfl
      cases hc
      exact Or.inr ⟨more, rfl, pieces_dangling hmore⟩

theorem components_concat_slash (units : List Piece) :
    components (units ++ [.plain '/']) = components units ++ [[]] := by
  induction units with
  | nil => rfl
  | cons piece units ih =>
    by_cases hpiece : piece = .plain '/'
    · rw [hpiece, List.cons_append, components_slash, components_slash, ih, List.cons_append]
    · obtain ⟨first, more, hcomponents, hcons⟩ := components_cons hpiece units
      rw [List.cons_append, components, if_neg hpiece, ih, hcons, hcomponents]
      rfl

/-- A separator at the end is left out of the components, so they are checked with or without it. -/
theorem body_concat_slash (units : List Piece) :
    body (units ++ [.plain '/']) = dropLeadingSlash (components units) := by
  have hlead : dropLeadingSlash (components units ++ [[]]) =
      dropLeadingSlash (components units) ++ [[]] := by
    obtain ⟨first, more, hcomponents⟩ := List.exists_cons_of_ne_nil (components_ne_nil units)
    rw [hcomponents]
    cases first <;> rfl
  rw [body, components_concat_slash, hlead, dropTrailingSlash, if_pos List.getLast?_concat,
    List.dropLast_concat]

/-- Without the separator at its end, a pattern is empty or follows the grammar as before. -/
theorem isGrammatical_of_marked {stem : Text} {units : List Piece}
    (hstem : pieces stem = some units)
    (h : isGrammatical (stem ++ ['/']) = true) : stem = [] ∨ isGrammatical stem = true := by
  obtain ⟨htext, hpaired⟩ := pieces_eq_some_iff.1 hstem
  have hunits : pieces (stem ++ ['/']) = some (units ++ [.plain '/']) := by
    refine pieces_eq_some_iff.2 ⟨?_, ?_⟩
    · rw [textOf_append, htext]
      rfl
    · simpa using hpaired
  unfold isGrammatical at h ⊢
  rw [hunits] at h
  rw [hstem]
  simp only [body_concat_slash, Bool.or_eq_true, beq_iff_eq] at h
  rcases h with hbare | hbody
  · obtain rfl : units = [] := by simpa using hbare
    exact Or.inl htext.symm
  · have hnone : [] ∉ dropLeadingSlash (components units) := by
      intro hmem
      exact absurd (List.all_eq_true.1 (Bool.and_eq_true_iff.1 hbody).2 [] hmem) (by decide)
    have hsame : body units = dropLeadingSlash (components units) :=
      if_neg fun hlast => hnone (List.mem_of_getLast? hlast)
    refine Or.inr ?_
    dsimp only
    rw [hsame, hbody, Bool.or_true]

end Pattern

namespace Rule

open Pattern (pieces checkText)

/-- The pattern that the rule holds is that of the root, or one that passes the check. -/
def HoldsChecked (rule : Rule) : Prop :=
  rule.pattern = [] ∧ rule.forDirectories = true ∨ ∃ text, checkText rule.pattern = .ok text

/-- What a pattern becomes without its mark: its units without a separator at the end, or text that
cannot be read, because the mark was behind a backslash. -/
theorem holdsChecked_of_ofFields {registry : Registry} {lineNumber : Nat} {raw roleName : Text}
    {rule : Rule} (hblank : ∀ c ∈ raw, Text.isBlank c = false)
    (h : ofFields registry lineNumber raw roleName = .ok rule) :
    ∃ units, pieces raw = some units ∧
      ((∃ stem, pieces rule.pattern = some stem ∧
          units = stem ++ if rule.forDirectories then [.plain '/'] else []) ∧
        units.getLast? ≠ some (.pair '/') ∧ rule.HoldsChecked ∨
      (rule.forDirectories = true ∧ raw = rule.pattern ++ ['/'] ∧ pieces rule.pattern = none) ∧
        units.getLast? = some (.pair '/') ∧ ¬ rule.HoldsChecked) := by
  obtain ⟨hcheck, hpattern, hmark, -⟩ := ofFields_ok h
  obtain ⟨hne, hnull, hgrammar⟩ := (Pattern.checkText_ok_iff hblank).1 (Pattern.checkText_eq hcheck)
  obtain ⟨units, hunits⟩ := Pattern.exists_pieces_of_isGrammatical hgrammar
  have hraw := append_splitMark raw
  rw [← hpattern, ← hmark] at hraw
  refine ⟨units, hunits, ?_⟩
  cases hdirectories : rule.forDirectories with
  | false =>
    rw [hdirectories, if_neg Bool.false_ne_true, List.append_nil] at hraw
    rw [← hraw]
    refine Or.inl ⟨⟨units, hunits, by simp⟩, ?_, Or.inr (hraw ▸ hcheck)⟩
    intro hlast
    obtain ⟨more, rfl⟩ := List.getLast?_eq_some_iff.1 hlast
    have hslash : raw = Pattern.textOf more ++ ['\\'] ++ ['/'] := by
      rw [← Pattern.textOf_pieces hunits, Pattern.textOf_append, List.append_assoc]
      rfl
    rw [hmark, hslash, splitMark, Text.dropEnd?_append] at hdirectories
    cases hdirectories
  | true =>
    rw [hdirectories, if_pos rfl] at hraw
    have hsub : ∀ c ∈ rule.pattern, c ∈ raw := by
      intro c hc
      rw [hraw]
      exact List.mem_append_left _ hc
    have hok := @Pattern.checkText_ok_iff rule.pattern fun c hc => hblank c (hsub c hc)
    rw [hraw] at hunits hgrammar
    rcases Pattern.pieces_of_marked hunits with ⟨more, rfl, hstem⟩ | ⟨more, rfl, hstem⟩
    · refine Or.inl ⟨⟨more, hstem, rfl⟩, by simp, ?_⟩
      by_cases hnil : rule.pattern = []
      · exact Or.inl ⟨hnil, hdirectories⟩
      · have hgrammar' := (Pattern.isGrammatical_of_marked hstem hgrammar).resolve_left hnil
        exact Or.inr ⟨_, hok.2 ⟨hnil, fun hmem => hnull (hsub _ hmem), hgrammar'⟩⟩
    · refine Or.inr ⟨⟨rfl, hraw, hstem⟩, by simp, ?_⟩
      rintro (⟨hnil, -⟩ | hchecked)
      · rw [hnil] at hstem
        cases hstem
      · obtain ⟨-, -, hgrammar'⟩ := hok.1 (Pattern.checkText_eq hchecked)
        obtain ⟨more', hmore'⟩ := Pattern.exists_pieces_of_isGrammatical hgrammar'
        cases hstem.symm.trans hmore'

/-- The pattern of a rule passes the check, or is that of the root, unless the pattern of its line
ends with a `/` behind a backslash. Then this `/` was taken for the mark, and nothing pairs with the
backslash that is left. Otherwise the rule holds the units of the line without the separator that
marks them. -/
theorem stored_pattern_checked_iff {registry : Registry} {source : Text} {lines : List Text}
    {rule : Rule} (h : rule ∈ (readLines registry source lines).rules) :
    ∃ index text line raw more units, rule.lineNumber = 1 + index ∧ lines[index]? = some text ∧
      significant? text = some line ∧ Text.fields line = raw :: more ∧ pieces raw = some units ∧
      (rule.HoldsChecked ↔ units.getLast? ≠ some (.pair '/')) ∧
      (rule.HoldsChecked → ∃ stem, pieces rule.pattern = some stem ∧
        units = stem ++ if rule.forDirectories then [.plain '/'] else []) ∧
      (¬ rule.HoldsChecked → rule.forDirectories = true ∧ raw = rule.pattern ++ ['/'] ∧
        pieces rule.pattern = none) := by
  obtain ⟨index, text, line, hnumber, htext, hline, hread⟩ := line_of_mem_rules h
  obtain ⟨c, raw, ⟨more, hfields⟩, -, hrule⟩ := fields_of_readLine hread
  have hblank : ∀ d ∈ c :: raw, Text.isBlank d = false :=
    Text.isBlank_of_mem_fields (hfields ▸ List.mem_cons_self)
  obtain ⟨units, hunits, ⟨hstem, hlast, hholds⟩ | ⟨hcut, hlast, hholds⟩⟩ :=
    holdsChecked_of_ofFields hblank hrule
  · exact ⟨index, text, line, c :: raw, more, units, hnumber, htext, hline, hfields, hunits,
      iff_of_true hholds hlast, fun _ => hstem, fun hnot => absurd hholds hnot⟩
  · exact ⟨index, text, line, c :: raw, more, units, hnumber, htext, hline, hfields, hunits,
      iff_of_false hholds (not_not.2 hlast), fun hyes => absurd hyes hholds, fun _ => hcut⟩

/-- A `/` behind a backslash inside a pattern, and one by itself that marks it. -/
theorem stored_pattern_checked_iff_marked :
    ∃ rule ∈ (readLines ⟨[]⟩ "rules" ["a\\/b/ -".toList]).rules, rule.HoldsChecked ∧
      ∃ units stem, units.getLast? ≠ some (.pair '/') ∧ pieces rule.pattern = some stem ∧
        units = stem ++ [.plain '/'] := by
  have hread : ∃ rule, rule ∈ (readLines ⟨[]⟩ "rules" ["a\\/b/ -".toList]).rules ∧
      rule.forDirectories = true ∧ rule.pattern = "a\\/b" :=
    ⟨_, by with_unfolding_all exact List.mem_cons_self, rfl, rfl⟩
  obtain ⟨rule, hmem, hdirectories, hpattern⟩ := hread
  have hholds : rule.HoldsChecked := by
    rw [HoldsChecked, hpattern]
    exact Or.inr ⟨_, rfl⟩
  obtain ⟨-, -, -, -, -, units, -, -, -, -, -, hiff, hstem, -⟩ := stored_pattern_checked_iff hmem
  obtain ⟨stem, hpieces, hunits⟩ := hstem hholds
  rw [hdirectories] at hunits
  exact ⟨rule, hmem, hholds, units, stem, hiff.1 hholds, hpieces, hunits⟩

/-- A `/` that the check reads as the second half of a pair is cut off as the mark, and the check
refuses the rest. -/
theorem stored_pattern_cut :
    ∃ rule, (readLines ⟨[]⟩ "rules" ["a\\/ -".toList]).rules = [rule] ∧
      checkText "a\\/" = .ok "a\\/".toList ∧ pieces "a\\/" = some [.plain 'a', .pair '/'] ∧
      rule.pattern = "a\\" ∧ rule.forDirectories = true ∧ ¬ rule.HoldsChecked := by
  refine ⟨_, by with_unfolding_all rfl, rfl, rfl, rfl, rfl, ?_⟩
  rintro (⟨hnil, -⟩ | ⟨text, hchecked⟩)
  · cases hnil
  · cases hchecked

end Rule

end PathRights
