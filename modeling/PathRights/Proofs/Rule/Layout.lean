import PathRights.Proofs.Rule.Scan

/-! The layout of a source. Blanks at the end of a line, how many blanks stand in a row and which
they are, comments and empty lines decide nothing but the numbers of lines: sources that are the
same when they are tidied load alike. -/

namespace PathRights

namespace Text

/-- The text with one space in the place of each run of blanks: of the blanks of a run only the last
is kept. -/
def squeeze : Text → Text
  | [] => []
  | c :: rest =>
    if isBlank c then
      if rest.head?.any isBlank then squeeze rest else ' ' :: squeeze rest
    else c :: squeeze rest

example : squeeze "a \t b\u00a0-" = "a b -" := by decide

theorem fields_cons (c : Char) (rest : Text) : fields (c :: rest) =
    if isBlank c then
      if rest.head?.any isBlank then fields rest else [] :: fields rest
    else consHead c (fields rest) := by
  rw [fields]
  cases rest.head? <;> rfl

theorem head?_squeeze (text : Text) :
    (squeeze text).head?.any isBlank = text.head?.any isBlank := by
  induction text with
  | nil => rfl
  | cons c rest ih =>
    rw [squeeze, List.head?_cons, Option.any_some]
    by_cases hc : isBlank c = true
    · rw [if_pos hc, hc]
      by_cases hrest : rest.head?.any isBlank = true
      · rw [if_pos hrest, ih, hrest]
      · rw [if_neg hrest]
        rfl
    · rw [if_neg hc]
      rfl

/-- The fields of a line are separated by runs of blanks, whatever these are. -/
theorem fields_squeeze (text : Text) : fields (squeeze text) = fields text := by
  induction text with
  | nil => rfl
  | cons c rest ih =>
    rw [squeeze, fields_cons c rest]
    by_cases hc : isBlank c = true
    · rw [if_pos hc, if_pos hc]
      by_cases hrest : rest.head?.any isBlank = true
      · rw [if_pos hrest, if_pos hrest, ih]
      · rw [if_neg hrest, if_neg hrest, fields_cons, if_pos (by decide), head?_squeeze,
          if_neg hrest, ih]
    · rw [if_neg hc, if_neg hc, fields_cons, if_neg hc, ih]

end Text

namespace Rule

/-- The lines that count, without blanks at their ends and with one space between fields. -/
def tidied (lines : List Text) : List Text :=
  (lines.filter fun text => !isSkipped text).map fun text => Text.squeeze text.trimEnd

/-- The fault of a line that cannot be read. -/
def faultOf? (registry : Registry) (line : Text) : Option LineFault :=
  match readLine registry 0 line with
  | .ok _ => none
  | .error fault => some fault

theorem tidied_cons (text : Text) (lines : List Text) : tidied (text :: lines) =
    if isSkipped text then tidied lines else Text.squeeze text.trimEnd :: tidied lines := by
  unfold tidied
  rw [List.filter_cons]
  cases isSkipped text <;> rfl

theorem readLine_squeeze (registry : Registry) (lineNumber : Nat) (line : Text) :
    readLine registry lineNumber (Text.squeeze line) = readLine registry lineNumber line := by
  unfold readLine
  rw [Text.fields_squeeze]

/-- Up to numbers, what lines are read as depends on the tidied lines only. -/
theorem readFrom_tidied (registry : Registry) (source : Text) (first : Nat) (lines : List Text) :
    (readFrom registry source first lines).rules.map unnumbered =
        (tidied lines).filterMap (fun line => (readLine registry 0 line).toOption) ∧
      (readFrom registry source first lines).errors.map (·.fault) =
        (tidied lines).filterMap (faultOf? registry) := by
  induction lines generalizing first with
  | nil => exact ⟨rfl, rfl⟩
  | cons text lines ih =>
    obtain ⟨hrules, herrors⟩ := ih (first + 1)
    rw [readFrom, significant?_eq, tidied_cons]
    cases isSkipped text with
    | true => exact ⟨hrules, herrors⟩
    | false =>
      simp only [Bool.false_eq_true, if_false, List.filterMap_cons, readLine_squeeze, faultOf?]
      cases hread : readLine registry first text.trimEnd with
      | ok rule =>
        rw [readLine_renumber hread]
        exact ⟨congrArg (rule.unnumbered :: ·) hrules, herrors⟩
      | error fault =>
        rw [readLine_error_elsewhere hread]
        exact ⟨hrules, congrArg (fault :: ·) herrors⟩

end Rule

namespace RuleTable

open Rule (tidied unnumbered)

/-- Sources that are the same when they are tidied load alike. Either both make a table, and the
tables give every entry the same decision by the same rule, but for its number; or none does, and
what is wrong with the lines is the same. -/
theorem load_of_tidied_eq {lines lines' : List Text} (h : tidied lines = tidied lines')
    (registry : Registry) (source source' : Text) :
    (∃ table table', load registry source lines = .ok table ∧
      load registry source' lines' = .ok table' ∧
      ∀ entry, (table.decide entry).unnumbered = (table'.decide entry).unnumbered) ∨
    ∃ error error', load registry source lines = .error error ∧
      load registry source' lines' = .error error' ∧
      error.errors.length = error'.errors.length ∧
      error.errors.map (·.fault.message) = error'.errors.map (·.fault.message) := by
  obtain ⟨hrules, hfaults⟩ := Rule.readFrom_tidied registry source 1 lines
  obtain ⟨hrules', hfaults'⟩ := Rule.readFrom_tidied registry source' 1 lines'
  rw [h] at hrules hfaults
  have hsame := hfaults.trans hfaults'.symm
  have hlength := congrArg List.length hsame
  rw [List.length_map, List.length_map] at hlength
  -- a table is loaded where there are no faults, and there are as many on both sides
  by_cases herrors : (Rule.readFrom registry source 1 lines).errors = []
  · have herrors' : (Rule.readFrom registry source' 1 lines').errors = [] := by
      rw [herrors] at hlength
      exact List.length_eq_zero_iff.1 hlength.symm
    left
    refine ⟨⟨_⟩, ⟨_⟩, load_eq_ok.2 ⟨herrors, rfl⟩, load_eq_ok.2 ⟨herrors', rfl⟩, fun entry => ?_⟩
    exact decide_unnumbered (hrules.trans hrules'.symm) entry
  · have herrors' : (Rule.readFrom registry source' 1 lines').errors ≠ [] := by
      intro hnil
      rw [hnil] at hlength
      exact herrors (List.length_eq_zero_iff.1 hlength)
    right
    have hmessages := congrArg (List.map LineFault.message) hsame
    rw [List.map_map, List.map_map] at hmessages
    exact ⟨⟨_⟩, ⟨_⟩, Rule.load_eq_error.2 ⟨herrors, rfl⟩, Rule.load_eq_error.2 ⟨herrors', rfl⟩,
      hlength, hmessages⟩

/-- The rules of `Rule.untidyLines` and the faults of `Rule.mixedLines`, laid out otherwise. -/
theorem load_of_tidied_eq_elsewhere :
    (∃ table table', load Rule.webRegistry "rules" Rule.untidyLines = .ok table ∧
      load Rule.webRegistry "again" ["*.txt web", "a\\/  ", "#", "/x[!#]/**/\u2003-"] = .ok table' ∧
      ∀ entry, (table.decide entry).unnumbered = (table'.decide entry).unnumbered) ∧
    ∃ error error',
      load Rule.webRegistry "rules" Rule.mixedLines = .error error ∧
      load Rule.webRegistry "again"
        ["", "*.txt \t web", "\t\u00a0a", "b\tshadow \n"] = .error error' ∧
      error.errors.length = error'.errors.length ∧
      error.errors.map (·.fault.message) = error'.errors.map (·.fault.message) := by
  constructor
  · have htidied : tidied Rule.untidyLines =
        tidied ["*.txt web", "a\\/  ", "#", "/x[!#]/**/\u2003-"] := by
      decide +kernel
    rcases load_of_tidied_eq htidied Rule.webRegistry "rules" "again" with h | ⟨error, _, herror, -⟩
    · exact h
    · have hok : (load Rule.webRegistry "rules" Rule.untidyLines).isOk = true := by
        with_unfolding_all rfl
      rw [herror] at hok
      cases hok
  · have htidied : tidied Rule.mixedLines =
        tidied ["", "*.txt \t web", "\t\u00a0a", "b\tshadow \n"] := by
      decide +kernel
    rcases load_of_tidied_eq htidied Rule.webRegistry "rules" "again" with ⟨table, _, htable, -⟩ | h
    · have hfails : (load Rule.webRegistry "rules" Rule.mixedLines).isOk = false := by
        with_unfolding_all rfl
      rw [htable] at hfails
      cases hfails
    · exact h

end RuleTable

end PathRights
