import PathRights.Proofs.Rule.Table
import PathRights.Text.Lines

/-! The ends of lines. A file is read with every form of the end of a line, the standard input with
the line feed alone, so that there a return is part of its line. At the end of a line it is a blank
like others: as long as no return stands within a line, the rules are the same. -/

namespace PathRights

namespace Text

/-- Each return is followed by a line feed, or is the last character. -/
def ReturnsEndLines (text : Text) : Prop :=
  ∀ rest, '\r' :: rest <:+ text → rest = [] ∨ rest.head? = some '\n'

theorem ReturnsEndLines.of_suffix {text part : Text} (h : text.ReturnsEndLines)
    (hpart : part <:+ text) : part.ReturnsEndLines :=
  fun rest hrest => h rest (hrest.trans hpart)

theorem returnsEndLines_of_not_mem {text : Text} (h : '\r' ∉ text) : text.ReturnsEndLines :=
  fun _ hrest => absurd (hrest.mem List.mem_cons_self) h

theorem trimEnd_cons (c : Char) (text : Text) : trimEnd (c :: text) =
    if trimEnd text = [] ∧ isBlank c then [] else c :: trimEnd text := by
  unfold trimEnd
  rw [List.reverse_cons, List.dropWhile_append]
  by_cases htext : text.reverse.dropWhile isBlank = []
  · cases hc : isBlank c <;> simp [htext, hc]
  · simp [htext]

theorem map_trimEnd_consHead (c : Char) {pieces pieces' : List Text}
    (h : pieces.map trimEnd = pieces'.map trimEnd) :
    (consHead c pieces).map trimEnd = (consHead c pieces').map trimEnd := by
  cases pieces with
  | nil =>
    obtain rfl := List.map_eq_nil_iff.1 h.symm
    rfl
  | cons piece pieces =>
    cases pieces' with
    | nil => cases h
    | cons piece' pieces' =>
      obtain ⟨hpiece, hpieces⟩ := List.cons.inj h
      simp only [consHead, List.map_cons, trimEnd_cons, hpiece, hpieces]

theorem map_trimEnd_lines_normalizeNewlines {text : Text} (h : text.ReturnsEndLines) :
    text.normalizeNewlines.lines.map trimEnd = text.lines.map trimEnd := by
  fun_induction normalizeNewlines text with
  | case1 => rfl
  | case2 rest ih =>
    have hrest := ih (h.of_suffix ⟨['\r', '\n'], rfl⟩)
    have htrim : trimEnd ['\n'] = trimEnd ['\r', '\n'] := by decide
    show trimEnd ['\n'] :: _ = trimEnd ['\r', '\n'] :: _
    rw [hrest, htrim]
  | case3 c rest hpair ih =>
    have hrest := ih (h.of_suffix (List.suffix_cons c rest))
    by_cases hc : c = '\r'
    · subst hc
      rcases h rest List.suffix_rfl with rfl | hnext
      · decide
      · obtain ⟨after, rfl⟩ := List.head?_eq_some_iff.1 hnext
        exact absurd rfl (hpair after rfl)
    · rw [if_neg hc, lines, lines]
      split
      · rw [List.map_cons, List.map_cons, hrest]
      · exact map_trimEnd_consHead c hrest

end Text

namespace Rule

/-- Blanks at the ends of lines are not read. -/
theorem readFrom_congr (registry : Registry) (source : Text) (first : Nat)
    {lines lines' : List Text}
    (h : lines.map Text.trimEnd = lines'.map Text.trimEnd) :
    readFrom registry source first lines = readFrom registry source first lines' := by
  induction lines generalizing first lines' with
  | nil =>
    obtain rfl := List.map_eq_nil_iff.1 h.symm
    rfl
  | cons line lines ih =>
    cases lines' with
    | nil => cases h
    | cons line' lines' =>
      obtain ⟨hline, hlines⟩ := List.cons.inj h
      have hcounts : significant? line = significant? line' := by
        unfold significant?
        rw [hline]
      rw [readFrom, readFrom, hcounts, ih (first + 1) hlines]

end Rule

namespace RuleTable

variable {text : Text} (h : text.ReturnsEndLines) (registry : Registry) (source : Text)

include h

theorem load_normalizeNewlines :
    load registry source text.normalizeNewlines.lines = load registry source text.lines := by
  unfold load Rule.readLines
  rw [Rule.readFrom_congr registry source 1 (Text.map_trimEnd_lines_normalizeNewlines h)]

/-- Rules are the same with every form of the end of a line and with the line feed alone, as long as
no return stands within a line. -/
theorem loadWithModes_normalizeNewlines :
    loadWithModes registry source text.normalizeNewlines.lines =
      loadWithModes registry source text.lines := by
  have hload := load_normalizeNewlines h registry source
  cases hlines : loadWithModes registry source text.lines with
  | ok table => exact loadWithModes_eq_ok_iff.2 (hload.trans (loadWithModes_eq_ok_iff.1 hlines))
  | error error =>
    exact loadWithModes_eq_error_iff.2 (hload.trans (loadWithModes_eq_error_iff.1 hlines))

end RuleTable

end PathRights
