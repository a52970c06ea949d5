import Mathlib.Data.List.DropRight
import Mathlib.Data.List.Forall2
import PathRights.Proofs.Rule.Written

/-! Scanning the lines of a source. Every line that is not skipped adds one item, a rule or an
error, under its own number, and nothing else does. Where a line stands changes the number of its
item only, so that scans of two sources make up the scan of both. `scan_complete` also says when a
table is loaded and what it then holds. -/

namespace PathRights

namespace Text

theorem trimEnd_eq_nil_iff {text : Text} : text.trimEnd = [] ↔ text.all Text.isBlank = true := by
  rw [List.all_eq_true]
  exact List.rdropWhile_eq_nil_iff

theorem head?_trimEnd {text : Text} (h : text.trimEnd ≠ []) : text.trimEnd.head? = text.head? := by
  obtain ⟨c, front, hfront⟩ := List.exists_cons_of_ne_nil h
  obtain ⟨back, hback⟩ := List.rdropWhile_prefix Text.isBlank text
  change text.trimEnd ++ back = text at hback
  rw [hfront] at hback ⊢
  rw [← hback]
  rfl

end Text

namespace Rule

/-! ### Lines that are skipped -/

/-- There is nothing but blanks in the line, or it is a comment. -/
def isSkipped (text : Text) : Bool := text.all Text.isBlank || text.head? == some '#'

theorem significant?_eq (text : Text) :
    significant? text = if isSkipped text then none else some text.trimEnd := by
  unfold significant? isSkipped
  by_cases hblank : text.trimEnd = []
  · simp [hblank, Text.trimEnd_eq_nil_iff.1 hblank]
  · have hall : text.all Text.isBlank = false := by simpa using mt Text.trimEnd_eq_nil_iff.2 hblank
    simp only [List.isEmpty_iff, hblank, Text.head?_trimEnd hblank, hall, false_or, Bool.false_or,
      beq_iff_eq]

/-- The line counts and cannot be read. -/
def isFaulty (registry : Registry) (text : Text) : Bool :=
  !isSkipped text && !(readLine registry 0 text.trimEnd).isOk

/-! ### Numbers -/

section

variable {registry : Registry} {lineNumber : Nat} {line : Text}

theorem lineNumber_of_readLine {rule : Rule} (h : readLine registry lineNumber line = .ok rule) :
    rule.lineNumber = lineNumber := by
  obtain ⟨raw, hfields⟩ := ofFields_of_readLine h
  exact (role_of_ofFields hfields).1

theorem readLine_renumber {rule : Rule} (h : readLine registry lineNumber line = .ok rule)
    (number : Nat) : readLine registry number line = .ok { rule with lineNumber := number } := by
  unfold readLine at h ⊢
  split at h
  · cases h
  · exact ofFields_renumber h number
  · exact ofFields_renumber h number
  · cases h

theorem readLine_error_elsewhere {fault : LineFault}
    (h : readLine registry lineNumber line = .error fault) (number : Nat) :
    readLine registry number line = .error fault := by
  have hsame := readLine_unnumbered registry number lineNumber line
  rw [h] at hsame
  cases hread : readLine registry number line with
  | error fault' =>
    rw [hread] at hsame
    cases hsame
    rfl
  | ok rule =>
    rw [hread] at hsame
    cases hsame

end

/-- The rule, `count` lines further on. -/
def raise (count : Nat) (rule : Rule) : Rule := { rule with lineNumber := rule.lineNumber + count }

end Rule

/-- The error, `count` lines further on. -/
def LineError.raise (count : Nat) (error : LineError) : LineError :=
  { error with lineNumber := error.lineNumber + count }

namespace Rule

/-! ### Readings -/

namespace Reading

/-- The readings of two sources, one behind the other. -/
instance : Append Reading :=
  ⟨fun reading more => ⟨reading.rules ++ more.rules, reading.errors ++ more.errors⟩⟩

def raise (count : Nat) (reading : Reading) : Reading :=
  ⟨reading.rules.map (Rule.raise count), reading.errors.map (LineError.raise count)⟩

/-- What a reading has of the line with a number. -/
def ofLine (reading : Reading) (number : Nat) : Reading :=
  ⟨reading.rules.filter (·.lineNumber == number), reading.errors.filter (·.lineNumber == number)⟩

end Reading

theorem readFrom_raise (registry : Registry) (source : Text) (first count : Nat)
    (lines : List Text) :
    readFrom registry source (first + count) lines =
      (readFrom registry source first lines).raise count := by
  induction lines generalizing first with
  | nil => rfl
  | cons text lines ih =>
    rw [readFrom, readFrom, Nat.add_right_comm, ih]
    dsimp only
    cases significant? text with
    | none => rfl
    | some line =>
      dsimp only
      cases hread : readLine registry first line with
      | error fault =>
        rw [readLine_error_elsewhere hread]
        rfl
      | ok rule =>
        rw [readLine_renumber hread, ← lineNumber_of_readLine hread]
        rfl

/-! ### Items of numbered lines -/

section

variable {α β : Type} {make : α × Nat → Option β} {number : β → Nat} {l : List α} {first : Nat}
  (hnumber : ∀ {numbered : α × Nat} {b : β}, make numbered = some b → number b = numbered.2)

include hnumber

theorem number_of_mem_filterMap {b : β} (h : b ∈ (l.zipIdx first).filterMap make) :
    first ≤ number b ∧ number b < first + l.length := by
  obtain ⟨numbered, hmem, hmade⟩ := List.mem_filterMap.1 h
  rw [hnumber hmade]
  exact ⟨(List.mem_zipIdx hmem).1, (List.mem_zipIdx hmem).2.1⟩

theorem numbers_increase : ((l.zipIdx first).filterMap make).Pairwise (number · < number ·) := by
  have hpositions : (l.zipIdx first).Pairwise (·.2 < ·.2) := by
    apply List.pairwise_map.1
    rw [List.zipIdx_map_snd]
    exact List.pairwise_lt_range'
  refine hpositions.filterMap _ fun numbered numbered' hlt b hb b' hb' => ?_
  rwa [hnumber hb, hnumber hb']

theorem filter_number {index : Nat} {a : α} (h : l[index]? = some a) :
    ((l.zipIdx first).filterMap make).filter (number · == first + index) =
      (make (a, first + index)).toList := by
  induction l generalizing first index with
  | nil => cases h
  | cons a' l ih =>
    rw [List.zipIdx_cons, List.filterMap_cons]
    cases index with
    | zero =>
      obtain rfl : a' = a := by simpa using h
      -- what comes later has a higher number
      have hrest : ((l.zipIdx (first + 1)).filterMap make).filter (number · == first) = [] := by
        rw [List.filter_eq_nil_iff]
        intro b hb
        have := number_of_mem_filterMap hnumber hb
        simp only [beq_iff_eq]
        omega
      rw [Nat.add_zero]
      cases hmade : make (a', first) with
      | none => exact hrest
      | some b =>
        rw [List.filter_cons_of_pos (by simpa using hnumber hmade), hrest]
        rfl
    | succ index =>
      have hmore := @ih (first + 1) index (by simpa using h)
      rw [show first + 1 + index = first + (index + 1) by omega] at hmore
      cases hmade : make (a', first) with
      | none => exact hmore
      | some b =>
        have hb : number b = first := hnumber hmade
        dsimp only
        rw [List.filter_cons_of_neg (by simp [hb]), hmore]

end

/-! ### One line among others -/

/-- The numbered line is read as the rule. -/
def MakesRule (registry : Registry) (numbered : Text × Nat) (rule : Rule) : Prop :=
  readLine registry numbered.2 numbered.1.trimEnd = .ok rule

/-- The numbered line cannot be read, which the error says. -/
def MakesError (registry : Registry) (source : Text) (numbered : Text × Nat) (error : LineError) :
    Prop :=
  ∃ fault, readLine registry numbered.2 numbered.1.trimEnd = .error fault ∧
    error = ⟨source, numbered.2, numbered.1.trimEnd, fault⟩

/-- A line is skipped, or it makes a rule, or it makes an error. -/
theorem made_cases (registry : Registry) (source : Text) (numbered : Text × Nat) :
    (isSkipped numbered.1 = true ∧ ruleOf? registry numbered = none ∧
      errorOf? registry source numbered = none) ∨
    (isSkipped numbered.1 = false ∧ ∃ rule, MakesRule registry numbered rule ∧
      ruleOf? registry numbered = some rule ∧ errorOf? registry source numbered = none) ∨
    (isSkipped numbered.1 = false ∧ ∃ error, MakesError registry source numbered error ∧
      ruleOf? registry numbered = none ∧ errorOf? registry source numbered = some error) := by
  obtain ⟨text, number⟩ := numbered
  unfold ruleOf? errorOf? MakesRule MakesError
  dsimp only
  rw [significant?_eq]
  cases isSkipped text with
  | true => exact Or.inl ⟨rfl, rfl, rfl⟩
  | false =>
    rw [if_neg Bool.false_ne_true, Option.bind_some, Option.bind_some]
    cases readLine registry number text.trimEnd with
    | ok rule => exact Or.inr (Or.inl ⟨rfl, rule, rfl, rfl, rfl⟩)
    | error fault => exact Or.inr (Or.inr ⟨rfl, _, ⟨fault, rfl, rfl⟩, rfl, rfl⟩)

section

variable {registry : Registry} {source : Text}

theorem makesRule_of_ruleOf? {numbered : Text × Nat} {rule : Rule}
    (h : ruleOf? registry numbered = some rule) : MakesRule registry numbered rule := by
  rcases made_cases registry [] numbered with
    ⟨-, hrule, -⟩ | ⟨-, rule', hmade, hrule, -⟩ | ⟨-, error, -, hrule, -⟩
  · cases hrule.symm.trans h
  · cases hrule.symm.trans h
    exact hmade
  · cases hrule.symm.trans h

theorem makesError_of_errorOf? {numbered : Text × Nat} {error : LineError}
    (h : errorOf? registry source numbered = some error) :
    MakesError registry source numbered error := by
  rcases made_cases registry source numbered with
    ⟨-, -, herror⟩ | ⟨-, rule, -, -, herror⟩ | ⟨-, error', hmade, -, herror⟩
  · cases herror.symm.trans h
  · cases herror.symm.trans h
  · cases herror.symm.trans h
    exact hmade

theorem lineNumber_of_ruleOf? {numbered : Text × Nat} {rule : Rule}
    (h : ruleOf? registry numbered = some rule) : rule.lineNumber = numbered.2 :=
  lineNumber_of_readLine (makesRule_of_ruleOf? h)

theorem lineNumber_of_errorOf? {numbered : Text × Nat} {error : LineError}
    (h : errorOf? registry source numbered = some error) : error.lineNumber = numbered.2 := by
  obtain ⟨fault, -, rfl⟩ := makesError_of_errorOf? h
  rfl

end

/-! ### Whole sources -/

/-- A reading of lines that has neither lost nor repeated any of them: a line that is skipped has no
item, every other has one, a rule or an error, and the items stand in the order of their numbers. -/
structure Scans (registry : Registry) (source : Text) (lines : List Text) (reading : Reading) :
    Prop where
  skipped : ∀ {index : Nat} {text : Text}, lines[index]? = some text → isSkipped text = true →
    reading.ofLine (index + 1) = ⟨[], []⟩
  counted : ∀ {index : Nat} {text : Text}, lines[index]? = some text → isSkipped text = false →
    (∃ rule, MakesRule registry (text, index + 1) rule ∧
      reading.ofLine (index + 1) = ⟨[rule], []⟩) ∨
    ∃ error, MakesError registry source (text, index + 1) error ∧
      reading.ofLine (index + 1) = ⟨[], [error]⟩
  ruleNumbers : ∀ rule ∈ reading.rules, 1 ≤ rule.lineNumber ∧ rule.lineNumber ≤ lines.length
  errorNumbers : ∀ error ∈ reading.errors, 1 ≤ error.lineNumber ∧ error.lineNumber ≤ lines.length
  rulesIncrease : reading.rules.Pairwise (·.lineNumber < ·.lineNumber)
  errorsIncrease : reading.errors.Pairwise (·.lineNumber < ·.lineNumber)

section

variable (registry : Registry) (source : Text) (lines : List Text)

theorem readLines_scans : Scans registry source lines (readLines registry source lines) := by
  have hrules := @lineNumber_of_ruleOf? registry
  have herrors := @lineNumber_of_errorOf? registry source
  unfold readLines
  rw [readFrom_eq]
  have hline {index : Nat} {text : Text} (h : lines[index]? = some text) :
      Reading.ofLine ⟨(lines.zipIdx 1).filterMap (ruleOf? registry),
          (lines.zipIdx 1).filterMap (errorOf? registry source)⟩ (index + 1) =
        ⟨(ruleOf? registry (text, index + 1)).toList,
          (errorOf? registry source (text, index + 1)).toList⟩ := by
    unfold Reading.ofLine
    rw [Nat.add_comm index, ← filter_number hrules h, ← filter_number herrors h]
  refine ⟨fun {index text} htext hskipped => ?_, fun {index text} htext hcounts => ?_,
    fun rule hmem => ?_, fun error hmem => ?_, numbers_increase hrules, numbers_increase herrors⟩
  · rw [hline htext]
    rcases made_cases registry source (text, index + 1) with
      ⟨-, hrule, herror⟩ | ⟨hcounts, -⟩ | ⟨hcounts, -⟩
    · rw [hrule, herror]
      rfl
    · cases hskipped.symm.trans hcounts
    · cases hskipped.symm.trans hcounts
  · rw [hline htext]
    rcases made_cases registry source (text, index + 1) with
      ⟨hskipped, -⟩ | ⟨-, rule, hmade, hrule, herror⟩ | ⟨-, error, hmade, hrule, herror⟩
    · cases hskipped.symm.trans hcounts
    · rw [hrule, herror]
      exact Or.inl ⟨rule, hmade, rfl⟩
    · rw [hrule, herror]
      exact Or.inr ⟨error, hmade, rfl⟩
  · have := number_of_mem_filterMap hrules hmem
    omega
  · have := number_of_mem_filterMap herrors hmem
    omega

end

/-! ### Tables -/

theorem forall₂_filterMap {α β : Type} (f : α → Option β) (l : List α) :
    List.Forall₂ (fun a b => f a = some b) (l.filter fun a => (f a).isSome) (l.filterMap f) := by
  induction l with
  | nil => exact .nil
  | cons a l ih =>
    cases hf : f a with
    | none =>
      rw [List.filterMap_cons_none hf, List.filter_cons_of_neg (by simp [hf])]
      exact ih
    | some b =>
      rw [List.filterMap_cons_some hf, List.filter_cons_of_pos (by simp [hf])]
      exact .cons hf ih

theorem isSome_errorOf? (registry : Registry) (source : Text) (numbered : Text × Nat) :
    (errorOf? registry source numbered).isSome = isFaulty registry numbered.1 := by
  unfold isFaulty
  rcases made_cases registry source numbered with
    ⟨hskipped, -, herror⟩ | ⟨hcounts, rule, hmade, -, herror⟩ |
      ⟨hcounts, error, ⟨fault, hread, -⟩, -, herror⟩
  · rw [herror, hskipped]
    rfl
  · rw [herror, hcounts, readLine_renumber hmade]
    rfl
  · rw [herror, hcounts, readLine_error_elsewhere hread]
    rfl

theorem isSome_ruleOf? {registry : Registry} {numbered : Text × Nat}
    (h : isFaulty registry numbered.1 = false) :
    (ruleOf? registry numbered).isSome = !isSkipped numbered.1 := by
  have hsome := isSome_errorOf? registry [] numbered
  rcases made_cases registry [] numbered with
    ⟨hskipped, hrule, -⟩ | ⟨hcounts, rule, -, hrule, -⟩ | ⟨-, error, -, -, herror⟩
  · rw [hrule, hskipped]
    rfl
  · rw [hrule, hcounts]
    rfl
  · rw [herror, h] at hsome
    cases hsome

theorem errors_eq_nil_iff {registry : Registry} {source : Text} {first : Nat} {lines : List Text} :
    (readFrom registry source first lines).errors = [] ↔
      ∀ text ∈ lines, isFaulty registry text = false := by
  rw [readFrom_eq]
  dsimp only
  rw [List.filterMap_eq_nil_iff]
  have hnone (numbered : Text × Nat) : errorOf? registry source numbered = none ↔
      isFaulty registry numbered.1 = false := by
    rw [← isSome_errorOf? registry source numbered, Option.isSome_eq_false_iff,
      Option.isNone_iff_eq_none]
  constructor
  · intro h text htext
    obtain ⟨index, hindex⟩ := List.mem_iff_getElem?.1 htext
    have hmem : (text, first + index) ∈ lines.zipIdx first :=
      List.mk_mem_zipIdx_iff_le_and_getElem?_sub.2 ⟨Nat.le_add_right _ _, by simpa using hindex⟩
    exact (hnone _).1 (h _ hmem)
  · intro h numbered hmem
    exact (hnone _).2 (h _ (List.fst_mem_of_mem_zipIdx hmem))

theorem load_eq_error {registry : Registry} {source : Text} {lines : List Text}
    {error : RuleTableError} : RuleTable.load registry source lines = .error error ↔
      (readFrom registry source 1 lines).errors ≠ [] ∧
        error.errors = (readFrom registry source 1 lines).errors := by
  cases error with
  | mk errors =>
    unfold RuleTable.load readLines
    dsimp only
    split
    · next h => simp [List.isEmpty_iff.1 h]
    · next h =>
      rw [Except.error.injEq, RuleTableError.mk.injEq, eq_comm]
      exact (and_iff_right (mt List.isEmpty_iff.2 h)).symm

section

variable {registry : Registry} {source : Text} {lines : List Text}

theorem load_fails_iff : (∃ error, RuleTable.load registry source lines = .error error) ↔
    ∃ text ∈ lines, isFaulty registry text = true := by
  have herrors := @errors_eq_nil_iff registry source 1 lines
  constructor
  · rintro ⟨error, herror⟩
    have hne := mt herrors.2 (load_eq_error.1 herror).1
    simpa using hne
  · rintro ⟨text, htext, hfaulty⟩
    have hne : (readFrom registry source 1 lines).errors ≠ [] := by
      intro hnil
      cases hfaulty.symm.trans (herrors.1 hnil text htext)
    exact ⟨⟨_⟩, load_eq_error.2 ⟨hne, rfl⟩⟩

theorem forall₂_errors {error : RuleTableError}
    (h : RuleTable.load registry source lines = .error error) :
    List.Forall₂ (MakesError registry source)
      ((lines.zipIdx 1).filter fun numbered => isFaulty registry numbered.1) error.errors := by
  have hall := forall₂_filterMap (errorOf? registry source) (lines.zipIdx 1)
  simp only [isSome_errorOf?] at hall
  rw [(load_eq_error.1 h).2, readFrom_eq]
  exact hall.imp fun numbered error => makesError_of_errorOf?

theorem forall₂_rules {table : RuleTable} (h : RuleTable.load registry source lines = .ok table) :
    List.Forall₂ (MakesRule registry)
      ((lines.zipIdx 1).filter fun numbered => !isSkipped numbered.1) table.rules := by
  obtain ⟨herrors, hrules⟩ := RuleTable.load_eq_ok.1 h
  have hsound := errors_eq_nil_iff.1 herrors
  have hall := forall₂_filterMap (ruleOf? registry) (lines.zipIdx 1)
  have hfilter : ((lines.zipIdx 1).filter fun numbered => (ruleOf? registry numbered).isSome) =
      (lines.zipIdx 1).filter fun numbered => !isSkipped numbered.1 :=
    List.filter_congr fun numbered hmem =>
      isSome_ruleOf? (hsound _ (List.fst_mem_of_mem_zipIdx hmem))
  rw [hfilter] at hall
  rw [hrules, readFrom_eq]
  exact hall.imp fun numbered rule => makesRule_of_ruleOf?

end

/-- The lines of a source are read completely, each for itself, and all of them or none make a
table. Two sources, one behind the other, are read as both, and each line that counts has one item
of its own. There is no table just if a line is faulty, and then there is an error of each faulty
line, in order; otherwise the table has a rule of each line that counts, in order. -/
theorem scan_complete (registry : Registry) (source : Text) :
    (∀ lines more : List Text, readLines registry source (lines ++ more) =
      readLines registry source lines ++ (readLines registry source more).raise lines.length) ∧
    (∀ lines : List Text, Scans registry source lines (readLines registry source lines)) ∧
    (∀ lines : List Text, (∃ error, RuleTable.load registry source lines = .error error) ↔
      ∃ text ∈ lines, isFaulty registry text = true) ∧
    (∀ (lines : List Text) (error : RuleTableError),
      RuleTable.load registry source lines = .error error →
      List.Forall₂ (MakesError registry source)
        ((lines.zipIdx 1).filter fun numbered => isFaulty registry numbered.1) error.errors) ∧
    ∀ (lines : List Text) (table : RuleTable), RuleTable.load registry source lines = .ok table →
      List.Forall₂ (MakesRule registry)
        ((lines.zipIdx 1).filter fun numbered => !isSkipped numbered.1) table.rules := by
  refine ⟨fun lines more => ?_, readLines_scans registry source, fun lines => load_fails_iff,
    fun lines error => forall₂_errors, fun lines table => forall₂_rules⟩
  have hmore := readFrom_raise registry source 1 lines.length more
  show readFrom registry source 1 (lines ++ more) = readFrom registry source 1 lines ++
    (readFrom registry source 1 more).raise lines.length
  rw [readFrom_append, ← hmore]
  rfl

/-- A rule, a line without a pattern, a comment and a role that does not exist. -/
def mixedLines : List Text := ["*.txt web\n", " a\n", "# a\n", "b shadow\n"]

theorem scan_complete_mixedLines :
    (∃ error, RuleTable.load webRegistry "rules" mixedLines = .error error ∧
      (∃ text ∈ mixedLines, isFaulty webRegistry text = true) ∧
      List.Forall₂ (MakesError webRegistry "rules")
        [(" a\n".toList, 2), ("b shadow\n".toList, 4)] error.errors) ∧
    (readLines webRegistry "rules" mixedLines).ofLine 3 = ⟨[], []⟩ ∧
    (∃ rule, MakesRule webRegistry ("*.txt web\n".toList, 1) rule ∧
      (readLines webRegistry "rules" mixedLines).ofLine 1 = ⟨[rule], []⟩) ∧
    ∃ table, RuleTable.load webRegistry "rules" untidyLines = .ok table ∧
      List.Forall₂ (MakesRule webRegistry)
        [("*.txt \t web  \n".toList, 3), ("a\\/\n".toList, 4), ("/x[!#]/**/ -".toList, 5)]
        table.rules := by
  obtain ⟨-, hscans, hfails, herrors, hrules⟩ := scan_complete webRegistry "rules"
  obtain ⟨error, herror⟩ : ∃ error, RuleTable.load webRegistry "rules" mixedLines = .error error :=
    ⟨_, by with_unfolding_all rfl⟩
  obtain ⟨table, htable⟩ : ∃ table, RuleTable.load webRegistry "rules" untidyLines = .ok table :=
    ⟨_, by with_unfolding_all rfl⟩
  refine ⟨⟨error, herror, (hfails mixedLines).1 ⟨error, herror⟩, ?_⟩, ?_, ?_, table, htable, ?_⟩
  · have hfaulty : ((mixedLines.zipIdx 1).filter fun numbered => isFaulty webRegistry numbered.1) =
        [(" a\n".toList, 2), ("b shadow\n".toList, 4)] := by
      with_unfolding_all rfl
    exact hfaulty ▸ herrors mixedLines error herror
  · have hcomment : mixedLines[2]? = some "# a\n".toList := rfl
    exact (hscans mixedLines).skipped hcomment (by decide)
  · have hline : mixedLines[0]? = some "*.txt web\n".toList := rfl
    rcases (hscans mixedLines).counted hline (by decide) with h | ⟨error', ⟨fault, hread, -⟩, -⟩
    · exact h
    · have hok : (readLine webRegistry 1 "*.txt web").isOk = true := by with_unfolding_all rfl
      rw [show readLine webRegistry 1 "*.txt web" = .error fault from hread] at hok
      cases hok
  · have hcount : ((untidyLines.zipIdx 1).filter fun numbered => !isSkipped numbered.1) =
        [("*.txt \t web  \n".toList, 3), ("a\\/\n".toList, 4), ("/x[!#]/**/ -".toList, 5)] := by
      with_unfolding_all rfl
    exact hcount ▸ hrules untidyLines table htable

end Rule

end PathRights
