import PathRights.Proofs.Pattern.Literal
import PathRights.Proofs.Rule.Written

/-! The line of one path. With a backslash in front of each of its characters but `/`, a path is a
pattern in which no character means anything but itself. Behind a `/` it selects the entry with this
path and no other, whatever its names are made of. -/

namespace PathRights

namespace Pattern

/-- The text with a backslash in front of every character but `/`. -/
def escaped (text : Text) : Text := text.flatMap fun c => if c = '/' then ['/'] else ['\\', c]

@[simp] theorem escaped_nil : escaped [] = [] := rfl

@[simp] theorem escaped_slash (text : Text) : escaped ('/' :: text) = '/' :: escaped text := rfl

theorem escaped_cons {c : Char} (h : c ≠ '/') (text : Text) :
    escaped (c :: text) = '\\' :: c :: escaped text := by
  unfold escaped
  rw [List.flatMap_cons, if_neg h]
  rfl

theorem escaped_append (front back : Text) :
    escaped (front ++ back) = escaped front ++ escaped back :=
  List.flatMap_append

theorem escaped_eq_nil {text : Text} : escaped text = [] ↔ text = [] := by
  unfold escaped
  rw [List.flatMap_eq_nil_iff]
  constructor
  · intro h
    refine List.eq_nil_iff_forall_not_mem.2 fun c hc => ?_
    have hnil := h c hc
    split at hnil <;> cases hnil
  · rintro rfl c hc
    cases hc

theorem mem_escaped {c : Char} {text : Text} (h : c ∈ escaped text) : c = '\\' ∨ c ∈ text := by
  obtain ⟨d, hd, hc⟩ := List.mem_flatMap.1 h
  split at hc
  · next hslash =>
    rw [List.mem_singleton.1 hc, ← hslash]
    exact Or.inr hd
  · rcases List.mem_cons.1 hc with rfl | hc
    · exact Or.inl rfl
    · exact Or.inr (List.mem_singleton.1 hc ▸ hd)

theorem head?_escaped_ne (text : Text) : (escaped text).head? ≠ some '*' := by
  cases text with
  | nil => exact nofun
  | cons c text =>
    by_cases hc : c = '/'
    · subst hc
      exact nofun
    · rw [escaped_cons hc]
      exact nofun

theorem getLast?_escaped (text : Text) : (escaped text).getLast? = text.getLast? := by
  rcases List.eq_nil_or_concat text with rfl | ⟨front, c, rfl⟩
  · rfl
  · rw [List.concat_eq_append, escaped_append, List.getLast?_concat]
    by_cases hc : c = '/'
    · rw [hc]
      exact List.getLast?_concat
    · rw [escaped_cons hc]
      simp

/-! ### Compilation -/

theorem not_startsWithGlobstar_escaped (text : Text) :
    startsWithGlobstar ('/' :: escaped text) ≠ true := by
  intro h
  have hhead := head?_escaped_ne text
  rcases startsWithGlobstar_iff.1 h with heq | ⟨rest, heq⟩ <;>
    exact hhead ((List.cons.inj heq).2 ▸ rfl)

/-- No character of an escaped text is read as anything but itself. -/
theorem Token.read?_escaped (text : Text) : read? (escaped text) = some (text.map .char) := by
  induction text with
  | nil =>
    show read? [] = some []
    rw [read?]
  | cons c text ih =>
    by_cases hc : c = '/'
    · subst hc
      rw [escaped_slash, read?_slash (not_startsWithGlobstar_escaped text), ih]
      rfl
    · rw [escaped_cons hc, read?, ih]
      rfl

theorem collapseGlobstars_escaped (text : Text) :
    collapseGlobstars (escaped text) = escaped text := by
  induction text with
  | nil => rfl
  | cons c text ih =>
    by_cases hc : c = '/'
    · subst hc
      rw [escaped_slash, collapseGlobstars, ih]
      rintro rest - heq
      exact head?_escaped_ne text (heq ▸ rfl)
    · rw [escaped_cons hc, collapseGlobstars_cons (by decide), collapseGlobstars_cons hc, ih]

theorem splitAnchor_escaped (text : Text) :
    splitAnchor ('/' :: escaped text) = (false, escaped text) := by
  have hnone : dropLeadingGlobstars? ('/' :: escaped text) = none := by
    unfold dropLeadingGlobstars?
    split
    · next rest heq => exact absurd ((List.cons.inj heq).2 ▸ rfl) (head?_escaped_ne text)
    · next heq => cases heq
    · rfl
  unfold splitAnchor
  rw [hnone]
  rfl

theorem core_escaped (text : Text) : core ('/' :: escaped text) = escaped text := by
  unfold core
  rw [splitAnchor_escaped, collapseGlobstars_escaped]

theorem not_matchesAll_escaped {text : Text} (hne : text ≠ []) :
    ¬ MatchesAll ('/' :: escaped text) := by
  rintro (hmem | ⟨-, hcore⟩)
  · have heq : escaped text = ['*', '*'] := by simpa [matchAll] using hmem
    exact head?_escaped_ne text (heq ▸ rfl)
  · rw [core_escaped] at hcore
    rcases hcore with hempty | heq
    · exact hne (escaped_eq_nil.1 hempty)
    · exact head?_escaped_ne text (heq ▸ rfl)

theorem ending_escaped (directoryOnly : Bool) (text : Text) :
    ending directoryOnly (escaped text) = if directoryOnly then [.char '/'] else [] := by
  -- a `/**` at the end has a token of its own, and here every token is a character
  have hsuffix : ¬ "/**".toList.isSuffixOf (escaped text) = true := by
    intro h
    obtain ⟨front, heq⟩ :=
      Token.read?_below (Token.read?_escaped text) (List.isSuffixOf_iff_suffix.1 h)
    have hbelow : Token.below ∈ text.map .char := by simp [heq]
    obtain ⟨c, -, hc⟩ := List.mem_map.1 hbelow
    cases hc
  unfold ending
  simp only [hsuffix, Bool.false_eq_true, not_false_eq_true, and_true]

/-- The matcher for one path, given without the mark for directories. -/
def exactMatcher (text : Text) (directoryOnly : Bool) : Matcher :=
  ⟨'/' :: escaped text, directoryOnly,
    some ⟨false, (text ++ if directoryOnly then ['/'] else []).map .char⟩⟩

theorem compile_escaped {text : Text} (hne : text ≠ []) (directoryOnly : Bool) :
    compile ('/' :: escaped text) directoryOnly = .ok (exactMatcher text directoryOnly) := by
  have hexpression : (exactMatcher text directoryOnly).expression =
      some (expressionWith ('/' :: escaped text) directoryOnly (text.map .char)) := by
    unfold exactMatcher expressionWith
    rw [splitAnchor_escaped, core_escaped, ending_escaped, List.map_append]
    cases directoryOnly <;> rfl
  have hrange : (expressionWith ('/' :: escaped text) directoryOnly
      (text.map .char)).badRange? = none := by
    refine badToken?_eq_none.2 (ascending_ending.2 fun cls hmem => ?_)
    obtain ⟨c, -, hc⟩ := List.mem_map.1 hmem
    cases hc
  rw [compile_eq (List.cons_ne_nil _ _) (not_matchesAll_escaped hne), core_escaped,
    Token.read?_escaped]
  dsimp only
  rw [hrange, ← hexpression]
  rfl

/-- The matcher of a path accepts this text alone, not only among the texts that are paths. -/
theorem accepts_exactMatcher {text : Text} (hlast : text.getLast? ≠ some '/') (directoryOnly : Bool)
    (path : Text) :
    (exactMatcher text directoryOnly).accepts path = true ↔
      path = text ++ if directoryOnly then ['/'] else [] := by
  unfold exactMatcher Matcher.accepts
  generalize hmark : (text ++ if directoryOnly then ['/'] else []) = target
  have hkind : (target.getLast? == some '/') = directoryOnly := by
    subst hmark
    cases directoryOnly with
    | false => simpa using hlast
    | true => simp
  have hstands : Token.Stands (target.map .char) path ↔ path = target := by
    have h := @Token.stands_chars target [] path
    simpa using h
  rw [Bool.and_eq_true, beq_iff_eq]
  dsimp only
  rw [Expression.accepts_iff]
  dsimp only
  rw [if_neg Bool.false_ne_true, hstands]
  constructor
  · exact fun h => h.2
  · rintro rfl
    exact ⟨hkind, rfl⟩

/-! ### The check -/

/-- The unit that a character of an escaped text is read as. -/
def pieceOf (c : Char) : Piece := if c = '/' then .plain '/' else .pair c

theorem pieces_escaped (text : Text) : pieces (escaped text) = some (text.map pieceOf) := by
  induction text with
  | nil => rfl
  | cons c text ih =>
    rw [List.map_cons]
    unfold pieceOf
    by_cases hc : c = '/'
    · subst hc
      rw [escaped_slash, pieces, ih]
      · rfl
      · exact fun h _ => absurd h (by decide)
      · exact fun _ _ h => absurd h (by decide)
    · rw [escaped_cons hc, pieces, ih, if_neg hc]
      rfl

theorem hasStarPair_pairs (name : Text) : hasStarPair (name.map .pair) = false := by
  induction name with
  | nil => rfl
  | cons c name ih =>
    rw [List.map_cons, hasStarPair]
    · exact ih
    · rintro _ heq -
      cases heq

/-- The escaped names of a place, each behind a `/`, follow the grammar, and so do they with a `/`
behind the last. -/
theorem isGrammatical_escaped {names : List Text} (hnames : ∀ name ∈ names, IsName name)
    (hne : names ≠ []) (mark : Bool) :
    isGrammatical (escaped (slashed names) ++ if mark then ['/'] else []) = true := by
  have hmap : ∀ name ∈ names, name.map pieceOf = name.map .pair := by
    intro name hname
    refine List.map_congr_left fun c hc => if_neg ?_
    rintro rfl
    exact (hnames name hname).2 hc
  have hpieces : pieces (escaped (slashed names) ++ if mark then ['/'] else []) =
      some ((names.map (List.map pieceOf) ++ if mark then [[]] else []).flatMap
        (.plain '/' :: ·)) := by
    have hmark : (if mark then ['/'] else []) = escaped (if mark then ['/'] else []) := by
      cases mark <;> rfl
    rw [hmark, ← escaped_append, pieces_escaped, List.map_append, slashed, List.map_flatMap,
      List.flatMap_append, List.flatMap_map]
    cases mark <;> rfl
  refine isGrammatical_groups hpieces (by simpa using hne) ?_ ?_
  · refine List.forall_mem_map.2 fun name hname => ?_
    rw [hmap name hname]
    simp
  · refine List.forall_mem_map.2 fun name hname => ?_
    rw [hmap name hname]
    unfold isComponent
    simp [hasStarPair_pairs, (hnames name hname).1]

end Pattern

namespace Rule

open Pattern
open Text (IsField)

/-- The line that leaves the entry of one path alone. -/
def exactLine (path : Text) : Text := ('/' :: escaped path) ++ ' ' :: noRole

/-- A name that a line can hold. -/
structure IsWritable (name : Text) : Prop where
  isName : IsName name
  notBlank : ∀ c ∈ name, Text.isBlank c = false
  notNull : '\x00' ∉ name

section

variable {names : List Text} (hnames : ∀ name ∈ names, IsWritable name) (hne : names ≠ [])
  (directory : Bool)

theorem escaped_relativePath :
    '/' :: escaped (relativePath names directory) =
      ('/' :: escaped (List.intercalate ['/'] names)) ++ if directory then ['/'] else [] := by
  unfold relativePath
  rw [escaped_append]
  cases directory <;> rfl

include hne in
theorem escaped_slashed :
    escaped (slashed names) = '/' :: escaped (List.intercalate ['/'] names) := by
  rw [slashed_eq_cons_intercalate hne, escaped_slash]

include hnames hne

/-- Neither the path nor the backslashes cut the line or make it unfit for a pattern. -/
theorem mem_escaped_relativePath :
    ∀ c ∈ '/' :: escaped (relativePath names directory), Text.isBlank c = false ∧ c ≠ '\x00' := by
  rw [escaped_relativePath, ← escaped_slashed hne]
  intro c hc
  rcases List.mem_append.1 hc with hc | hc
  · rcases mem_escaped hc with rfl | hc
    · decide
    · rcases mem_slashed hc with rfl | ⟨name, hname, hc⟩
      · decide
      · refine ⟨(hnames name hname).notBlank c hc, ?_⟩
        rintro rfl
        exact (hnames name hname).notNull hc
  · cases directory with
    | false => cases hc
    | true =>
      rw [List.mem_singleton.1 hc]
      decide

theorem checkText_exactLine :
    checkText ('/' :: escaped (relativePath names directory)) =
      .ok ('/' :: escaped (relativePath names directory)) := by
  have hmem := mem_escaped_relativePath hnames hne directory
  refine (checkText_ok_iff fun c hc => (hmem c hc).1).2
    ⟨List.cons_ne_nil _ _, fun hc => (hmem _ hc).2 rfl, ?_⟩
  rw [escaped_relativePath, ← escaped_slashed hne]
  exact isGrammatical_escaped (fun name hname => (hnames name hname).isName) hne directory

theorem splitMark_exactLine :
    splitMark ('/' :: escaped (relativePath names directory)) =
      ('/' :: escaped (List.intercalate ['/'] names), directory) := by
  have hnames' : ∀ name ∈ names, IsName name := fun name hname => (hnames name hname).isName
  have hlast : ('/' :: escaped (List.intercalate ['/'] names)).getLast? ≠ some '/' := by
    rw [← escaped_slashed hne, getLast?_escaped, slashed_eq_cons_intercalate hne,
      List.getLast?_cons_of_ne_nil (intercalate_ne_nil hnames' hne)]
    exact getLast?_intercalate_names hnames'
  rw [escaped_relativePath]
  exact splitMark_append hlast directory

theorem ofFields_exactLine (registry : Registry) (lineNumber : Nat) :
    ∃ rule, ofFields registry lineNumber ('/' :: escaped (relativePath names directory)) noRole =
        .ok rule ∧ rule.role = none ∧ rule.forDirectories = directory ∧
      ∀ path, rule.matcher.accepts path = true ↔ path = relativePath names directory := by
  have hnames' : ∀ name ∈ names, IsName name := fun name hname => (hnames name hname).isName
  have hcompile := compile_escaped (intercalate_ne_nil hnames' hne) directory
  have hrule := ofFields_noRole (checkText_exactLine hnames hne directory)
    (splitMark_exactLine hnames hne directory) hcompile registry lineNumber
  exact ⟨_, hrule, rfl, rfl, accepts_exactMatcher (getLast?_intercalate_names hnames') directory⟩

/-- The line of a path is a rule, whatever roles there are. Among all entries it selects the one
with this path and this kind. -/
theorem exactLine_selects_only (registry : Registry) (source : Text) :
    ∃ rule, RuleTable.load registry source [exactLine (relativePath names directory)] =
        .ok ⟨[rule]⟩ ∧ rule.role = none ∧
      ∀ entry, rule.selects entry = true ↔
        entry.path = relativePath names directory ∧ entry.isDirectory = directory := by
  obtain ⟨rule, hrule, hrole, hkind, haccepts⟩ := ofFields_exactLine hnames hne directory registry 1
  have hmem := mem_escaped_relativePath hnames hne directory
  have hfield : IsField ('/' :: escaped (relativePath names directory)) :=
    ⟨List.cons_ne_nil _ _, fun c hc => (hmem c hc).1⟩
  refine ⟨rule, RuleTable.load_eq_ok.2 ?_, hrole, fun entry => ?_⟩
  · unfold exactLine
    rw [readFrom_written hfield isField_noRole (by simp) hrule source []]
    exact ⟨rfl, rfl⟩
  · unfold selects
    rw [Bool.and_eq_true, beq_iff_eq, haccepts, hkind]
    constructor
    · exact fun h => ⟨h.2, h.1.symm⟩
    · exact fun h => ⟨h.2.symm, h.1⟩

end

/-- A directory with a name of nothing but wildcards and one that begins like a comment and holds a
class, a dash and a backslash. -/
theorem exactLine_selects_only_wildcards :
    exactLine "**?/#[!a-z]\\/" = "/\\*\\*\\?/\\#\\[\\!\\a\\-\\z\\]\\\\/ -" ∧
    ∃ rule, RuleTable.load ⟨[]⟩ "rules" [exactLine "**?/#[!a-z]\\/"] = .ok ⟨[rule]⟩ ∧
      rule.selects ⟨"**?/#[!a-z]\\/", .directory⟩ = true ∧
      rule.selects ⟨"/", .directory⟩ = false := by
  have hblank : ["**?".toList, "#[!a-z]\\".toList].all (·.all (!Text.isBlank ·)) = true := by decide
  have hnames : ∀ name ∈ ["**?".toList, "#[!a-z]\\".toList], IsWritable name := by
    intro name hname
    have hname' : IsName name ∧ '\x00' ∉ name := by
      rcases List.mem_pair.1 hname with rfl | rfl <;> decide
    exact ⟨hname'.1, by simpa using List.all_eq_true.1 hblank name hname, hname'.2⟩
  obtain ⟨rule, hload, -, hselects⟩ := exactLine_selects_only hnames (by decide) true ⟨[]⟩ "rules"
  refine ⟨by decide, rule, hload, (hselects _).2 ⟨rfl, rfl⟩, ?_⟩
  rw [Bool.eq_false_iff, ne_eq, hselects]
  decide

end Rule

end PathRights
