import PathRights.Proofs.Pattern.Recognizer
import PathRights.Proofs.Role.Form

/-! The form of specifications as one expression, which captures the parts of what it takes. An
expression may take a text in several ways; this one captures the same specification in all of them,
and it is the one that is read. -/

namespace PathRights.Role

open Pattern (Recognizer)

/-- What the expression captures. -/
inductive Part where
  | user
  | group
  | directoryMode
  | fileMode
  | mode
deriving DecidableEq

/-- An expression for beginnings of texts that captures some of what it takes. -/
inductive Expression where
  | plain (inner : Recognizer)
  | capture (part : Part) (inner : Recognizer)
  | both (first second : Expression)
  | either (first second : Expression)

namespace Expression

/-- The expression takes the beginning of `text` that leaves `rest`, and captures parts of it. -/
inductive Takes : Expression → (text rest : Text) → List (Part × Text) → Prop
  | plain {inner : Recognizer} {text rest : Text} (h : inner.Takes text rest) :
      Takes (plain inner) text rest []
  | capture {part : Part} {inner : Recognizer} {word rest : Text}
      (h : inner.Takes (word ++ rest) rest) :
      Takes (capture part inner) (word ++ rest) rest [(part, word)]
  | both {first second : Expression} {text middle rest : Text} {before after : List (Part × Text)}
      (hfirst : Takes first text middle before) (hsecond : Takes second middle rest after) :
      Takes (both first second) text rest (before ++ after)
  | left {first second : Expression} {text rest : Text} {captured : List (Part × Text)}
      (h : Takes first text rest captured) : Takes (either first second) text rest captured
  | right {first second : Expression} {text rest : Text} {captured : List (Part × Text)}
      (h : Takes second text rest captured) : Takes (either first second) text rest captured

/-- The expression, or nothing. -/
def optional (inner : Expression) : Expression := either inner (plain .nothing)

/-- A given character in front of the expression. -/
def marked (c : Char) (inner : Expression) : Expression := both (plain (.char c)) inner

/-- A character that is no blank and separates nothing. -/
def accountChar : Recognizer :=
  .one fun c => !Text.isBlank c && c != ':' && c != ',' && c != '/'

def account : Recognizer := .both accountChar (.many accountChar)

def octalDigit : Recognizer := .one Text.isOctalDigit

/-- Three octal digits, or four. -/
def modeWord : Recognizer :=
  .both octalDigit (.both octalDigit (.both octalDigit (.optional octalDigit)))

/-- Modes with a `/` between them, each of which may be missing, or one mode without it. -/
def modes : Expression :=
  either (both (optional (capture .directoryMode modeWord))
    (marked '/' (optional (capture .fileMode modeWord)))) (capture .mode modeWord)

/-- A user, perhaps a group behind a `:`, and modes behind a `,`. -/
def specification : Expression :=
  both (capture .user account)
    (both (optional (marked ':' (capture .group account))) (marked ',' modes))

/-- The expression takes the whole of a text, or all but a line feed at its end. -/
def Matches (text : Text) (captured : List (Part × Text)) : Prop :=
  specification.Takes text [] captured ∨ specification.Takes text ['\n'] captured

/-- The specification that is captured: a mode without a `/` is one for files. -/
def specOf (captured : List (Part × Text)) : Spec :=
  ⟨(captured.lookup .user).getD [], captured.lookup .group, captured.lookup .directoryMode,
    (captured.lookup .mode).or (captured.lookup .fileMode)⟩

/-! ### What expressions take -/

section

variable {text rest : Text} {captured : List (Part × Text)} {inner : Recognizer} {part : Part}
  {first second : Expression}

theorem takes_plain_iff :
    Takes (plain inner) text rest captured ↔ inner.Takes text rest ∧ captured = [] := by
  constructor
  · intro h
    cases h with
    | plain h => exact ⟨h, rfl⟩
  · rintro ⟨h, rfl⟩
    exact .plain h

theorem takes_capture_iff : Takes (capture part inner) text rest captured ↔
    ∃ word, inner.Takes (word ++ rest) rest ∧ text = word ++ rest ∧ captured = [(part, word)] := by
  constructor
  · intro h
    cases h with
    | capture h => exact ⟨_, h, rfl, rfl⟩
  · rintro ⟨word, h, rfl, rfl⟩
    exact .capture h

theorem takes_both_iff : Takes (both first second) text rest captured ↔
    ∃ middle before after, Takes first text middle before ∧ Takes second middle rest after ∧
      captured = before ++ after := by
  constructor
  · intro h
    cases h with
    | both hfirst hsecond => exact ⟨_, _, _, hfirst, hsecond, rfl⟩
  · rintro ⟨middle, before, after, hfirst, hsecond, rfl⟩
    exact .both hfirst hsecond

theorem takes_either_iff : Takes (either first second) text rest captured ↔
    Takes first text rest captured ∨ Takes second text rest captured := by
  constructor
  · intro h
    cases h with
    | left h => exact Or.inl h
    | right h => exact Or.inr h
  · exact Or.rec .left .right

theorem takes_optional_iff : Takes (optional first) text rest captured ↔
    Takes first text rest captured ∨ text = rest ∧ captured = [] := by
  rw [optional, takes_either_iff, takes_plain_iff, Recognizer.takes_nothing_iff]

theorem takes_marked_iff {c : Char} : Takes (marked c first) text rest captured ↔
    ∃ middle, text = c :: middle ∧ Takes first middle rest captured := by
  simp only [marked, takes_both_iff, takes_plain_iff, Recognizer.takes_char_iff]
  constructor
  · rintro ⟨middle, _, after, ⟨rfl, rfl⟩, hsecond, rfl⟩
    exact ⟨middle, rfl, hsecond⟩
  · rintro ⟨middle, rfl, hsecond⟩
    exact ⟨middle, [], captured, ⟨rfl, rfl⟩, hsecond, rfl⟩

end

/-! ### Words -/

theorem takes_many_one_iff {accepts : Char → Bool} {text rest : Text} :
    (Recognizer.many (.one accepts)).Takes text rest ↔
      ∃ word, (∀ c ∈ word, accepts c = true) ∧ text = word ++ rest := by
  constructor
  · intro h
    generalize hmany : Recognizer.many (.one accepts) = r at h
    induction h with
    | stop => exact ⟨[], by simp, rfl⟩
    | again hinner _ _ ih =>
      cases hmany
      obtain ⟨c, hc, rfl⟩ := Recognizer.takes_one_iff.1 hinner
      obtain ⟨word, hword, rfl⟩ := ih rfl
      exact ⟨c :: word, List.forall_mem_cons.2 ⟨hc, hword⟩, rfl⟩
    | _ => cases hmany
  · rintro ⟨word, hword, rfl⟩
    induction word with
    | nil => exact .stop
    | cons c word ih =>
      obtain ⟨hc, hword⟩ := List.forall_mem_cons.1 hword
      exact .again (.one hc) (ih hword)

theorem takes_account_iff {word rest : Text} :
    account.Takes (word ++ rest) rest ↔ IsAccountName word := by
  have hplain (c : Char) : (!Text.isBlank c && c != ':' && c != ',' && c != '/') = true ↔
      Text.isBlank c = false ∧ c ∉ [':', ',', '/'] := by
    simp [and_assoc]
  rw [account, Recognizer.takes_both_iff]
  simp only [accountChar, Recognizer.takes_one_iff, takes_many_one_iff, hplain]
  constructor
  · rintro ⟨_, ⟨c, hc, htext⟩, more, hmore, rfl⟩
    obtain rfl : word = c :: more := List.append_cancel_right htext
    exact ⟨List.cons_ne_nil _ _, List.forall_mem_cons.2 ⟨hc, hmore⟩⟩
  · rintro ⟨hne, hword⟩
    obtain ⟨c, more, rfl⟩ := List.exists_cons_of_ne_nil hne
    obtain ⟨hc, hmore⟩ := List.forall_mem_cons.1 hword
    exact ⟨more ++ rest, ⟨c, hc, rfl⟩, more, hmore, rfl⟩

theorem takes_modeWord_iff {word rest : Text} :
    modeWord.Takes (word ++ rest) rest ↔ IsModeWord word := by
  simp only [modeWord, octalDigit, Recognizer.optional, Recognizer.takes_both_iff,
    Recognizer.takes_either_iff, Recognizer.takes_one_iff, Recognizer.takes_nothing_iff,
    ← isMode_iff]
  constructor
  · rintro ⟨_, ⟨a, ha, htext⟩, _, ⟨b, hb, rfl⟩, _, ⟨c, hc, rfl⟩, ⟨d, hd, rfl⟩ | rfl⟩
    · obtain rfl : word = [a, b, c, d] := List.append_cancel_right htext
      simp [isMode, ha, hb, hc, hd]
    · obtain rfl : word = [a, b, c] := List.append_cancel_right htext
      simp [isMode, ha, hb, hc]
  · intro h
    simp only [isMode, Bool.and_eq_true, Bool.or_eq_true, beq_iff_eq] at h
    obtain ⟨hlength, hdigits⟩ := h
    rcases hlength with hlength | hlength
    · obtain ⟨a, b, c, rfl⟩ := List.length_eq_three.1 hlength
      simp only [List.all_cons, List.all_nil, Bool.and_eq_true, and_true] at hdigits
      exact ⟨_, ⟨a, hdigits.1, rfl⟩, _, ⟨b, hdigits.2.1, rfl⟩, _, ⟨c, hdigits.2.2, rfl⟩, Or.inr rfl⟩
    · obtain ⟨a, b, c, d, rfl⟩ := List.length_eq_four.1 hlength
      simp only [List.all_cons, List.all_nil, Bool.and_eq_true, and_true] at hdigits
      exact ⟨_, ⟨a, hdigits.1, rfl⟩, _, ⟨b, hdigits.2.1, rfl⟩, _, ⟨c, hdigits.2.2.1, rfl⟩,
        Or.inl ⟨d, hdigits.2.2.2, rfl⟩⟩

/-! ### Specifications -/

/-- What the word of a part that may be missing is captured as. -/
def capturedAs (part : Part) (word : Option Text) : List (Part × Text) :=
  (word.map (part, ·)).toList

section

variable {text rest : Text} {captured : List (Part × Text)}

theorem takes_optional_modeWord_iff {part : Part} :
    Takes (optional (capture part modeWord)) text rest captured ↔
      ∃ word : Option Text, (∀ mode, word = some mode → IsModeWord mode) ∧
        text = word.getD [] ++ rest ∧ captured = capturedAs part word := by
  rw [takes_optional_iff, takes_capture_iff]
  simp only [takes_modeWord_iff]
  constructor
  · rintro (⟨word, hword, rfl, rfl⟩ | ⟨rfl, rfl⟩)
    · exact ⟨some word, by simpa using hword, rfl, rfl⟩
    · exact ⟨none, by simp, rfl, rfl⟩
  · rintro ⟨_ | word, hword, rfl, rfl⟩
    · exact Or.inr ⟨rfl, rfl⟩
    · exact Or.inl ⟨word, hword word rfl, rfl, rfl⟩

theorem takes_group_iff :
    Takes (optional (marked ':' (capture .group account))) text rest captured ↔
      ∃ group : Option Text, (∀ name, group = some name → IsAccountName name) ∧
        text = (match group with | some name => ':' :: name | none => []) ++ rest ∧
        captured = capturedAs .group group := by
  rw [takes_optional_iff, takes_marked_iff]
  simp only [takes_capture_iff, takes_account_iff]
  constructor
  · rintro (⟨_, rfl, name, hname, rfl, rfl⟩ | ⟨rfl, rfl⟩)
    · exact ⟨some name, by simpa using hname, rfl, rfl⟩
    · exact ⟨none, by simp, rfl, rfl⟩
  · rintro ⟨_ | name, hname, rfl, rfl⟩
    · exact Or.inr ⟨rfl, rfl⟩
    · exact Or.inl ⟨_, rfl, name, hname name rfl, rfl, rfl⟩

/-- The parts of an owner and those of modes are captured apart. -/
theorem specOf_append (user : Text) (group : Option Text) (hgroup : captured.lookup .group = none) :
    specOf ((.user, user) :: (capturedAs .group group ++ captured)) =
      ⟨user, group, captured.lookup .directoryMode,
        (captured.lookup .mode).or (captured.lookup .fileMode)⟩ := by
  cases group with
  | none =>
    show Spec.mk user (captured.lookup .group) _ _ = _
    rw [hgroup]
    rfl
  | some name => rfl

end

/-- The modes that are captured are those that are read. -/
structure CapturesModes (written : Text) (captured : List (Part × Text)) : Prop where
  reads : parseModes written = some (captured.lookup .directoryMode,
    (captured.lookup .mode).or (captured.lookup .fileMode))
  group : captured.lookup .group = none

theorem capturesModes_slash {directory file : Option Text}
    (hdirectory : ∀ mode, directory = some mode → IsModeWord mode)
    (hfile : ∀ mode, file = some mode → IsModeWord mode) :
    CapturesModes (directory.getD [] ++ '/' :: file.getD [])
      (capturedAs .directoryMode directory ++ capturedAs .fileMode file) := by
  have hreads := parseModes_slash directory file hdirectory hfile
  cases directory <;> cases file <;> exact ⟨hreads, rfl⟩

theorem capturesModes_single {mode : Text} (h : IsModeWord mode) :
    CapturesModes mode [(.mode, mode)] :=
  ⟨parseModes_eq_some_iff.2 (Or.inl ⟨rfl, rfl, h⟩), rfl⟩

theorem takes_modes {text rest : Text} {captured : List (Part × Text)}
    (h : Takes modes text rest captured) :
    ∃ written, text = written ++ rest ∧ CapturesModes written captured := by
  simp only [modes, takes_either_iff, takes_both_iff, takes_marked_iff, takes_optional_modeWord_iff,
    takes_capture_iff, takes_modeWord_iff] at h
  rcases h with ⟨_, _, _, ⟨directory, hdirectory, rfl, rfl⟩, ⟨_, rfl, file, hfile, rfl, rfl⟩, rfl⟩ |
    ⟨mode, hmode, rfl, rfl⟩
  · exact ⟨_, by simp, capturesModes_slash hdirectory hfile⟩
  · exact ⟨mode, rfl, capturesModes_single hmode⟩

theorem exists_takes_modes {written : Text} {directory file : Option Text}
    (h : parseModes written = some (directory, file)) (rest : Text) :
    ∃ captured, Takes modes (written ++ rest) rest captured ∧ CapturesModes written captured := by
  simp only [modes, takes_either_iff, takes_both_iff, takes_marked_iff, takes_optional_modeWord_iff,
    takes_capture_iff, takes_modeWord_iff]
  rcases parseModes_eq_some_iff.1 h with ⟨-, -, hmode⟩ | ⟨hdirectory, hfile, rfl⟩
  · exact ⟨_, Or.inr ⟨written, hmode, rfl, rfl⟩, capturesModes_single hmode⟩
  · refine ⟨_, Or.inl ⟨_, _, _, ⟨directory, hdirectory, ?_, rfl⟩, ⟨_, rfl, file, hfile, rfl, rfl⟩,
      rfl⟩, capturesModes_slash hdirectory hfile⟩
    simp

/-- What the expression captures of a text is what is read from it. -/
theorem takes_specification_iff {text rest : Text} {spec : Spec} :
    (∃ captured, specification.Takes text rest captured ∧ specOf captured = spec) ↔
      ∃ written, text = written ++ rest ∧ Spec.parse? written = some spec := by
  simp only [specification, takes_both_iff, takes_marked_iff, takes_capture_iff, takes_account_iff,
    takes_group_iff, parse?_eq_some_iff, parseOwner_eq_some_iff]
  constructor
  · rintro ⟨_, ⟨_, _, _, ⟨user, huser, rfl, rfl⟩, ⟨_, _, _, ⟨group, hgroup, rfl, rfl⟩,
      ⟨_, rfl, hmodes⟩, rfl⟩, rfl⟩, rfl⟩
    obtain ⟨written, rfl, hcaptures⟩ := takes_modes hmodes
    have hspec := specOf_append user group hcaptures.group
    rw [List.singleton_append, hspec]
    refine ⟨_, ?_, _, written, rfl, ⟨huser, hgroup, rfl⟩, hcaptures.reads⟩
    cases group <;> simp
  · rintro ⟨_, rfl, _, written, rfl, ⟨huser, hgroup, rfl⟩, hreads⟩
    obtain ⟨captured, hmodes, hcaptures⟩ := exists_takes_modes hreads rest
    have hspec := specOf_append spec.user spec.group hcaptures.group
    have heq := Option.some.inj (hcaptures.reads.symm.trans hreads)
    obtain ⟨hdirectory, hfile⟩ := Prod.mk.inj heq
    refine ⟨_, ⟨_, _, _, ⟨spec.user, huser, ?_, rfl⟩, ⟨_, _, _, ⟨spec.group, hgroup, rfl, rfl⟩,
      ⟨_, rfl, hmodes⟩, rfl⟩, rfl⟩, ?_⟩
    · cases spec.group <;> simp
    · rw [List.singleton_append, hspec, hdirectory, hfile]

theorem exists_matches_iff {text : Text} {spec : Spec} :
    (∃ captured, Matches text captured ∧ specOf captured = spec) ↔
      Spec.parse? text = some spec ∨
        ∃ written, text = written ++ ['\n'] ∧ Spec.parse? written = some spec := by
  have hwhole := @takes_specification_iff text [] spec
  have hline := @takes_specification_iff text ['\n'] spec
  simp only [List.append_nil, exists_eq_left'] at hwhole
  rw [← hwhole, ← hline, ← exists_or]
  simp only [Matches, or_and_right]

/-- Of a text without blanks around it the expression captures what is read, and nothing else. -/
theorem parse?_trim_eq_some_iff {text : Text} {spec : Spec} :
    Spec.parse? text.trim = some spec ↔
      ∃ captured, Matches text.trim captured ∧ specOf captured = spec := by
  rw [exists_matches_iff]
  refine ⟨Or.inl, fun h => h.resolve_right ?_⟩
  rintro ⟨written, htrim, -⟩
  have hne : text.trim ≠ [] := by simp [htrim]
  have hlast : ¬ Text.isBlank (text.trim.getLast hne) :=
    List.rdropWhile_last_not Text.isBlank (text.dropWhile Text.isBlank) hne
  simp only [htrim, List.getLast_concat] at hlast
  exact hlast (by decide)

end Expression

end PathRights.Role
