import Mathlib.Data.List.DropRight
import PathRights.Role.Spec

/-! The form of specifications, said without the reading that checks them: which words stand between
the `:`, the `,` and the `/`, and in which four ways the modes are written. A text is a
specification if it has this form between blanks, and it has the form in one way only, so that its
parts are those that are read. -/

namespace PathRights

namespace Text

theorem breakAt_eq_some_iff {p : Char → Bool} {text before after : Text} {sep : Char} :
    breakAt p text = some (before, sep, after) ↔
      text = before ++ sep :: after ∧ p sep = true ∧ ∀ c ∈ before, p c = false := by
  constructor
  · exact eq_of_breakAt
  · rintro ⟨rfl, hsep, hbefore⟩
    exact breakAt_append hsep hbefore

theorem isOctalDigit_iff {c : Char} : isOctalDigit c = true ↔ c ∈ "01234567".toList := by
  constructor
  · intro h
    simp only [isOctalDigit, Bool.and_eq_true, decide_eq_true_eq] at h
    have hlow : 48 ≤ c.toNat := UInt32.le_iff_toNat_le.mp h.1
    have hhigh : c.toNat ≤ 55 := UInt32.le_iff_toNat_le.mp h.2
    obtain ⟨n, hn, hc⟩ : ∃ n < 8, c.toNat = 48 + n := ⟨c.toNat - 48, by omega, by omega⟩
    rw [← Char.ofNat_toNat c, hc]
    clear hc
    revert n
    decide
  · have hall : "01234567".toList.all isOctalDigit = true := by decide
    exact List.all_eq_true.1 hall c

/-! ### Blanks around a text -/

/-- What stands around a text is dropped from its two ends. -/
theorem rdropWhile_dropWhile {p : Char → Bool} {left inner right : Text}
    (hleft : ∀ c ∈ left, p c = true) (hright : ∀ c ∈ right, p c = true)
    (hinner : ∀ c ∈ inner, p c = false) :
    ((left ++ inner ++ right).dropWhile p).rdropWhile p = inner := by
  rw [List.append_assoc, List.dropWhile_append_of_pos hleft]
  cases inner with
  | nil =>
    rw [List.nil_append, List.dropWhile_eq_nil_iff.2 hright, List.rdropWhile_nil]
  | cons c inner =>
    rw [List.cons_append, List.dropWhile_cons_of_neg (by simp [hinner c]), ← List.cons_append]
    unfold List.rdropWhile
    rw [List.reverse_append, List.dropWhile_append_of_pos (by simpa using hright)]
    show (c :: inner).rdropWhile p = c :: inner
    rw [List.rdropWhile_eq_self_iff]
    intro hne
    simp [hinner _ (List.getLast_mem hne)]

/-- There is nothing but blanks around `inner`. -/
def IsWithin (inner text : Text) : Prop :=
  ∃ left right, (∀ c ∈ left, isBlank c = true) ∧ (∀ c ∈ right, isBlank c = true) ∧
    text = left ++ inner ++ right

theorem isWithin_trim (text : Text) : IsWithin text.trim text := by
  refine ⟨text.takeWhile isBlank, (text.dropWhile isBlank).rtakeWhile isBlank,
    fun c => List.mem_takeWhile_imp, fun c => List.mem_rtakeWhile_imp, ?_⟩
  have htrim : text.trim ++ (text.dropWhile isBlank).rtakeWhile isBlank = text.dropWhile isBlank :=
    List.rdropWhile_append_rtakeWhile ..
  rw [List.append_assoc, htrim, List.takeWhile_append_dropWhile]

theorem IsWithin.trim_eq {inner text : Text} (h : IsWithin inner text)
    (hinner : ∀ c ∈ inner, isBlank c = false) : text.trim = inner := by
  obtain ⟨left, right, hleft, hright, rfl⟩ := h
  exact rdropWhile_dropWhile hleft hright hinner

end Text

namespace Role

/-! ### Words -/

/-- What can name a user or a group. -/
structure IsAccountName (text : Text) : Prop where
  nonempty : text ≠ []
  plain : ∀ c ∈ text, Text.isBlank c = false ∧ c ∉ [':', ',', '/']

/-- Three or four octal digits. -/
structure IsModeWord (text : Text) : Prop where
  length : text.length = 3 ∨ text.length = 4
  digits : ∀ c ∈ text, c ∈ "01234567".toList

theorem isAccount_iff {text : Text} : isAccount text = true ↔ IsAccountName text := by
  constructor
  · intro h
    simp only [isAccount, Bool.and_eq_true, List.all_eq_true] at h
    refine ⟨by simpa using h.1, fun c hc => ?_⟩
    simpa [and_assoc] using h.2 c hc
  · intro h
    simp only [isAccount, Bool.and_eq_true, List.all_eq_true]
    refine ⟨by simpa using h.nonempty, fun c hc => ?_⟩
    simpa [and_assoc] using h.plain c hc

theorem isMode_iff {text : Text} : isMode text = true ↔ IsModeWord text := by
  simp only [isMode, Bool.and_eq_true, Bool.or_eq_true, beq_iff_eq, List.all_eq_true,
    Text.isOctalDigit_iff]
  exact ⟨fun h => ⟨h.1, h.2⟩, fun h => ⟨h.length, h.digits⟩⟩

theorem IsAccountName.not_mem {text : Text} (h : IsAccountName text) {c : Char}
    (hc : c ∈ [':', ',', '/']) : c ∉ text :=
  fun hmem => (h.plain c hmem).2 hc

theorem IsModeWord.nonempty {text : Text} (h : IsModeWord text) : text ≠ [] := by
  rintro rfl
  rcases h.length with h | h <;> cases h

theorem IsModeWord.isBlank {text : Text} (h : IsModeWord text) {c : Char} (hc : c ∈ text) :
    Text.isBlank c = false := by
  have hall : "01234567".toList.all (fun c => !Text.isBlank c) = true := by decide
  simpa using List.all_eq_true.1 hall c (h.digits c hc)

theorem IsModeWord.ne_slash {text : Text} (h : IsModeWord text) :
    ∀ c ∈ text, (c == '/') = false := by
  intro c hc
  simpa using ne_of_mem_of_not_mem (h.digits c hc) (by decide : '/' ∉ "01234567".toList)

/-! ### The form -/

/-- The ways to write modes: `FILE`, `DIRECTORY/FILE`, `DIRECTORY/` and `/FILE`. -/
inductive ModesForm where
  | single (file : Text)
  | pair (directory file : Text)
  | directoryOnly (directory : Text)
  | fileOnly (file : Text)
deriving DecidableEq, Repr

namespace ModesForm

def text : ModesForm → Text
  | single file => file
  | pair directory file => directory ++ '/' :: file
  | directoryOnly directory => directory ++ ['/']
  | fileOnly file => '/' :: file

def directoryMode : ModesForm → Option Text
  | single _ | fileOnly _ => none
  | pair directory _ | directoryOnly directory => some directory

def fileMode : ModesForm → Option Text
  | directoryOnly _ => none
  | single file | pair _ file | fileOnly file => some file

def IsLegal : ModesForm → Prop
  | pair directory file => IsModeWord directory ∧ IsModeWord file
  | single mode | directoryOnly mode | fileOnly mode => IsModeWord mode

theorem IsLegal.isModeWord {modes : ModesForm} (h : modes.IsLegal) {mode : Text}
    (hmode : modes.directoryMode = some mode ∨ modes.fileMode = some mode) : IsModeWord mode := by
  cases modes with
  | pair directory file =>
    rcases hmode with heq | heq
    · cases heq
      exact h.1
    · cases heq
      exact h.2
  | single file => rcases hmode with heq | heq <;> cases heq; exact h
  | directoryOnly directory => rcases hmode with heq | heq <;> cases heq; exact h
  | fileOnly file => rcases hmode with heq | heq <;> cases heq; exact h

theorem IsLegal.isBlank {modes : ModesForm} (h : modes.IsLegal) {c : Char} (hc : c ∈ modes.text) :
    Text.isBlank c = false := by
  have hslash : Text.isBlank '/' = false := by decide
  cases modes with
  | single file => exact IsModeWord.isBlank h hc
  | pair directory file =>
    rcases List.mem_append.1 hc with hc | hc
    · exact h.1.isBlank hc
    · rcases List.mem_cons.1 hc with rfl | hc
      · exact hslash
      · exact h.2.isBlank hc
  | directoryOnly directory =>
    rcases List.mem_append.1 hc with hc | hc
    · exact IsModeWord.isBlank h hc
    · exact List.mem_singleton.1 hc ▸ hslash
  | fileOnly file =>
    rcases List.mem_cons.1 hc with rfl | hc
    · exact hslash
    · exact IsModeWord.isBlank h hc

end ModesForm

/-- A specification as it is written: `USER,MODES` or `USER:GROUP,MODES`. -/
structure SpecForm where
  user : Text
  group : Option Text
  modes : ModesForm
deriving DecidableEq, Repr

namespace SpecForm

def owner (form : SpecForm) : Text :=
  form.user ++ (match form.group with | some group => ':' :: group | none => [])

def text (form : SpecForm) : Text := form.owner ++ ',' :: form.modes.text

/-- What the form says. -/
def spec (form : SpecForm) : Spec :=
  ⟨form.user, form.group, form.modes.directoryMode, form.modes.fileMode⟩

structure IsLegal (form : SpecForm) : Prop where
  user : IsAccountName form.user
  group : ∀ group, form.group = some group → IsAccountName group
  modes : form.modes.IsLegal

end SpecForm

/-! ### Reading the parts -/

theorem parseOwner_eq_some_iff {text user : Text} {group : Option Text} :
    parseOwner text = some (user, group) ↔ IsAccountName user ∧
      (∀ name, group = some name → IsAccountName name) ∧
      text = user ++ (match group with | some name => ':' :: name | none => []) := by
  constructor
  · intro h
    unfold parseOwner at h
    split at h
    · split at h
      · next huser =>
        cases h
        exact ⟨isAccount_iff.1 huser, by simp, by simp⟩
      · cases h
    · next hbreak =>
      obtain ⟨rfl, hcolon, -⟩ := Text.breakAt_eq_some_iff.1 hbreak
      split at h
      · next hnames =>
        cases h
        obtain rfl := eq_of_beq hcolon
        refine ⟨isAccount_iff.1 hnames.1, fun name hname => ?_, rfl⟩
        cases hname
        exact isAccount_iff.1 hnames.2
      · cases h
  · rintro ⟨huser, hgroup, rfl⟩
    have hcolon : ∀ c ∈ user, (c == ':') = false := by
      intro c hc
      simpa using ne_of_mem_of_not_mem hc (huser.not_mem (by simp))
    unfold parseOwner
    cases group with
    | none =>
      rw [List.append_nil, Text.breakAt_eq_none.2 hcolon]
      exact if_pos (isAccount_iff.2 huser)
    | some name =>
      dsimp only
      rw [Text.breakAt_append (by rfl) hcolon]
      exact if_pos ⟨isAccount_iff.2 huser, isAccount_iff.2 (hgroup name rfl)⟩

theorem parseOptionalMode_eq_some_iff {text : Text} {written : Option Text} :
    parseOptionalMode text = some written ↔
      (∀ mode, written = some mode → IsModeWord mode) ∧ text = written.getD [] := by
  constructor
  · intro h
    unfold parseOptionalMode at h
    split at h
    · next hempty =>
      cases h
      exact ⟨by simp, List.isEmpty_iff.1 hempty⟩
    · split at h
      · next hmode =>
        cases h
        exact ⟨fun mode heq => Option.some.inj heq ▸ isMode_iff.1 hmode, rfl⟩
      · cases h
  · rintro ⟨hmode, rfl⟩
    unfold parseOptionalMode
    cases written with
    | none => rfl
    | some mode =>
      have hword := hmode mode rfl
      rw [Option.getD_some, if_neg (by simpa using hword.nonempty), if_pos (isMode_iff.2 hword)]

theorem parseModes_slash (directory file : Option Text)
    (hdirectory : ∀ mode, directory = some mode → IsModeWord mode)
    (hfile : ∀ mode, file = some mode → IsModeWord mode) :
    parseModes (directory.getD [] ++ '/' :: file.getD []) = some (directory, file) := by
  have hbefore : ∀ c ∈ directory.getD [], (c == '/') = false := by
    cases directory with
    | none => simp
    | some mode => exact (hdirectory mode rfl).ne_slash
  unfold parseModes
  rw [Text.breakAt_append (by rfl) hbefore]
  dsimp only
  rw [parseOptionalMode_eq_some_iff.2 ⟨hdirectory, rfl⟩,
    parseOptionalMode_eq_some_iff.2 ⟨hfile, rfl⟩]

/-- Modes are read from one word, or from what stands around a `/`. -/
theorem parseModes_eq_some_iff {text : Text} {directory file : Option Text} :
    parseModes text = some (directory, file) ↔
      directory = none ∧ file = some text ∧ IsModeWord text ∨
      (∀ mode, directory = some mode → IsModeWord mode) ∧
        (∀ mode, file = some mode → IsModeWord mode) ∧
        text = directory.getD [] ++ '/' :: file.getD [] := by
  constructor
  · intro h
    unfold parseModes at h
    split at h
    · split at h
      · next hsingle =>
        cases h
        exact Or.inl ⟨rfl, rfl, isMode_iff.1 hsingle⟩
      · cases h
    · next hbreak =>
      obtain ⟨rfl, hsep, -⟩ := Text.breakAt_eq_some_iff.1 hbreak
      obtain rfl := eq_of_beq hsep
      split at h
      · next hbefore hafter =>
        cases h
        obtain ⟨hdirectory, rfl⟩ := parseOptionalMode_eq_some_iff.1 hbefore
        obtain ⟨hfile, rfl⟩ := parseOptionalMode_eq_some_iff.1 hafter
        exact Or.inr ⟨hdirectory, hfile, rfl⟩
      · cases h
  · rintro (⟨rfl, rfl, hmode⟩ | ⟨hdirectory, hfile, rfl⟩)
    · unfold parseModes
      rw [Text.breakAt_eq_none.2 hmode.ne_slash]
      exact if_pos (isMode_iff.2 hmode)
    · exact parseModes_slash directory file hdirectory hfile

theorem ModesForm.IsLegal.parseModes {modes : ModesForm} (h : modes.IsLegal) :
    parseModes modes.text = some (modes.directoryMode, modes.fileMode) := by
  rw [parseModes_eq_some_iff]
  cases modes with
  | single file => exact Or.inl ⟨rfl, rfl, h⟩
  | pair directory file =>
    obtain ⟨hdirectory, hfile⟩ : IsModeWord directory ∧ IsModeWord file := h
    exact Or.inr ⟨by simpa [directoryMode] using hdirectory, by simpa [fileMode] using hfile, rfl⟩
  | directoryOnly directory =>
    have hdirectory : IsModeWord directory := h
    exact Or.inr ⟨by simpa [directoryMode] using hdirectory, by simp [fileMode], rfl⟩
  | fileOnly file =>
    have hfile : IsModeWord file := h
    exact Or.inr ⟨by simp [directoryMode], by simpa [fileMode] using hfile, rfl⟩

/-- Modes that can be read are written in one of the four ways, unless they are a `/` alone. -/
theorem exists_modesForm {text : Text} {directoryMode fileMode : Option Text}
    (h : parseModes text = some (directoryMode, fileMode))
    (hmode : directoryMode.isSome ∨ fileMode.isSome) :
    ∃ modes : ModesForm, modes.IsLegal ∧ modes.text = text ∧
      modes.directoryMode = directoryMode ∧ modes.fileMode = fileMode := by
  rcases parseModes_eq_some_iff.1 h with ⟨rfl, rfl, hsingle⟩ | ⟨hdirectory, hfile, rfl⟩
  · exact ⟨.single text, hsingle, rfl, rfl, rfl⟩
  · rcases directoryMode with _ | directory <;> rcases fileMode with _ | file
    · simp at hmode
    · exact ⟨.fileOnly file, hfile file rfl, rfl, rfl, rfl⟩
    · exact ⟨.directoryOnly directory, hdirectory directory rfl, rfl, rfl, rfl⟩
    · exact ⟨.pair directory file, ⟨hdirectory directory rfl, hfile file rfl⟩, rfl, rfl, rfl⟩

/-! ### Reading the whole -/

theorem comma_not_mem_of_parseOwner {text user : Text} {group : Option Text}
    (h : parseOwner text = some (user, group)) : ',' ∉ text := by
  obtain ⟨huser, hgroup, rfl⟩ := parseOwner_eq_some_iff.1 h
  have hcomma : ',' ∉ user := huser.not_mem (by simp)
  cases group with
  | none => simpa using hcomma
  | some name =>
    have hname : ',' ∉ name := (hgroup name rfl).not_mem (by simp)
    simp [hcomma, hname]

/-- A specification is read from an owner and modes with a `,` between them. -/
theorem parse?_eq_some_iff {text : Text} {spec : Spec} : Spec.parse? text = some spec ↔
    ∃ owner modes, text = owner ++ ',' :: modes ∧
      parseOwner owner = some (spec.user, spec.group) ∧
      parseModes modes = some (spec.directoryMode, spec.fileMode) := by
  constructor
  · intro h
    unfold Spec.parse? at h
    split at h
    · cases h
    · next hbreak =>
      obtain ⟨rfl, hsep, -⟩ := Text.breakAt_eq_some_iff.1 hbreak
      obtain rfl := eq_of_beq hsep
      split at h
      · next howner hmodes =>
        cases h
        exact ⟨_, _, rfl, howner, hmodes⟩
      · cases h
  · rintro ⟨owner, modes, rfl, howner, hmodes⟩
    have hcomma : ∀ c ∈ owner, (c == ',') = false := by
      intro c hc
      simpa using ne_of_mem_of_not_mem hc (comma_not_mem_of_parseOwner howner)
    unfold Spec.parse?
    rw [Text.breakAt_append (by rfl) hcomma]
    dsimp only
    rw [howner, hmodes]

namespace SpecForm

variable {form : SpecForm}

theorem IsLegal.parse? (h : form.IsLegal) : Spec.parse? form.text = some form.spec :=
  parse?_eq_some_iff.2 ⟨form.owner, form.modes.text, rfl,
    parseOwner_eq_some_iff.2 ⟨h.user, h.group, rfl⟩, h.modes.parseModes⟩

theorem mode_spec (form : SpecForm) :
    form.spec.directoryMode.isSome ∨ form.spec.fileMode.isSome := by
  unfold spec
  cases form.modes with
  | directoryOnly directory => exact Or.inl rfl
  | _ => exact Or.inr rfl

theorem IsLegal.isBlank (h : form.IsLegal) : ∀ c ∈ form.text, Text.isBlank c = false := by
  have howner : ∀ c ∈ form.owner, Text.isBlank c = false := by
    unfold owner
    intro c hc
    rcases List.mem_append.1 hc with huser | hgroup
    · exact (h.user.plain c huser).1
    · cases hform : form.group with
      | none => simp [hform] at hgroup
      | some group =>
        rw [hform] at hgroup
        rcases List.mem_cons.1 hgroup with rfl | hc
        · decide
        · exact ((h.group group hform).plain c hc).1
  exact List.forall_mem_append.2
    ⟨howner, List.forall_mem_cons.2 ⟨by decide, fun c => h.modes.isBlank⟩⟩

end SpecForm

theorem exists_specForm {text : Text} {spec : Spec} (h : Spec.parse? text = some spec)
    (hmode : spec.directoryMode.isSome ∨ spec.fileMode.isSome) :
    ∃ form : SpecForm, form.IsLegal ∧ form.text = text ∧ form.spec = spec := by
  obtain ⟨_, _, rfl, howner, hmodes⟩ := parse?_eq_some_iff.1 h
  obtain ⟨huser, hgroup, rfl⟩ := parseOwner_eq_some_iff.1 howner
  obtain ⟨modes, hlegal, rfl, hdirectory, hfile⟩ := exists_modesForm hmodes hmode
  refine ⟨⟨spec.user, spec.group, modes⟩, ⟨huser, hgroup, hlegal⟩, rfl, ?_⟩
  unfold SpecForm.spec
  dsimp only
  rw [hdirectory, hfile]

/-- A specification is a legal form with blanks around it, and its parts are those of the form. -/
theorem ofText_eq_ok_iff {text : Text} {spec : Spec} : Spec.ofText text = .ok spec ↔
    ∃ form : SpecForm, form.IsLegal ∧ Text.IsWithin form.text text ∧ form.spec = spec := by
  constructor
  · intro h
    unfold Spec.ofText at h
    split at h
    · cases h
    · next hparts =>
      split at h
      · cases h
      · next hmodes =>
        cases h
        have hmode : spec.directoryMode.isSome ∨ spec.fileMode.isSome := by
          rw [not_and_or] at hmodes
          simpa [Option.isSome_iff_ne_none] using hmodes
        obtain ⟨form, hlegal, htext, hspec⟩ := exists_specForm hparts hmode
        exact ⟨form, hlegal, htext ▸ Text.isWithin_trim text, hspec⟩
  · rintro ⟨form, hlegal, hwithin, rfl⟩
    have hmode : ¬ (form.spec.directoryMode.isNone ∧ form.spec.fileMode.isNone) := by
      rw [not_and_or]
      simpa [Option.isSome_iff_ne_none] using form.mode_spec
    unfold Spec.ofText
    rw [hwithin.trim_eq hlegal.isBlank, hlegal.parse?]
    exact if_neg hmode

theorem ofValue_eq_ok_iff {value : Value} {spec : Spec} :
    Spec.ofValue value = .ok spec ↔ ∃ text, value = .str text ∧ Spec.ofText text = .ok spec := by
  constructor
  · intro h
    unfold Spec.ofValue Value.str? at h
    split at h
    · next text htext =>
      split at htext
      · cases htext
        exact ⟨text, rfl, h⟩
      · cases htext
    · cases h
  · rintro ⟨text, rfl, h⟩
    exact h

/-! ### One form only -/

theorem ModesForm.eq_of_text {modes modes' : ModesForm} (htext : modes.text = modes'.text)
    (hdirectory : modes.directoryMode = modes'.directoryMode)
    (hfile : modes.fileMode = modes'.fileMode) : modes = modes' := by
  -- only `FILE` and `/FILE` say the same, and they are not of one length
  cases modes <;> cases modes' <;>
    simp_all [ModesForm.text, ModesForm.directoryMode, ModesForm.fileMode]

theorem SpecForm.IsLegal.eq_of_isWithin {form form' : SpecForm} (h : form.IsLegal)
    (h' : form'.IsLegal)
    {text : Text} (hwithin : Text.IsWithin form.text text)
    (hwithin' : Text.IsWithin form'.text text) :
    form = form' := by
  have htext : form.text = form'.text :=
    (hwithin.trim_eq h.isBlank).symm.trans (hwithin'.trim_eq h'.isBlank)
  have hspec : form.spec = form'.spec := by
    -- one text is read in one way
    have hparse := h.parse?
    rw [htext, h'.parse?] at hparse
    exact (Option.some.inj hparse).symm
  obtain ⟨user, group, modes⟩ := form
  obtain ⟨user', group', modes'⟩ := form'
  obtain ⟨rfl, rfl, hdirectory, hfile⟩ := Spec.mk.inj hspec
  have hmodes : ',' :: modes.text = ',' :: modes'.text := List.append_cancel_left htext
  rw [ModesForm.eq_of_text (List.cons.inj hmodes).2 hdirectory hfile]

/-- A text is read as a specification just if it has the form of one between blanks. It then has one
form only, and what is read are the parts of this form, with one mode at least. -/
theorem specification_read_iff_form (text : Text) :
    (∀ spec, Spec.ofValue (.str text) = .ok spec ↔
      ∃ form : SpecForm, form.IsLegal ∧ Text.IsWithin form.text text ∧ form.spec = spec) ∧
    ((∃ spec, Spec.ofValue (.str text) = .ok spec) ↔
      ∃! form : SpecForm, form.IsLegal ∧ Text.IsWithin form.text text) ∧
    ∀ spec, Spec.ofValue (.str text) = .ok spec →
      spec.directoryMode.isSome ∨ spec.fileMode.isSome := by
  have hread (spec : Spec) : Spec.ofValue (.str text) = .ok spec ↔
      ∃ form : SpecForm, form.IsLegal ∧ Text.IsWithin form.text text ∧ form.spec = spec :=
    ofText_eq_ok_iff
  refine ⟨hread, ⟨?_, ?_⟩, ?_⟩
  · rintro ⟨spec, hspec⟩
    obtain ⟨form, hlegal, hwithin, -⟩ := (hread spec).1 hspec
    exact ⟨form, ⟨hlegal, hwithin⟩, fun other h => h.1.eq_of_isWithin hlegal h.2 hwithin⟩
  · rintro ⟨form, ⟨hlegal, hwithin⟩, -⟩
    exact ⟨form.spec, (hread form.spec).2 ⟨form, hlegal, hwithin, rfl⟩⟩
  · intro spec hspec
    obtain ⟨form, -, -, rfl⟩ := (hread spec).1 hspec
    exact form.mode_spec

/-- Both modes between blanks, a mode for files behind the `/`, and a `/` alone. -/
theorem specification_read_iff_form_blanks :
    (∃! form : SpecForm, form.IsLegal ∧ Text.IsWithin form.text " u:g,0750/640\n") ∧
    (∃ form : SpecForm, form.IsLegal ∧ Text.IsWithin form.text "u,/640" ∧
      form.spec = ⟨"u", none, none, some "640"⟩) ∧
    (Spec.ofValue (.str "u,/640") = .ok ⟨"u", none, none, some "640"⟩ ∧
      ((none : Option Text).isSome ∨ (some "640".toList).isSome)) ∧
    ¬ ∃! form : SpecForm, form.IsLegal ∧ Text.IsWithin form.text "u,/" := by
  have hboth : Spec.ofValue (.str " u:g,0750/640\n") =
      .ok ⟨"u", some "g", some "0750", some "640"⟩ :=
    rfl
  have hfile : Spec.ofValue (.str "u,/640") = .ok ⟨"u", none, none, some "640"⟩ := rfl
  obtain ⟨-, hone, -⟩ := specification_read_iff_form " u:g,0750/640\n"
  obtain ⟨hread, -, hmode⟩ := specification_read_iff_form "u,/640"
  obtain ⟨-, hnone, -⟩ := specification_read_iff_form "u,/"
  refine ⟨hone.1 ⟨_, hboth⟩, (hread _).1 hfile, ⟨hfile, hmode _ hfile⟩, fun hform => ?_⟩
  obtain ⟨spec, hspec⟩ := hnone.2 hform
  cases hspec

end Role

end PathRights
