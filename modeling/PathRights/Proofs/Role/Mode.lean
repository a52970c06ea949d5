import Mathlib.Algebra.Group.Nat.Defs
import Mathlib.Data.List.Induction
import PathRights.Proofs.Role.Registry

/-! The modes of roles are permission modes. A specification writes a mode in three or four octal
digits, and the mode that directories get from the one of files has no bit above these twelve. -/

namespace PathRights

namespace Text

theorem digitValue_lt_of_isOctalDigit {c : Char} (h : isOctalDigit c = true) :
    digitValue c < 8 := by
  have hall : "01234567".toList.all (fun c => decide (digitValue c < 8)) = true := by decide
  simpa using List.all_eq_true.1 hall c (isOctalDigit_iff.1 h)

/-- Digits below the base write a number below the power of the base that they are many of. -/
theorem valueIn_lt {base : Nat} {text : Text} (h : ∀ c ∈ text, digitValue c < base) :
    valueIn base text < base ^ text.length := by
  induction text using List.reverseRecOn with
  | nil => exact Nat.one_pos
  | append_singleton text c ih =>
    have hinit : valueIn base text + 1 ≤ base ^ text.length :=
      ih fun d hd => h d (List.mem_append_left _ hd)
    have hlast : digitValue c < base := h c (by simp)
    calc valueIn base (text ++ [c])
        = valueIn base text * base + digitValue c := valueIn_append_singleton ..
      _ < (valueIn base text + 1) * base := by rw [Nat.succ_mul]; omega
      _ ≤ base ^ text.length * base := Nat.mul_le_mul_right base hinit
      _ = base ^ (text ++ [c]).length := by
        rw [List.length_append, List.length_singleton, Nat.pow_succ]

end Text

namespace Role

/-- The largest permission mode. -/
def largestMode : Nat := 0o7777

theorem valueIn_le_of_isMode {text : Text} (h : isMode text = true) :
    Text.valueIn 8 text ≤ largestMode := by
  simp only [isMode, Bool.and_eq_true, Bool.or_eq_true, beq_iff_eq, List.all_eq_true] at h
  obtain ⟨hlength, hdigits⟩ := h
  have hlt : Text.valueIn 8 text < 8 ^ text.length :=
    Text.valueIn_lt fun c hc => Text.digitValue_lt_of_isOctalDigit (hdigits c hc)
  have hpow : 8 ^ text.length ≤ 8 ^ 4 := Nat.pow_le_pow_right (by decide) (by omega)
  exact Nat.le_of_lt_succ (Nat.lt_of_lt_of_le hlt hpow)

theorem deriveDirectoryMode_le {mode : Nat} (h : mode ≤ largestMode) :
    deriveDirectoryMode mode ≤ largestMode := by
  have hmode : mode < 2 ^ 12 := Nat.lt_succ_of_le h
  have hread : (mode &&& readBits) >>> 2 < 2 ^ 12 := by
    have hand : mode &&& readBits ≤ mode := Nat.and_le_left
    have hshift : (mode &&& readBits) >>> 2 ≤ mode &&& readBits := Nat.shiftRight_le _ _
    omega
  exact Nat.le_of_lt_succ (Nat.or_lt_two_pow hmode hread)

/-! ### The modes of a specification -/

/-- The modes that are written are three or four octal digits each. -/
structure ModesWritten (directoryMode fileMode : Option Text) : Prop where
  directory : ∀ mode, directoryMode = some mode → isMode mode = true
  file : ∀ mode, fileMode = some mode → isMode mode = true

theorem modesWritten_of_ofValue {value : Value} {spec : Spec} (h : Spec.ofValue value = .ok spec) :
    ModesWritten spec.directoryMode spec.fileMode := by
  obtain ⟨text, -, htext⟩ := ofValue_eq_ok_iff.1 h
  obtain ⟨form, hlegal, -, rfl⟩ := ofText_eq_ok_iff.1 htext
  exact ⟨fun mode hmode => isMode_iff.2 (hlegal.modes.isModeWord (Or.inl hmode)),
    fun mode hmode => isMode_iff.2 (hlegal.modes.isModeWord (Or.inr hmode))⟩

/-! ### The modes of a role -/

theorem modeFor_ofSpec_le {name : Text} {spec : Spec} {userId : Int} {group : Text} {groupId : Int}
    (h : ModesWritten spec.directoryMode spec.fileMode) {isDirectory : Bool} {mode : Nat}
    (hmode : (ofSpec name spec userId group groupId).modeFor isDirectory = some mode) :
    mode ≤ largestMode := by
  have hfile : ∀ mode, spec.fileMode.map (Text.valueIn 8) = some mode → mode ≤ largestMode := by
    intro mode hmode
    obtain ⟨text, htext, rfl⟩ := Option.map_eq_some_iff.1 hmode
    exact valueIn_le_of_isMode (h.file text htext)
  cases isDirectory with
  | false => exact hfile mode hmode
  | true =>
    obtain rfl : (ofSpec name spec userId group groupId).directoryMode = mode :=
      Option.some.inj hmode
    unfold ofSpec
    dsimp only
    split
    · next text htext => exact valueIn_le_of_isMode (h.directory text htext)
    · refine deriveDirectoryMode_le ?_
      cases hwritten : spec.fileMode.map (Text.valueIn 8) with
      | none => exact Nat.zero_le _
      | some mode => exact hfile mode hwritten

theorem modeFor_le_of_parse {accounts : Accounts} {name spec : Value} {role : Role}
    (h : parse accounts name spec = .ok role) {isDirectory : Bool} {mode : Nat}
    (hmode : role.modeFor isDirectory = some mode) : mode ≤ largestMode := by
  obtain ⟨name', spec', userId, groupId, -, hspec, -, -, rfl⟩ := ofSpec_of_parse h
  exact modeFor_ofSpec_le (modesWritten_of_ofValue hspec) hmode

end Role

end PathRights
