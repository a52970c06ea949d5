import Mathlib.Data.Int.Bitwise
import PathRights.Proofs.Role.Mode

/-! The mode that directories get from the one of files, bit by bit. It differs from it in three
bits at most: each of those who may read may also enter. Of all numbers that have the bits of a mode
and let readers enter, it is the least: `deriveDirectoryMode_isLeast`. -/

namespace PathRights.Role

/-- Those whom a mode tells apart. -/
inductive Party where
  | owner
  | group
  | others
deriving DecidableEq, Repr

namespace Party

/-- The place of the bit that lets them read. -/
def readBit : Party → Nat
  | owner => 8
  | group => 5
  | others => 2

/-- The place of the bit that lets them execute a file and enter a directory. -/
def executeBit : Party → Nat
  | owner => 6
  | group => 3
  | others => 0

theorem readBit_eq (party : Party) : party.readBit = party.executeBit + 2 := by cases party <;> rfl

theorem readBit_ne_executeBit (party other : Party) : party.readBit ≠ other.executeBit := by
  cases party <;> cases other <;> decide

end Party

/-! ### Bits -/

/-- All bits of a number are bits of another. Below zero, a number has all bits from some place
on. -/
def BitsWithin (inner outer : ℤ) : Prop :=
  ∀ bit, inner.testBit bit = true → outer.testBit bit = true

theorem eq_of_testBit_eq {m n : ℤ} (h : ∀ bit, m.testBit bit = n.testBit bit) : m = n := by
  -- past both numbers, one of them has all bits and the other none
  have apart (a b : Nat) : a.testBit (a + b) ≠ !b.testBit (a + b) := by
    have ha : a < 2 ^ (a + b) := Nat.lt_of_le_of_lt (Nat.le_add_right a b) Nat.lt_two_pow_self
    have hb : b < 2 ^ (a + b) := Nat.lt_of_le_of_lt (Nat.le_add_left b a) Nat.lt_two_pow_self
    rw [Nat.testBit_lt_two_pow ha, Nat.testBit_lt_two_pow hb]
    decide
  cases m with
  | ofNat a =>
    cases n with
    | ofNat b => exact congrArg Int.ofNat (Nat.eq_of_testBit_eq h)
    | negSucc b => exact absurd (h (a + b)) (apart a b)
  | negSucc a =>
    cases n with
    | ofNat b => exact absurd (Nat.add_comm a b ▸ (h (a + b)).symm) (apart b a)
    | negSucc b =>
      exact congrArg Int.negSucc (Nat.eq_of_testBit_eq fun bit => Bool.not_inj (h bit))

theorem BitsWithin.antisymm {m n : ℤ} (h : BitsWithin m n) (h' : BitsWithin n m) : m = n :=
  eq_of_testBit_eq fun bit => Bool.eq_iff_iff.2 ⟨h bit, h' bit⟩

theorem testBit_readBits {bit : Nat} :
    readBits.testBit bit = true ↔ ∃ party : Party, bit = party.readBit := by
  constructor
  · intro h
    have hlow : bit < 9 := by
      refine Nat.lt_of_not_le fun hhigh => ?_
      have hread : readBits < 2 ^ bit :=
        Nat.lt_of_lt_of_le (by decide : readBits < 2 ^ 9) (Nat.pow_le_pow_right (by decide) hhigh)
      rw [Nat.testBit_lt_two_pow hread] at h
      cases h
    have hplaces : ∀ bit < 9, readBits.testBit bit = true → bit = 8 ∨ bit = 5 ∨ bit = 2 := by decide
    rcases hplaces bit hlow h with rfl | rfl | rfl
    · exact ⟨.owner, rfl⟩
    · exact ⟨.group, rfl⟩
    · exact ⟨.others, rfl⟩
  · rintro ⟨party, rfl⟩
    cases party <;> decide

/-- The bits of the mode for directories: those of the mode for files, and a way in for each
reader. -/
theorem testBit_deriveDirectoryMode {mode bit : Nat} :
    (deriveDirectoryMode mode).testBit bit = true ↔
      mode.testBit bit = true ∨
        ∃ party : Party, bit = party.executeBit ∧ mode.testBit party.readBit = true := by
  unfold deriveDirectoryMode
  rw [Nat.testBit_or, Nat.testBit_shiftRight, Nat.testBit_and, Bool.or_eq_true, Bool.and_eq_true,
    testBit_readBits]
  refine or_congr_right ⟨?_, ?_⟩
  · rintro ⟨hmode, party, hparty⟩
    have hbit := party.readBit_eq
    exact ⟨party, by omega, hparty ▸ hmode⟩
  · rintro ⟨party, rfl, hmode⟩
    have hbit := party.readBit_eq
    have hplace : 2 + party.executeBit = party.readBit := by omega
    exact ⟨hplace ▸ hmode, party, hplace⟩

/-! ### The least mode -/

/-- Whoever may read may enter. -/
def LetsReadersEnter (mode : ℤ) : Prop :=
  ∀ party : Party, mode.testBit party.readBit = true → mode.testBit party.executeBit = true

/-- The number is the least of those that have all bits of a mode and let readers enter. -/
structure IsLeastOpening (mode opening : ℤ) : Prop where
  above : BitsWithin mode opening
  enters : LetsReadersEnter opening
  least : ∀ other, BitsWithin mode other → LetsReadersEnter other → BitsWithin opening other

theorem IsLeastOpening.unique {mode opening opening' : ℤ} (h : IsLeastOpening mode opening)
    (h' : IsLeastOpening mode opening') : opening = opening' :=
  (h.least _ h'.above h'.enters).antisymm (h'.least _ h.above h.enters)

theorem isLeastOpening_deriveDirectoryMode (mode : Nat) :
    IsLeastOpening mode (deriveDirectoryMode mode) := by
  refine ⟨fun bit h => testBit_deriveDirectoryMode.2 (Or.inl h), fun party h => ?_,
    fun other habove henters bit h => ?_⟩
  · rcases testBit_deriveDirectoryMode.1 h with hmode | ⟨other, hbit, -⟩
    · exact testBit_deriveDirectoryMode.2 (Or.inr ⟨party, rfl, hmode⟩)
    · exact absurd hbit (party.readBit_ne_executeBit other)
  · rcases testBit_deriveDirectoryMode.1 h with hmode | ⟨party, rfl, hmode⟩
    · exact habove bit hmode
    · exact henters party (habove party.readBit hmode)

/-- The mode that directories get is the least, by its bits, that has those of the mode for files
and lets readers enter. So it stays when it is taken for a mode of files again, it grows with the
mode of files, it adds nothing but a way in for those who may read, and it is a permission mode if
the mode of files is one. -/
theorem deriveDirectoryMode_isLeast (mode : Nat) :
    (∀ opening : ℤ, IsLeastOpening mode opening ↔ opening = deriveDirectoryMode mode) ∧
    deriveDirectoryMode (deriveDirectoryMode mode) = deriveDirectoryMode mode ∧
    (∀ larger : Nat, BitsWithin mode larger →
      BitsWithin (deriveDirectoryMode mode) (deriveDirectoryMode larger)) ∧
    (∀ bit, (∀ party : Party, bit ≠ party.executeBit) →
      (deriveDirectoryMode mode).testBit bit = mode.testBit bit) ∧
    (∀ party : Party, (deriveDirectoryMode mode).testBit party.executeBit =
      (mode.testBit party.executeBit || mode.testBit party.readBit)) ∧
    (mode ≤ largestMode → deriveDirectoryMode mode ≤ largestMode) := by
  have hleast := isLeastOpening_deriveDirectoryMode mode
  refine ⟨fun opening => ⟨fun h => h.unique hleast, fun h => h ▸ hleast⟩, ?_,
    fun larger hlarger => ?_,
    fun bit hbit => ?_, fun party => ?_, deriveDirectoryMode_le⟩
  · have hagain := isLeastOpening_deriveDirectoryMode (deriveDirectoryMode mode)
    exact Int.ofNat_inj.1
      (BitsWithin.antisymm (hagain.least _ (fun _ h => h) hleast.enters) hagain.above)
  · have hupper := isLeastOpening_deriveDirectoryMode larger
    exact hleast.least _ (fun bit h => hupper.above bit (hlarger bit h)) hupper.enters
  · rw [Bool.eq_iff_iff, testBit_deriveDirectoryMode]
    exact or_iff_left fun ⟨party, heq, _⟩ => hbit party heq
  · rw [Bool.eq_iff_iff, testBit_deriveDirectoryMode, Bool.or_eq_true]
    refine or_congr_right ⟨?_, fun h => ⟨party, rfl, h⟩⟩
    rintro ⟨other, heq, hother⟩
    have hbit := party.readBit_eq
    have hbit' := other.readBit_eq
    rwa [show party.readBit = other.readBit by omega]

/-- A mode with a bit above the permissions, from which the group may read and not execute. -/
theorem deriveDirectoryMode_isLeast_wide :
    IsLeastOpening (0o12640 : Nat) (0o12750 : Nat) ∧
      BitsWithin (deriveDirectoryMode 0o12640) (deriveDirectoryMode 0o12644) ∧
      (deriveDirectoryMode 0o12640).testBit 12 = (0o12640 : Nat).testBit 12 ∧
      (0o640 : Nat) ≤ largestMode ∧ deriveDirectoryMode 0o640 ≤ largestMode := by
  obtain ⟨hleast, -, hmono, hkeeps, -, -⟩ := deriveDirectoryMode_isLeast 0o12640
  obtain ⟨-, -, -, -, -, hbound⟩ := deriveDirectoryMode_isLeast 0o640
  have hwithin : BitsWithin (0o12640 : Nat) (0o12644 : Nat) := by
    intro bit h
    have hor : (0o12644 : Nat) = 0o12640 ||| 0o4 := by decide
    show Nat.testBit 0o12644 bit = true
    rw [hor, Nat.testBit_or, show Nat.testBit 0o12640 bit = true from h, Bool.true_or]
  exact ⟨(hleast _).2 (by decide), hmono 0o12644 hwithin,
    hkeeps 12 (by intro party; cases party <;> decide), by decide, hbound (by decide)⟩

end PathRights.Role
