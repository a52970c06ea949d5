import PathRights.Value.Printer

/-! How values look when they are shown. A check that looks at the text of a value takes everything
for a text that reads like one; but only texts and numbers have much choice. All other values are
one of a few words, or show a point, a sign or a bracket: `Value.shown_cases`. -/

namespace PathRights

namespace Text

/-- The text shows a point, a sign, a quotation mark or a bracket. -/
def ShowsMark (text : Text) : Prop := ∃ c ∈ ".-+".toList ++ Foreign.marks, c ∈ text

theorem ShowsMark.append {text : Text} (h : ShowsMark text) (front : Text) :
    ShowsMark (front ++ text) := by
  obtain ⟨c, hmark, hmem⟩ := h
  exact ⟨c, hmark, List.mem_append_right front hmem⟩

end Text

open Text (ShowsMark)

theorem Binary64.showsMark_layOut (digits : Text) (point : Int) :
    ShowsMark (layOut digits point) := by
  unfold layOut
  dsimp only
  split
  · split
    · exact ⟨'.', by simp, by simp⟩
    · exact ⟨'.', by simp, by simp⟩
  · by_cases hneg : point - 1 < 0
    · exact ⟨'-', by simp, by simp [hneg]⟩
    · exact ⟨'+', by simp, by simp [hneg]⟩

theorem Binary64.showsMark_finite (negative : Bool) (mantissa : Nat) (exponent : Int) :
    ShowsMark (Binary64.text (.finite negative mantissa exponent)) := by
  unfold Binary64.text
  dsimp only
  refine ShowsMark.append ?_ _
  split
  · exact ⟨'.', by simp, by decide⟩
  · exact Binary64.showsMark_layOut _ _

theorem Date.showsMark_text (date : Date) : ShowsMark date.text :=
  ⟨'-', by simp, by simp [Date.text]⟩

theorem Moment.showsMark_text (moment : Moment) : ShowsMark moment.text :=
  ⟨'-', by simp, by simp [Moment.text, Date.text]⟩

namespace Value

theorem isShowable_natCast {n : Nat} :
    (Value.int n).isShowable = true ↔ n < Nat.pow 10 Text.digitLimit := by
  show decide (n < Nat.pow 10 Text.digitLimit) = true ↔ _
  exact decide_eq_true_iff

/-- Some numbers are too long to be shown. -/
theorem exists_not_isShowable : ∃ n : Nat, (Value.int n).isShowable = false := by
  have hlarge : ∀ limit : Nat, ∃ n, ¬ n < limit := fun limit => ⟨limit, Nat.lt_irrefl limit⟩
  obtain ⟨n, hn⟩ := hlarge (Nat.pow 10 Text.digitLimit)
  exact ⟨n, Bool.eq_false_iff.2 fun h => hn (isShowable_natCast.1 h)⟩

/-- What values are shown as that are words, and what stands for a value that is not shown. -/
def words : List Text := ["", "None", "True", "False", "inf", "-inf", "nan"]

/-- A value is a text or an integer, or it is shown as a word, or it shows a mark. -/
theorem shown_cases (value : Value) : (∃ text, value = .str text) ∨ (∃ n, value = .int n) ∨
    value.text ∈ words ∨ ShowsMark value.text := by
  have word : ∀ {value : Value}, value.text ∈ words → (∃ text, value = .str text) ∨
      (∃ n, value = .int n) ∨ value.text ∈ words ∨ ShowsMark value.text :=
    fun h => Or.inr (Or.inr (Or.inl h))
  have mark : ∀ {value : Value}, ShowsMark value.text → (∃ text, value = .str text) ∨
      (∃ n, value = .int n) ∨ value.text ∈ words ∨ ShowsMark value.text :=
    fun h => Or.inr (Or.inr (Or.inr h))
  cases value with
  | scalar s =>
    cases s with
    | null => exact word (by decide +kernel)
    | bool b => exact word (by revert b; decide +kernel)
    | int n => exact Or.inr (Or.inl ⟨n, rfl⟩)
    | float x =>
      cases x with
      | finite negative mantissa exponent =>
        exact mark (Binary64.showsMark_finite negative mantissa exponent)
      | infinite negative => exact word (by revert negative; decide +kernel)
      | nan => exact word (by decide +kernel)
    | date date => exact mark date.showsMark_text
    | moment moment => exact mark moment.showsMark_text
    | str text => exact Or.inl ⟨text, rfl⟩
    | foreign object =>
      cases hshown : object.shown with
      | none => exact word (by simp [text, inner, Scalar.inner, hshown, words])
      | some shown =>
        obtain ⟨c, hmark, hmem⟩ := object.showsMark shown hshown
        refine mark ⟨c, List.mem_append_right _ hmark, ?_⟩
        simpa [text, inner, Scalar.inner, hshown] using hmem
  | list items =>
    refine mark ⟨'[', by decide, ?_⟩
    show '[' ∈ inner (.list items)
    simp [inner]
  | map entries =>
    refine mark ⟨'\x7b', by decide, ?_⟩
    show '\x7b' ∈ inner (.map entries)
    simp [inner]

end Value

end PathRights
