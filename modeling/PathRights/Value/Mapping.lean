import PathRights.Value.Basic

/-!
Mappings: entries in order, no two with the same key. A key that is set again keeps its place and
its first spelling, and a new one comes last.
-/

namespace PathRights.Mapping

/-- The value of a key. -/
def get? (m : Mapping) (key : Scalar) : Option Value :=
  (m.find? fun entry => entry.1.sameKey key).map (·.2)

/-- The mapping with `value` at `key`. -/
def set : Mapping → Scalar → Value → Mapping
  | [], key, value => [(key, value)]
  | (k, v) :: rest, key, value =>
    if k.sameKey key then (k, value) :: rest else (k, v) :: set rest key value

/-- The mapping whose entries are set one after the other. -/
def ofEntries (entries : List (Scalar × Value)) : Mapping :=
  entries.foldl (fun m entry => set m entry.1 entry.2) []

/-- The value of a key that is a text. -/
def getText? (m : Mapping) (key : Text) : Option Value := get? m (.str key)

/-- The value of the key `key` after `value` was set at `at_`. -/
theorem get?_set (m : Mapping) (at_ key : Scalar) (value : Value) :
    get? (set m at_ value) key = if at_.sameKey key then some value else get? m key := by
  induction m with
  | nil =>
    by_cases h : at_.sameKey key <;> simp [set, get?, h]
  | cons entry rest ih =>
    obtain ⟨k, v⟩ := entry
    by_cases hk : k.sameKey at_
    · have same : k.sameKey key = at_.sameKey key := by
        cases h : at_.sameKey key with
        | true => exact Scalar.sameKey_trans hk h
        | false =>
          cases h' : k.sameKey key with
          | false => rfl
          | true =>
            rw [Scalar.sameKey_comm] at hk
            rw [Scalar.sameKey_trans hk h'] at h
            exact absurd h (by decide)
      by_cases hkey : at_.sameKey key <;> simp_all [set, get?]
    · by_cases hkey : k.sameKey key
      · have : at_.sameKey key = false := by
          cases h : at_.sameKey key with
          | false => rfl
          | true =>
            rw [Scalar.sameKey_comm] at h
            exact absurd (Scalar.sameKey_trans hkey h) (by simpa using hk)
        simp [set, get?, hk, hkey, this]
      · have step : ∀ m : Mapping, get? ((k, v) :: m) key = get? m key := by
          intro m; simp [get?, hkey]
        simp only [set, hk, Bool.false_eq_true, if_false, step, ih]

end PathRights.Mapping
