import Mathlib.Data.Option.Basic
import PathRights.Value.Mapping

/-!
Equality of values up to the order of keys. A mapping is well keyed when no two of its entries have
the same key. Then what it holds is known from its keys alone, and two mappings are alike when they
have the same keys and hold alike values there. Setting a key keeps both.
-/

namespace PathRights

namespace Mapping

/-- No two entries have the same key. -/
def Distinct (m : Mapping) : Prop :=
  (m.map (·.1)).Pairwise fun key other => key.sameKey other = false

theorem get?_cons (k : Scalar) (v : Value) (m : Mapping) (key : Scalar) :
    get? ((k, v) :: m) key = if k.sameKey key then some v else get? m key := by
  by_cases h : k.sameKey key <;> simp [get?, h]

/-- The same key, spelled differently, has the same value. -/
theorem get?_congr (m : Mapping) {key other : Scalar} (same : key.sameKey other) :
    get? m key = get? m other := by
  have identity : key.identity = other.identity := by simpa [Scalar.sameKey] using same
  simp [get?, Scalar.sameKey, identity]

theorem get?_eq_none_iff {m : Mapping} {key : Scalar} :
    get? m key = none ↔ ∀ k ∈ m.map (·.1), k.sameKey key = false := by
  simp [get?]

/-- A key that is there keeps its place, and a new one comes last. -/
theorem keys_set (m : Mapping) (key : Scalar) (value : Value) :
    (set m key value).map (·.1) =
      if (get? m key).isSome then m.map (·.1) else m.map (·.1) ++ [key] := by
  induction m with
  | nil => simp [set, get?]
  | cons entry rest ih =>
    obtain ⟨k, v⟩ := entry
    by_cases same : k.sameKey key
    · simp [set, get?_cons, same]
    · by_cases known : (get? rest key).isSome <;> simp [set, get?_cons, same, known, ih]

theorem Distinct.set {m : Mapping} (h : m.Distinct) (key : Scalar) (value : Value) :
    (set m key value).Distinct := by
  rw [Distinct, keys_set]
  split
  · exact h
  · rename_i absent
    have fresh := get?_eq_none_iff.1 (Option.not_isSome_iff_eq_none.1 absent)
    exact List.pairwise_append.2
      ⟨h, List.pairwise_singleton _ _, fun k hk other hother =>
        List.mem_singleton.1 hother ▸ fresh k hk⟩

/-- In a well-keyed mapping the key of the first entry is not among the others. -/
theorem distinct_cons {k : Scalar} {v : Value} {m : Mapping} :
    Distinct ((k, v) :: m) ↔ get? m k = none ∧ m.Distinct := by
  simp only [Distinct, List.map_cons, List.pairwise_cons, get?_eq_none_iff,
    Scalar.sameKey_comm k]

end Mapping

/-- The values are equal but for the order of keys in well-keyed mappings, at any depth. Values that
are no mappings are equal outright, with all that lists hold. -/
inductive Value.Alike : Value → Value → Prop
  | same {value : Value} (plain : value.entries? = none) : Alike value value
  | map {entries entries' : Mapping} (distinct : entries.Distinct) (distinct' : entries'.Distinct)
      (domain : ∀ key, (entries.get? key).isSome = (entries'.get? key).isSome)
      (values : ∀ key value value', entries.get? key = some value →
        entries'.get? key = some value' → Alike value value') :
      Alike (.map entries) (.map entries')

namespace Value.Alike

variable {value value' value'' : Value}

theorem symm (alike : Alike value value') : Alike value' value := by
  induction alike with
  | same plain => exact .same plain
  | map distinct distinct' domain _ ih =>
    exact .map distinct' distinct (fun key => (domain key).symm)
      fun key value' value h' h => ih key value value' h h'

theorem trans (first : Alike value value') (second : Alike value' value'') :
    Alike value value'' := by
  induction first generalizing value'' with
  | same plain => exact second
  | @map entries entries' distinct _ domain _ ih =>
    cases second with
    | same plain => simp [entries?] at plain
    | map _ distinct'' domain' values' =>
      refine .map distinct distinct'' (fun key => (domain key).trans (domain' key))
        fun key value value'' h h'' => ?_
      obtain ⟨value', h'⟩ := Option.isSome_iff_exists.1 (by simpa [h] using (domain key).symm)
      exact ih key value value' h h' (values' key value' value'' h' h'')

end Value.Alike

namespace Mapping

open Value (Alike)

/-- Both keys are absent, or both are there with alike values. -/
abbrev AlikeAt : Option Value → Option Value → Prop := Option.Rel Alike

theorem alikeAt_iff {found found' : Option Value} :
    AlikeAt found found' ↔ found.isSome = found'.isSome ∧
      ∀ value value', found = some value → found' = some value' → Alike value value' := by
  cases found <;> cases found' <;> simp

theorem alike_iff {m m' : Mapping} :
    Alike (.map m) (.map m') ↔
      m.Distinct ∧ m'.Distinct ∧ ∀ key, AlikeAt (m.get? key) (m'.get? key) := by
  constructor
  · intro alike
    cases alike with
    | same plain => simp [Value.entries?] at plain
    | map distinct distinct' domain values =>
      exact ⟨distinct, distinct', fun key => alikeAt_iff.2 ⟨domain key, values key⟩⟩
  · rintro ⟨distinct, distinct', each⟩
    exact .map distinct distinct' (fun key => (alikeAt_iff.1 (each key)).1)
      fun key => (alikeAt_iff.1 (each key)).2

theorem alike_nil : Alike (.map []) (.map []) := alike_iff.2 ⟨.nil, .nil, fun _ => .none⟩

theorem alike_set {m m' : Mapping} {value value' : Value} (alike : Alike (.map m) (.map m'))
    (key : Scalar) (values : Alike value value') :
    Alike (.map (m.set key value)) (.map (m'.set key value')) := by
  obtain ⟨distinct, distinct', each⟩ := alike_iff.1 alike
  refine alike_iff.2 ⟨distinct.set key value, distinct'.set key value', fun other => ?_⟩
  rw [get?_set, get?_set]
  split
  · exact .some values
  · exact each other

/-- Two different keys can be set in either order. -/
theorem alike_set_set {m m' : Mapping} {key key' : Scalar} {value value' : Value}
    (alike : Alike (.map m) (.map m')) (other : key.sameKey key' = false)
    (self : Alike value value) (self' : Alike value' value') :
    Alike (.map ((m.set key value).set key' value'))
      (.map ((m'.set key' value').set key value)) := by
  obtain ⟨distinct, distinct', each⟩ := alike_iff.1 alike
  refine alike_iff.2 ⟨(distinct.set _ _).set _ _, (distinct'.set _ _).set _ _, fun k => ?_⟩
  simp only [get?_set]
  by_cases first : key.sameKey k
  · have second : key'.sameKey k = false := Bool.eq_false_iff.2 fun same => by
      rw [Scalar.sameKey_comm] at same
      simp [Scalar.sameKey_trans first same] at other
    simpa [first, second] using self
  · by_cases second : key'.sameKey k
    · simpa [first, second] using self'
    · simpa [first, second] using each k

theorem eq_nil_iff {m : Mapping} : m = [] ↔ ∀ key, m.get? key = none := by
  constructor
  · rintro rfl key
    rfl
  · intro absent
    cases m with
    | nil => rfl
    | cons entry rest => simpa [get?] using absent entry.1

/-- A mapping is empty if one like it is. -/
theorem eq_nil_of_alike {m m' : Mapping} (alike : Alike (.map m) (.map m')) :
    m = [] ↔ m' = [] := by
  obtain ⟨-, -, each⟩ := alike_iff.1 alike
  have domain (key : Scalar) : m.get? key = none ↔ m'.get? key = none := by
    rw [← Option.not_isSome_iff_eq_none, (alikeAt_iff.1 (each key)).1,
      Option.not_isSome_iff_eq_none]
  simp only [eq_nil_iff, domain]

end Mapping

end PathRights
