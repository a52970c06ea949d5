import PathRights.Config.Merge
import PathRights.Proofs.Value.Alike

/-!
What a merged mapping holds at each key: what lies above, laid over what lies below, and only what
lies below where nothing lies above. So merging keeps mappings well keyed and does not see in which
order their keys stand.
-/

namespace PathRights.Config

open Mapping
open Value (Alike)

/-- The mapping that is merged with a mapping laid over `below`. -/
def baseOf (below : Option Value) : Mapping := (below.bind Value.entries?).getD []

theorem overlay_map (below : Option Value) (entries : Mapping) :
    overlay below (.map entries) = .map (merge (baseOf below) entries) := by
  rcases below with _ | _ | _ | _ <;> simp [overlay, baseOf, Value.entries?]

/-- What is no mapping replaces what is below. -/
theorem overlay_of_plain {value : Value} (plain : value.entries? = none) (below : Option Value) :
    overlay below value = value := by
  cases value with
  | scalar _ | list _ => simp [overlay]
  | map entries => simp [Value.entries?] at plain

/-- The value of a key after mappings were merged. -/
theorem get?_merge {entries : Mapping} (distinct : entries.Distinct) (base : Mapping)
    (key : Scalar) :
    (merge base entries).get? key =
      match entries.get? key with
      | none => base.get? key
      | some value => some (overlay (base.get? key) value) := by
  induction entries generalizing base with
  | nil => rfl
  | cons entry rest ih =>
    obtain ⟨k, v⟩ := entry
    obtain ⟨fresh, distinct⟩ := distinct_cons.1 distinct
    simp only [merge, ih distinct, get?_cons, get?_set]
    by_cases same : k.sameKey key
    · have absent : Mapping.get? rest key = none := by rw [← get?_congr rest same, fresh]
      simp only [same, if_true, absent, get?_congr base same]
    · simp only [same, Bool.false_eq_true, if_false]

theorem distinct_merge {base : Mapping} (distinct : base.Distinct) (entries : Mapping) :
    (merge base entries).Distinct := by
  induction entries generalizing base with
  | nil => exact distinct
  | cons entry rest ih => exact ih (distinct.set _ _)

theorem alike_baseOf {below below' : Option Value} (alike : AlikeAt below below') :
    Alike (.map (baseOf below)) (.map (baseOf below')) := by
  cases alike with
  | none => exact alike_nil
  | some alike =>
    cases alike with
    | same plain => simpa [baseOf, plain] using alike_nil
    | map distinct distinct' domain values => exact .map distinct distinct' domain values

/-- Values laid over alike ones are alike if they were before. -/
theorem alike_overlay {value value' : Value} (values : Alike value value')
    {below below' : Option Value} (alike : AlikeAt below below') :
    Alike (overlay below value) (overlay below' value') := by
  induction values generalizing below below' with
  | same plain => simpa only [overlay_of_plain plain] using Alike.same plain
  | @map entries entries' distinct distinct' domain _ ih =>
    obtain ⟨base, base', each⟩ := alike_iff.1 (alike_baseOf alike)
    rw [overlay_map, overlay_map]
    refine alike_iff.2 ⟨distinct_merge base _, distinct_merge base' _, fun key => ?_⟩
    rw [get?_merge distinct, get?_merge distinct']
    cases h : entries.get? key with
    | none =>
      have h' : entries'.get? key = none := by simpa [h] using domain key
      rw [h']
      exact each key
    | some value =>
      obtain ⟨value', h'⟩ := Option.isSome_iff_exists.1 (by simpa [h] using domain key)
      rw [h']
      exact .some (ih key value value' h h' (each key))

/-- Mappings merged from alike ones are alike. -/
theorem alike_merge {base base' entries entries' : Mapping} (bases : Alike (.map base) (.map base'))
    (alike : Alike (.map entries) (.map entries')) :
    Alike (.map (merge base entries)) (.map (merge base' entries')) := by
  simpa only [overlay_map, baseOf, Option.bind_some, Value.entries?, Option.getD_some] using
    alike_overlay alike (.some bases)

mutual

theorem alike_overlay_self (value : Value) {below : Option Value} (self : AlikeAt below below) :
    Alike (overlay below value) (overlay below value) :=
  match value with
  | .scalar _ | .list _ => by simpa only [overlay] using .same rfl
  | .map entries => by
    rw [overlay_map]
    exact alike_merge_self entries (alike_baseOf self)

/-- Whatever is merged onto a well-keyed mapping, the result is well keyed at every depth. -/
theorem alike_merge_self (entries : List (Scalar × Value)) {base : Mapping}
    (self : Alike (.map base) (.map base)) :
    Alike (.map (merge base entries)) (.map (merge base entries)) :=
  match entries with
  | [] => self
  | (key, value) :: rest =>
    alike_merge_self rest
      (alike_set self key (alike_overlay_self value ((alike_iff.1 self).2.2 key)))

end

end PathRights.Config
