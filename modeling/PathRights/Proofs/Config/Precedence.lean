import PathRights.Config.Layers
import PathRights.Proofs.Config.Merge

/-!
What layers mean when they are merged. `IsMerge` says it from the highest layer down: a key is known
if some layer has it, the highest such layer gives it a plain value, and a mapping is merged with
those below it as far as no plain value stands between. Merging the layers from the lowest up, two
at a time, comes to the same mapping, and there is only one.
-/

namespace PathRights

/-- No mapping in the value has a key twice, at any depth. Lists are not looked into. -/
def Value.WellKeyed (value : Value) : Prop := Alike value value

namespace Mapping

theorem wellKeyed_iff {m : Mapping} : (Value.map m).WellKeyed ↔
    m.Distinct ∧ ∀ key value, m.get? key = some value → value.WellKeyed := by
  unfold Value.WellKeyed
  rw [alike_iff]
  constructor
  · rintro ⟨distinct, -, each⟩
    exact ⟨distinct, fun key value h => (alikeAt_iff.1 (each key)).2 value value h h⟩
  · rintro ⟨distinct, values⟩
    refine ⟨distinct, distinct, fun key => alikeAt_iff.2 ⟨rfl, fun value value' h h' => ?_⟩⟩
    obtain rfl : value = value' := Option.some.inj (h.symm.trans h')
    exact values key value h

/-- Well-keyed mappings are equal if their keys are, in order and spelling, and their values. -/
theorem ext_get? {m m' : Mapping} (distinct : m.Distinct) (keys : m.map (·.1) = m'.map (·.1))
    (values : ∀ key, m.get? key = m'.get? key) : m = m' := by
  induction m generalizing m' with
  | nil => exact (List.map_eq_nil_iff.1 keys.symm).symm
  | cons entry rest ih =>
    obtain ⟨key, value⟩ := entry
    cases m' with
    | nil => cases keys
    | cons entry' rest' =>
      obtain ⟨key', value'⟩ := entry'
      obtain ⟨rfl, restKeys⟩ : key = key' ∧ rest.map (·.1) = rest'.map (·.1) := by simpa using keys
      obtain ⟨fresh, distinct⟩ := distinct_cons.1 distinct
      have fresh' : Mapping.get? rest' key = none := by
        rw [get?_eq_none_iff, ← restKeys, ← get?_eq_none_iff]
        exact fresh
      obtain rfl : value = value' := by simpa [get?_cons] using values key
      rw [ih distinct restKeys fun other => ?_]
      by_cases same : key.sameKey other
      · rw [← get?_congr rest same, ← get?_congr rest' same, fresh, fresh']
      · simpa [get?_cons, same] using values other

theorem sizeOf_lt_of_get? {m : Mapping} {key : Scalar} {value : Value}
    (h : m.get? key = some value) : sizeOf value < sizeOf m := by
  obtain ⟨⟨k, v⟩, hfind, rfl⟩ := Option.map_eq_some_iff.1 h
  have hentry := List.sizeOf_lt_of_mem (List.mem_of_find?_eq_some hfind)
  simp only [Prod.mk.sizeOf_spec] at hentry
  show sizeOf v < sizeOf m
  omega

end Mapping

namespace Config

open Mapping

/-! ### Keys -/

/-- None of the keys is the same as the other one. -/
def isNew (keys : List Scalar) (other : Scalar) : Bool := keys.all fun key => !key.sameKey other

theorem isNew_iff {keys : List Scalar} {other : Scalar} :
    isNew keys other = true ↔ ∀ key ∈ keys, key.sameKey other = false := by
  simp [isNew]

theorem isNew_keys {m : Mapping} {key : Scalar} :
    isNew (m.map (·.1)) key = true ↔ m.get? key = none := by
  rw [isNew_iff, get?_eq_none_iff]

/-- The keys as they appear first, without those that one in front of them is the same as. -/
def firstKeys : List Scalar → List Scalar
  | [] => []
  | key :: rest => key :: (firstKeys rest).filter (isNew [key])

theorem firstKeys_append (keys more : List Scalar) :
    firstKeys (keys ++ more) = firstKeys keys ++ (firstKeys more).filter (isNew keys) := by
  induction keys with
  | nil =>
    have all : (firstKeys more).filter (isNew []) = firstKeys more :=
      List.filter_eq_self.2 fun _ _ => rfl
    rw [all]
    rfl
  | cons key keys ih =>
    have split : isNew (key :: keys) = fun other => isNew [key] other && isNew keys other := by
      funext other
      simp [isNew]
    simp [firstKeys, ih, List.filter_filter, split]

theorem pairwise_firstKeys (keys : List Scalar) :
    (firstKeys keys).Pairwise fun key other => key.sameKey other = false := by
  induction keys with
  | nil => exact .nil
  | cons key keys ih => exact List.pairwise_cons.2 ⟨by simp [isNew], ih.filter _⟩

theorem firstKeys_of_distinct {m : Mapping} (distinct : m.Distinct) :
    firstKeys (m.map (·.1)) = m.map (·.1) := by
  unfold Mapping.Distinct at distinct
  generalize m.map (·.1) = keys at distinct
  induction distinct with
  | nil => rfl
  | cons fresh _ ih =>
    rw [firstKeys, ih, List.filter_eq_self.2]
    simpa [isNew] using fresh

/-- What is new to the first keys is new to all of them. -/
theorem isNew_firstKeys (keys : List Scalar) (other : Scalar) :
    isNew (firstKeys keys) other = isNew keys other := by
  induction keys with
  | nil => rfl
  | cons key keys ih =>
    have split (keys : List Scalar) :
        isNew (key :: keys) other = (!key.sameKey other && isNew keys other) := rfl
    rw [firstKeys, split, split, ← ih]
    cases same : key.sameKey other with
    | true => rfl
    | false =>
      show isNew ((firstKeys keys).filter (isNew [key])) other = isNew (firstKeys keys) other
      rw [Bool.eq_iff_iff, isNew_iff, isNew_iff]
      constructor
      · intro h k hk
        -- a key that was left out is the same as the one in front of it, which is not the other one
        cases hkey : key.sameKey k with
        | false => exact h k (List.mem_filter.2 ⟨hk, by simp [isNew, hkey]⟩)
        | true =>
          refine Bool.eq_false_iff.2 fun hsame => ?_
          rw [Scalar.sameKey_trans hkey hsame] at same
          cases same
      · exact fun h k hk => h k (List.mem_filter.1 hk).1

/-- New keys come behind those that are there. -/
theorem keys_merge {entries : Mapping} (distinct : entries.Distinct) (base : Mapping) :
    (merge base entries).map (·.1) =
      base.map (·.1) ++ (entries.map (·.1)).filter (isNew (base.map (·.1))) := by
  induction entries generalizing base with
  | nil => exact (List.append_nil _).symm
  | cons entry rest ih =>
    obtain ⟨key, value⟩ := entry
    obtain ⟨fresh, distinct⟩ := distinct_cons.1 distinct
    rw [merge, ih distinct, keys_set, List.map_cons, List.filter_cons]
    cases known : base.get? key with
    | some _ =>
      have old : ¬ isNew (base.map (·.1)) key = true := by simp [isNew_keys, known]
      rw [if_neg old]
      rfl
    | none =>
      have rest_new : (rest.map (·.1)).filter (isNew (base.map (·.1) ++ [key])) =
          (rest.map (·.1)).filter (isNew (base.map (·.1))) := by
        refine List.filter_congr fun other hother => ?_
        have different : key.sameKey other = false := by
          rw [Scalar.sameKey_comm]
          exact get?_eq_none_iff.1 fresh other hother
        simp [isNew, different]
      rw [if_pos (isNew_keys.2 known), if_neg (by simp), rest_new, List.append_assoc]
      rfl

/-! ### The law -/

/-- The values of a key in the layers that have it. -/
def valuesAt (layers : List Mapping) (key : Scalar) : List Value := layers.filterMap (·.get? key)

/-- The mappings in front of the first value that is none. -/
def block : List Value → List Mapping
  | .map entries :: rest => entries :: block rest
  | _ => []

/-- The mapping is what the layers, of which the first is the highest, make together. -/
inductive IsMerge : List Mapping → Mapping → Prop
  | intro {layers : List Mapping} {result : Mapping}
      (keys : result.map (·.1) = firstKeys (layers.reverse.flatMap fun layer => layer.map (·.1)))
      (absent : ∀ key, valuesAt layers key = [] → result.get? key = none)
      (plain : ∀ key value, (valuesAt layers key).head? = some value → value.entries? = none →
        result.get? key = some value)
      (mapping : ∀ key entries, (valuesAt layers key).head? = some (.map entries) →
        ∃ inner, result.get? key = some (.map inner))
      (inside : ∀ key entries inner, (valuesAt layers key).head? = some (.map entries) →
        result.get? key = some (.map inner) → IsMerge (block (valuesAt layers key)) inner) :
      IsMerge layers result

theorem IsMerge.distinct {layers : List Mapping} {result : Mapping} (h : IsMerge layers result) :
    result.Distinct := by
  cases h with
  | intro keys =>
    unfold Mapping.Distinct
    rw [keys]
    exact pairwise_firstKeys _

/-- The law leaves nothing open. -/
theorem IsMerge.unique {layers : List Mapping} {result result' : Mapping}
    (h : IsMerge layers result) (h' : IsMerge layers result') : result = result' := by
  induction h generalizing result' with
  | @intro layers result keys absent plain mapping inside ih =>
    have distinct := (IsMerge.intro keys absent plain mapping inside).distinct
    cases h' with
    | intro keys' absent' plain' mapping' inside' =>
      refine ext_get? distinct (keys.trans keys'.symm) fun key => ?_
      cases hhighest : (valuesAt layers key).head? with
      | none =>
        have hvalues := List.head?_eq_none_iff.1 hhighest
        rw [absent key hvalues, absent' key hvalues]
      | some value =>
        cases value with
        | scalar _ | list _ => rw [plain key _ hhighest rfl, plain' key _ hhighest rfl]
        | map entries =>
          obtain ⟨inner, hinner⟩ := mapping key entries hhighest
          obtain ⟨inner', hinner'⟩ := mapping' key entries hhighest
          have same := ih key entries inner hhighest hinner
            (inside' key entries inner' hhighest hinner')
          rw [hinner, hinner', same]

/-! ### Merging -/

/-- The layers, of which the first is the highest, merged from the lowest up. -/
def mergeAll (layers : List Mapping) : Mapping :=
  layers.foldr (fun layer below => merge below layer) []

/-- The values of one key, of which the first is the highest, laid over one another. -/
def overlayAll (values : List Value) : Option Value :=
  values.foldr (fun value below => some (overlay below value)) none

theorem overlayAll_of_plain {value : Value} (plain : value.entries? = none) (rest : List Value) :
    overlayAll (value :: rest) = some value :=
  congrArg some (overlay_of_plain plain _)

/-- Where a mapping is laid over values, only the block of mappings in front of them counts. -/
theorem baseOf_overlayAll (values : List Value) :
    baseOf (overlayAll values) = mergeAll (block values) := by
  induction values with
  | nil => rfl
  | cons value rest ih =>
    cases value with
    | scalar _ | list _ => rw [overlayAll_of_plain rfl]; rfl
    | map entries =>
      show baseOf (some (overlay (overlayAll rest) (.map entries))) =
        merge (mergeAll (block rest)) entries
      rw [overlay_map, ih]
      rfl

theorem overlayAll_map {values : List Value} {entries : Mapping}
    (h : values.head? = some (.map entries)) :
    overlayAll values = some (.map (mergeAll (block values))) := by
  obtain ⟨rest, rfl⟩ := List.head?_eq_some_iff.1 h
  show some (overlay (overlayAll rest) (.map entries)) = _
  rw [overlay_map, baseOf_overlayAll]
  rfl

theorem mem_block {values : List Value} {entries : Mapping} (h : entries ∈ block values) :
    .map entries ∈ values := by
  induction values with
  | nil => cases h
  | cons value rest ih =>
    cases value with
    | scalar _ | list _ => cases h
    | map first =>
      rcases List.mem_cons.1 h with rfl | h
      · exact List.mem_cons_self
      · exact List.mem_cons_of_mem _ (ih h)

/-- All layers are well keyed, at every depth. -/
abbrev AllWellKeyed (layers : List Mapping) : Prop :=
  ∀ layer ∈ layers, (Value.map layer).WellKeyed

theorem AllWellKeyed.block {layers : List Mapping} (wellKeyed : AllWellKeyed layers)
    (key : Scalar) :
    AllWellKeyed (block (valuesAt layers key)) := by
  intro entries hmem
  obtain ⟨layer, hlayer, hget⟩ := List.mem_filterMap.1 (mem_block hmem)
  exact (wellKeyed_iff.1 (wellKeyed layer hlayer)).2 key _ hget

theorem get?_mergeAll {layers : List Mapping} (wellKeyed : AllWellKeyed layers) (key : Scalar) :
    (mergeAll layers).get? key = overlayAll (valuesAt layers key) := by
  induction layers with
  | nil => rfl
  | cons layer below ih =>
    obtain ⟨hlayer, hbelow⟩ := List.forall_mem_cons.1 wellKeyed
    show (merge (mergeAll below) layer).get? key = _
    rw [get?_merge (wellKeyed_iff.1 hlayer).1, ih hbelow]
    cases hvalue : layer.get? key with
    | none => simp [valuesAt, hvalue]
    | some value => simp [valuesAt, hvalue, overlayAll]

theorem keys_mergeAll {layers : List Mapping} (wellKeyed : AllWellKeyed layers) :
    (mergeAll layers).map (·.1) =
      firstKeys (layers.reverse.flatMap fun layer => layer.map (·.1)) := by
  induction layers with
  | nil => rfl
  | cons layer below ih =>
    obtain ⟨hlayer, hbelow⟩ := List.forall_mem_cons.1 wellKeyed
    have distinct := (wellKeyed_iff.1 hlayer).1
    have isNew_below : isNew ((mergeAll below).map (·.1)) =
        isNew (below.reverse.flatMap fun layer => layer.map (·.1)) := by
      rw [ih hbelow]
      exact funext (isNew_firstKeys _)
    calc (merge (mergeAll below) layer).map (·.1)
        = (mergeAll below).map (·.1) ++
            (layer.map (·.1)).filter (isNew ((mergeAll below).map (·.1))) := keys_merge distinct _
      _ = firstKeys (below.reverse.flatMap fun layer => layer.map (·.1)) ++
            (firstKeys (layer.map (·.1))).filter
              (isNew (below.reverse.flatMap fun layer => layer.map (·.1))) := by
          rw [isNew_below, firstKeys_of_distinct distinct, ih hbelow]
      _ = _ := by
          rw [← firstKeys_append, List.reverse_cons, List.flatMap_append, List.flatMap_singleton]

/-- Layers that are merged from the lowest up obey the law. -/
theorem isMerge_mergeAll {layers : List Mapping} (wellKeyed : AllWellKeyed layers) :
    IsMerge layers (mergeAll layers) := by
  -- the induction is on the size of the result, in which what a block makes is a part
  generalize hsize : sizeOf (mergeAll layers) = size
  induction size using Nat.strongRecOn generalizing layers with
  | ind size ih =>
    have hget := get?_mergeAll wellKeyed
    refine .intro (keys_mergeAll wellKeyed) (fun key hvalues => ?_)
      (fun key value hhighest plain => ?_) (fun key entries hhighest => ?_)
      (fun key entries inner hhighest hinner => ?_)
    · rw [hget, hvalues]
      rfl
    · obtain ⟨rest, hvalues⟩ := List.head?_eq_some_iff.1 hhighest
      rw [hget, hvalues, overlayAll_of_plain plain]
    · exact ⟨_, (hget key).trans (overlayAll_map hhighest)⟩
    · have hsmaller := sizeOf_lt_of_get? hinner
      rw [hget, overlayAll_map hhighest] at hinner
      obtain rfl : mergeAll (block (valuesAt layers key)) = inner :=
        Value.map.inj (Option.some.inj hinner)
      rw [Value.map.sizeOf_spec, hsize] at hsmaller
      exact ih _ (by omega) (wellKeyed.block key) rfl

/-- A well-keyed value that is laid over nothing stays as it is. -/
theorem overlay_none {value value' : Value} (h : Value.Alike value value') :
    overlay none value = value := by
  induction h with
  | same plain => exact overlay_of_plain plain none
  | @map entries entries' distinct _ domain _ ih =>
    have empty : Mapping.Distinct [] := .nil
    rw [overlay_map]
    refine congrArg Value.map (ext_get? (distinct_merge empty _) ?_ fun key => ?_)
    · rw [keys_merge distinct]
      exact List.filter_eq_self.2 fun _ _ => rfl
    · rw [get?_merge distinct]
      cases hvalue : entries.get? key with
      | none => rfl
      | some value =>
        obtain ⟨value', hvalue'⟩ := Option.isSome_iff_exists.1 (by simpa [hvalue] using domain key)
        exact congrArg some (ih key value value' hvalue hvalue')

namespace Layers

/-- The layers that there are, the highest first. -/
def fromTop (layers : Layers) : List Mapping := Source.all.reverse.filterMap layers

theorem merged_eq_mergeAll (layers : Layers) : layers.merged = mergeAll layers.fromTop := by
  unfold merged fromTop mergeAll
  rw [List.filterMap_reverse, List.foldr_reverse]

/-- The merged configuration is the one mapping that the law gives for the layers. -/
theorem merged_eq_iff_isMerge {layers : Layers}
    (wellKeyed : ∀ source mapping, layers source = some mapping → (Value.map mapping).WellKeyed)
    {result : Mapping} : layers.merged = result ↔ IsMerge layers.fromTop result := by
  have hmerge : IsMerge layers.fromTop layers.merged := by
    rw [merged_eq_mergeAll]
    refine isMerge_mergeAll fun layer hlayer => ?_
    obtain ⟨source, -, hsource⟩ := List.mem_filterMap.1 hlayer
    exact wellKeyed source layer hsource
  constructor
  · rintro rfl
    exact hmerge
  · exact hmerge.unique

/-- Layers in which mappings and plain values take turns, and `1` and `true` are one key. -/
def alternating : Layers
  | .defaults => some [(.str "log", .map [(.str "level", .str "INFO"), (.str "size", .int 9)]),
      (.int 1, .map [(.str "a", .null)])]
  | .system => some [(.str "log", .bool false)]
  | .user => some [(.bool true, .map [(.str "b", .map [(.str "x", .int 1)])])]
  | .environment => none
  | .commandLine => some [(.str "log", .map [(.str "file", .str "f")])]
  | .runtime => some [(.str "log", .map [(.str "level", .str "DEBUG")]),
      (.bool true, .map [(.str "b", .map [(.str "y", .int 2)]), (.str "a", .list [])])]

theorem merged_eq_iff_isMerge_alternating :
    (∀ source mapping, alternating source = some mapping → (Value.map mapping).WellKeyed) ∧
    IsMerge alternating.fromTop
      [(.str "log", .map [(.str "file", .str "f"), (.str "level", .str "DEBUG")]),
       (.int 1, .map [(.str "a", .list []),
         (.str "b", .map [(.str "x", .int 1), (.str "y", .int 2)])])] := by
  have wellKeyed : ∀ source mapping, alternating source = some mapping →
      (Value.map mapping).WellKeyed := by
    intro source mapping h
    have copy : merge [] mapping = mapping := by
      cases source <;> cases h <;> with_unfolding_all rfl
    have self := alike_merge_self mapping alike_nil
    rwa [copy] at self
  exact ⟨wellKeyed, (merged_eq_iff_isMerge wellKeyed).1 (by with_unfolding_all rfl)⟩

end Layers

end Config

end PathRights
