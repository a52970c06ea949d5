import PathRights.Config.Loading
import PathRights.Value.Edit

/-!
Layers whose values are shared with those who handed them in or took them out. Merging copies
mappings but hands lists on as they are: a list that was loaded is the same list in the data it came
with, in its layer and in every configuration merged from it, and a change to it is seen in all of
them. A mapping that stands in no list is seen nowhere else.

So every list that stands in no other list has a cell of its own, and a slip with the number of the
cell stands for it. Slips pass through merging like any list.
-/

namespace PathRights.Config

/-- The items of the lists, by the number of their cell. -/
abbrev Cells := List (List Value)

namespace Cells

/-- What stands for the list in a cell. -/
def slip (cell : Nat) : Value := .list [.int cell]

/-- The cell that a slip stands for. -/
def ofSlip? : Value → Option Nat
  | .list [.scalar (.int n)] => some n.toNat
  | _ => none

mutual

/-- Puts the lists of a value into new cells. -/
def deposit (cells : Cells) : Value → Value × Cells
  | .scalar s => (.scalar s, cells)
  | .list items => (slip cells.length, cells ++ [items])
  | .map entries =>
    let (entries, cells) := depositEntries cells entries
    (.map entries, cells)

/-- Puts the lists of entries into new cells. -/
def depositEntries (cells : Cells) : List (Scalar × Value) → Mapping × Cells
  | [] => ([], cells)
  | (key, value) :: rest =>
    let (value, cells) := deposit cells value
    let (rest, cells) := depositEntries cells rest
    ((key, value) :: rest, cells)

end

mutual

/-- The value with the lists that its slips stand for. -/
def redeem (cells : Cells) : Value → Value
  | .scalar s => .scalar s
  | .list items =>
    match ofSlip? (.list items) with
    | some cell => .list (cells[cell]?.getD [])
    | none => .list items
  | .map entries => .map (redeemEntries cells entries)

/-- The entries with the lists that their slips stand for. -/
def redeemEntries (cells : Cells) : List (Scalar × Value) → Mapping
  | [] => []
  | (key, value) :: rest => (key, redeem cells value) :: redeemEntries cells rest

end

/-- The cell that steps lead into, with the steps inside its list. -/
def enter? : (value : Value) → (steps : List Value) → Option (Nat × List Value)
  | .map entries, step :: steps =>
    match (Value.map entries).part step with
    | .ok inner => if steps.isEmpty then none else enter? inner steps
    | .error _ => none
  | value, steps => (ofSlip? value).map fun cell => (cell, steps)

/-- Changes the part of a value that steps lead to. -/
def edit (cells : Cells) (value : Value) (steps : List Value) (new : Value) :
    Except EditError (Value × Cells) :=
  match enter? value steps with
  | some (cell, steps) => do
    match ← (Value.list (cells[cell]?.getD [])).setAt steps new with
    | .list items => .ok (value, cells.set cell items)
    | _ => .ok (value, cells)
  | none => do
    let (new, cells) := deposit cells new
    return (← value.setAt steps new, cells)

theorem redeemEntries_set (cells : Cells) (m : Mapping) (key : Scalar) (value : Value) :
    redeemEntries cells (m.set key value) = Mapping.set (redeemEntries cells m) key
      (redeem cells value) := by
  induction m with
  | nil => simp [Mapping.set, redeemEntries]
  | cons entry rest ih =>
    obtain ⟨k, v⟩ := entry
    by_cases h : k.sameKey key <;> simp [Mapping.set, redeemEntries, h, ih]

theorem get?_redeemEntries (cells : Cells) (m : Mapping) (key : Scalar) :
    Mapping.get? (redeemEntries cells m) key = (m.get? key).map (redeem cells) := by
  induction m with
  | nil => simp [Mapping.get?, redeemEntries]
  | cons entry rest ih =>
    obtain ⟨k, v⟩ := entry
    by_cases h : k.sameKey key <;> simp_all [Mapping.get?, redeemEntries]

mutual

/-- Laying over does not look into lists. -/
theorem redeem_overlay (cells : Cells) (below : Option Value) (value : Value) :
    redeem cells (overlay below value) =
      overlay (below.map (redeem cells)) (redeem cells value) := by
  match value with
  | .scalar s => simp [overlay, redeem]
  | .list items =>
    simp only [overlay, redeem]
    split <;> simp [overlay]
  | .map entries =>
    match below with
    | none => simp [overlay, redeem, redeemEntries_merge cells [] entries, redeemEntries]
    | some (.scalar s) =>
      simp [overlay, redeem, redeemEntries_merge cells [] entries, redeemEntries]
    | some (.list items) =>
      cases h : ofSlip? (.list items) <;>
        simp [overlay, redeem, redeemEntries_merge cells [] entries, redeemEntries, h]
    | some (.map base) => simp [overlay, redeem, redeemEntries_merge cells base entries]

/-- Merging does not look into lists: slips can be merged in their place. -/
theorem redeemEntries_merge (cells : Cells) (base : Mapping) (entries : List (Scalar × Value)) :
    redeemEntries cells (merge base entries) =
      merge (redeemEntries cells base) (redeemEntries cells entries) := by
  match entries with
  | [] => simp [merge, redeemEntries]
  | (key, value) :: rest =>
    rw [merge, redeemEntries_merge cells _ rest, redeemEntries_set,
      redeem_overlay cells (base.get? key) value, redeemEntries, merge, get?_redeemEntries]

end

end Cells

/-- Layers that share their lists: `data` is what was handed in last, and `result` the configuration
that was taken out last. Both are null at first. -/
structure Shared where
  layers : Layers
  cells : Cells
  data : Value
  result : Value

namespace Shared

/-- The shared layers with a mapping for one source. -/
def put (shared : Shared) (source : Source) (mapping : Mapping) : Shared :=
  let (mapping, cells) := shared.cells.depositEntries mapping
  { shared with layers := shared.layers.set source mapping, cells }

/-- Shares layers. -/
def start (layers : Layers) : Shared :=
  Source.all.foldl (fun shared source =>
    match layers source with
    | none => shared
    | some mapping => shared.put source mapping) ⟨fun _ => none, [], .null, .null⟩

/-- Hands in a value. -/
def hand (shared : Shared) (value : Value) : Shared :=
  let (data, cells) := shared.cells.deposit value
  { shared with data, cells }

/-- Makes what was handed in last a layer. -/
def loadData (shared : Shared) (source : Source) : Except NotMapping Shared :=
  (shared.layers.loadValue shared.data source).map fun layers => { shared with layers }

/-- Makes the mapping of a file a layer. -/
def loadFile (shared : Shared) (reader : Reader) (disk : Disk) (path : Text) (source : Source) :
    Except LoadError Shared :=
  (ofFile reader disk path).map fun mapping => shared.put source mapping

/-- The merged configuration, as it is now. -/
def merged (shared : Shared) : Mapping := shared.cells.redeemEntries shared.layers.merged

/-- Takes out the merged configuration. -/
def take (shared : Shared) : Shared := { shared with result := .map shared.layers.merged }

/-- Changes what was handed in last. -/
def editData (shared : Shared) (steps : List Value) (new : Value) : Except EditError Shared :=
  (shared.cells.edit shared.data steps new).map fun (data, cells) => { shared with data, cells }

/-- Changes what was taken out last. -/
def editResult (shared : Shared) (steps : List Value) (new : Value) : Except EditError Shared :=
  (shared.cells.edit shared.result steps new).map fun (result, cells) =>
    { shared with result, cells }

end Shared

end PathRights.Config
