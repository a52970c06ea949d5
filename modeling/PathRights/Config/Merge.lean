import PathRights.Value.Mapping

/-!
Merging mappings. What lies above wins, except that a mapping over a mapping is merged with it. The
keys below keep their places and new keys come behind them.
-/

namespace PathRights.Config

mutual

/-- A value, laid over what its key has below. -/
def overlay (below : Option Value) : Value → Value
  | .map entries =>
    match below with
    | some (.map base) => .map (merge base entries)
    | _ => .map (merge [] entries)
  | value => value

/-- A mapping, laid over another. -/
def merge (base : Mapping) : List (Scalar × Value) → Mapping
  | [] => base
  | (key, value) :: rest => merge (base.set key (overlay (base.get? key) value)) rest

end

end PathRights.Config
