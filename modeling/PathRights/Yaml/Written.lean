import PathRights.Yaml.Property

/-!
The parts of a document as they are written: scalars, sequences and mappings with their properties,
and references to parts that have an anchor.
-/

namespace PathRights.Yaml

/-- A part of a document. -/
inductive Written where
  | reference (name : Text)
  /-- A scalar, which is plain if it stands in no quotes. -/
  | scalar (properties : Properties) (plain : Bool) (text : Text)
  | sequence (properties : Properties) (items : List Written)
  | mapping (properties : Properties) (entries : List (Written × Written))
deriving Repr

namespace Written

/-- What is written where nothing is written. -/
def empty : Written := .scalar .none true []

/-- The empty scalar with properties. A tag makes it a quoted one. -/
def emptyWith (properties : Properties) : Written := .scalar properties true []

/-- The part with further properties. A reference has none. -/
def add (more : Properties) : Written → Except Fault Written
  | .reference _ => .error .malformed
  | .scalar properties plain text => (more.add properties).map fun both => .scalar both plain text
  | .sequence properties items => (more.add properties).map fun both => .sequence both items
  | .mapping properties entries => (more.add properties).map fun both => .mapping both entries

end Written

end PathRights.Yaml
