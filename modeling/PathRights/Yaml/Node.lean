import PathRights.Value.Mapping
import PathRights.Yaml.Document
import PathRights.Yaml.Meaning

/-!
Nodes: the parts of a document with their tags, where every reference has been replaced by what it
refers to; and the values that nodes denote. A mapping takes over the entries of the mappings that
its merge keys name, in front of its own, so that its own win.

Faults are looked for level by level, since a document whose parts nearer to the root are faulty is
not looked at further inside.
-/

namespace PathRights.Yaml

/-- A part of a document with its tag. -/
inductive Node where
  | scalar (tag : Tag) (text : Text)
  | sequence (tag : Tag) (items : List Node)
  | mapping (tag : Tag) (entries : List (Node × Node))
deriving Repr

namespace Node

/-! ### References -/

/-- The parts with an anchor so far; the ones that are still being read have no node yet. -/
abbrev Anchors := List (Text × Option Node)

/-- Opens an anchor. No two parts have the same, and the tag must be a declared one. -/
def openAnchor (anchors : Anchors) (properties : Properties) : Except Fault Anchors :=
  if properties.tag = some .undeclared then .error .malformed
  else
    match properties.anchor with
    | none => .ok anchors
    | some name =>
      if (anchors.lookup name).isSome then .error .malformed else .ok ((name, none) :: anchors)

/-- Gives an anchor its node. -/
def closeAnchor (anchors : Anchors) (properties : Properties) (node : Node) : Anchors :=
  match properties.anchor with
  | none => anchors
  | some name => (name, some node) :: anchors

/-- The tag of a scalar. -/
def scalarTag (properties : Properties) (plain : Bool) (text : Text) : Tag :=
  match properties.tag with
  | some (.named tag) => tag
  | some .byForm => Tag.ofPlain text
  | some .undeclared => .unknown
  | none => if plain then Tag.ofPlain text else .text

/-- The tag of a sequence or a mapping. -/
def collectionTag (properties : Properties) (usual : Tag) : Tag :=
  match properties.tag with
  | some (.named tag) => tag
  | _ => usual

mutual

/-- The node of a part, and the anchors behind it. -/
def ofWritten (anchors : Anchors) : Written → Except Fault (Node × Anchors)
  | .reference name =>
    match anchors.lookup name with
    | some (some node) => .ok (node, anchors)
    | some none => .error .endless
    | none => .error .malformed
  | .scalar properties plain text => do
    let node := scalar (scalarTag properties plain text) text
    return (node, closeAnchor (← openAnchor anchors properties) properties node)
  | .sequence properties items => do
    let (nodes, anchors) ← ofItems (← openAnchor anchors properties) items
    let node := sequence (collectionTag properties .sequence) nodes
    return (node, closeAnchor anchors properties node)
  | .mapping properties entries => do
    let (nodes, anchors) ← ofEntries (← openAnchor anchors properties) entries
    let node := mapping (collectionTag properties .mapping) nodes
    return (node, closeAnchor anchors properties node)

/-- The nodes of the items of a sequence. -/
def ofItems (anchors : Anchors) : List Written → Except Fault (List Node × Anchors)
  | [] => .ok ([], anchors)
  | item :: items => do
    let (node, anchors) ← ofWritten anchors item
    let (nodes, anchors) ← ofItems anchors items
    return (node :: nodes, anchors)

/-- The nodes of the entries of a mapping. -/
def ofEntries (anchors : Anchors) :
    List (Written × Written) → Except Fault (List (Node × Node) × Anchors)
  | [] => .ok ([], anchors)
  | (key, value) :: entries => do
    let (key, anchors) ← ofWritten anchors key
    let (value, anchors) ← ofWritten anchors value
    let (nodes, anchors) ← ofEntries anchors entries
    return ((key, value) :: nodes, anchors)

end

/-- The node of a text. -/
def read (text : Text) : Except Fault Node := do
  return (← ofWritten [] (← Written.read text)).1

/-! ### Merged entries -/

/-- The tag of a node. -/
def tag : Node → Tag
  | .scalar tag _ | .sequence tag _ | .mapping tag _ => tag

/-- The node as a key, where the tag for what stands by default makes it a text. -/
def asKey : Node → Node
  | .scalar .default text => .scalar .text text
  | node => node

mutual

/-- The entries that merge keys bring in, and the other ones. -/
def splitEntries : List (Node × Node) → Except Fault (List (Node × Node) × List (Node × Node))
  | [] => .ok ([], [])
  | (key, value) :: rest => do
    if key.tag = .merge then
      let brought ← broughtIn value
      let (merged, own) ← splitEntries rest
      return (brought ++ merged, own)
    else
      let (merged, own) ← splitEntries rest
      return (merged, (key.asKey, value) :: own)

/-- The entries that the value of a merge key brings in: those of a mapping, or of several, of which
the first comes last. -/
def broughtIn : Node → Except Fault (List (Node × Node))
  | .mapping _ entries => do
    let (merged, own) ← splitEntries entries
    return merged ++ own
  | .sequence _ items => broughtInByAll items
  | .scalar .. => .error .malformed

/-- The entries that several mappings bring in. -/
def broughtInByAll : List Node → Except Fault (List (Node × Node))
  | [] => .ok []
  | node :: rest => do
    match node with
    | .mapping _ entries =>
      let (merged, own) ← splitEntries entries
      return (← broughtInByAll rest) ++ (merged ++ own)
    | _ => .error .malformed

end

/-- All entries of a mapping, those that were brought in first. -/
def allEntries (entries : List (Node × Node)) : Except Fault (List (Node × Node)) := do
  let (merged, own) ← splitEntries entries
  return merged ++ own

/-! ### Faults -/

/-- What is wrong with a node itself, without what is inside it. -/
def ownFault? : Node → Option Fault
  | .scalar .sequence _ | .scalar .mapping _ => none
  | .scalar tag text =>
    match tag.scalar text with
    | .error fault => some fault
    | .ok _ => none
  | .sequence .sequence _ | .sequence .mapping _ => none
  | .mapping .sequence _ | .mapping .mapping _ => none
  | .sequence .. | .mapping .. => some .malformed

/-- What is wrong with a node as a key, which must be a scalar. -/
def keyFault? (key : Node) : Option Fault :=
  key.ownFault?.or (match key with
    | .scalar .sequence _ | .scalar .mapping _ => some .malformed
    | .scalar .. => none
    | _ => some .malformed)

/-- The nodes right inside a node, if they can be looked at. -/
def inside : Node → Except Fault (List Node)
  | .sequence .sequence items => .ok items
  | .mapping .mapping entries => do
    return (← allEntries entries).flatMap fun (key, value) => [key, value]
  | .scalar .sequence _ | .scalar .mapping _ => .error .malformed
  | .scalar .. => .ok []
  | _ => .error .malformed

/-- The first fault of the entries of a mapping themselves. -/
def entriesFault? (entries : List (Node × Node)) : Option Fault :=
  entries.findSome? fun (key, value) => key.keyFault?.or value.ownFault?

/-- The first fault of the nodes right inside a node. -/
def innerFault? : Node → Option Fault
  | .mapping .mapping entries =>
    match allEntries entries with
    | .error fault => some fault
    | .ok entries => entriesFault? entries
  | node =>
    match node.inside with
    | .error fault => some fault
    | .ok nodes => nodes.findSome? ownFault?

/-- The first fault of the nodes `depth` levels inside a node. -/
def faultAt? : (depth : Nat) → Node → Option Fault
  | 0, node => node.innerFault?
  | depth + 1, node => (node.inside.toOption.getD []).findSome? (faultAt? depth)

mutual

/-- How many levels there are inside a node. -/
def height : Node → Nat
  | .scalar .. => 0
  | .sequence _ items => heightOfItems items + 1
  | .mapping _ entries => heightOfEntries entries + 1

/-- How many levels there are inside the items of a sequence. -/
def heightOfItems : List Node → Nat
  | [] => 0
  | item :: items => max (height item) (heightOfItems items)

/-- How many levels there are inside the entries of a mapping. -/
def heightOfEntries : List (Node × Node) → Nat
  | [] => 0
  | (key, value) :: entries => max (max (height key) (height value)) (heightOfEntries entries)

end

/-- The fault that a node is refused for, if any: the first of those nearest to the root. -/
def fault? (node : Node) : Option Fault :=
  node.ownFault?.or ((List.range (node.height + 1)).findSome? fun depth => faultAt? depth node)

/-! ### Values -/

/-- The scalar that a key denotes. -/
def keyScalar : Node → Except Fault Scalar
  | .scalar tag text => tag.scalar text
  | _ => .error .malformed

mutual

/-- The value of a node of which no part is faulty. `fuel` bounds the depth. -/
def valueOf : (fuel : Nat) → Node → Except Fault Value
  | 0, _ => .error .malformed
  | _, .scalar tag text => (tag.scalar text).map .scalar
  | fuel + 1, .sequence _ items => (valuesOf fuel items).map .list
  | fuel + 1, .mapping _ entries => do
    let entries ← entriesOf fuel (← allEntries entries)
    return .map (Mapping.ofEntries entries)

/-- The values of the items of a sequence. -/
def valuesOf (fuel : Nat) : List Node → Except Fault (List Value)
  | [] => .ok []
  | item :: items => do return (← valueOf fuel item) :: (← valuesOf fuel items)

/-- The entries of a mapping. -/
def entriesOf (fuel : Nat) : List (Node × Node) → Except Fault (List (Scalar × Value))
  | [] => .ok []
  | (key, value) :: entries => do
    return (← key.keyScalar, ← valueOf fuel value) :: (← entriesOf fuel entries)

end

/-- The value of a node. -/
def value (node : Node) : Except Fault Value :=
  match node.fault? with
  | some fault => .error fault
  | none => valueOf (node.height + 1) node

end Node

/-- The value of the only document of a text. -/
def read (text : Text) : Except Fault Value := do (← Node.read text).value

/-- The faults as a reader tells them. -/
def Fault.toRead : Fault → ReadFault
  | .malformed => .malformed
  | .endless => .endless
  | fault => .crash ⟨fault.kind, fault.message⟩

/-- The reader of the language. It knows no tags for sets, pairs or bytes, and takes every part that
refers to itself for one without end. -/
def reader : Reader where
  read text := (read text).mapError Fault.toRead

end PathRights.Yaml
