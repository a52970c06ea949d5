import PathRights.Tree.Node

/-!
Trees as listings. A record of a listing is the letter of an entry's type, its mode in octal and its
path below the root, with a blank between them; the first record is that of the root, whose path is
empty, and every other record stands behind that of the directory that its entry is in.
-/

namespace PathRights.Node

/-- The types of entries by their letters. -/
def typeLetters : List (Char × FileType) :=
  [('d', .directory), ('f', .regular), ('l', .symlink), ('p', .fifo), ('s', .socket),
   ('c', .charDevice), ('b', .blockDevice)]

/-- The entry of a record, without children, and its place. -/
def ofRecord? (record : Text) : Option (Location × Node) :=
  match record.breakAt (· == ' ') with
  | some ([letter], _, rest) =>
    match typeLetters.lookup letter, Text.breakAt (· == ' ') rest with
    | some type, some (mode, _, path) =>
      let location := (path.splitOn '/').filter (!·.isEmpty)
      if !mode.isEmpty && mode.all Text.isOctalDigit then
        some (location, ⟨location.getLast?.getD [], type, Text.valueIn 8 mode, .none, []⟩)
      else none
    | _, _ => none
  | _ => none

/-- The tree with an entry added to the directory at a place. -/
def addChild (child : Node) : Location → Node → Node
  | [], node => { node with children := node.children ++ [child] }
  | name :: rest, node =>
    { node with children := updateFirst name (addChild child rest) node.children }

/-- The tree with the entries of further records. -/
def addRecords (tree : Node) : List Text → Option Node
  | [] => some tree
  | record :: rest =>
    match ofRecord? record with
    | some (location, node) => addRecords (addChild node location.dropLast tree) rest
    | none => none

/-- The tree of a listing. -/
def ofListing? : List Text → Option Node
  | [] => none
  | record :: rest =>
    match ofRecord? record with
    | some ([], root) => root.addRecords rest
    | _ => none

example : (ofListing? ["d 755 ".toList, "f 640 a".toList]).map (·.size) = some 2 := by
  decide +kernel

end PathRights.Node
