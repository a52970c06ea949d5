/-!
The types of file-system entries and the kinds in which rules see them: directories, regular files,
symbolic links, and everything else.
-/

namespace PathRights

/-- What an entry is to the file system. -/
inductive FileType where
  | directory
  | regular
  | symlink
  | fifo
  | socket
  | charDevice
  | blockDevice
deriving DecidableEq, Repr

/-- What an entry is to the rules. -/
inductive EntryKind where
  | file
  | directory
  | symlink
  | other
deriving DecidableEq, Repr

/-- The kind of an entry of a type. -/
def FileType.kind : FileType → EntryKind
  | .directory => .directory
  | .regular => .file
  | .symlink => .symlink
  | _ => .other

/-- The type that the high bits of a mode tell, of four bits above twelve permission bits. -/
def FileType.ofMode? (mode : Nat) : Option FileType :=
  match mode / 0o10000 % 0o20 with
  | 0o1 => some .fifo
  | 0o2 => some .charDevice
  | 0o4 => some .directory
  | 0o6 => some .blockDevice
  | 0o10 => some .regular
  | 0o12 => some .symlink
  | 0o14 => some .socket
  | _ => none

/-- The kind that a mode tells. -/
def EntryKind.ofMode (mode : Nat) : EntryKind :=
  match FileType.ofMode? mode with
  | some type => type.kind
  | none => .other

example : EntryKind.ofMode 0o40755 = .directory ∧ EntryKind.ofMode 0o120777 = .symlink := by decide

end PathRights
