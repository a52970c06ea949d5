import PathRights.Text.Numeral
import PathRights.Tree.Operation

/-!
Calls written as commands of a shell, so that they can be carried out elsewhere.
-/

namespace PathRights

/-- A word in single quotes for a shell. A quote inside it is put between the quoted parts, behind a
backslash. -/
def Text.shellQuoted (word : Text) : Text :=
  '\'' :: word.flatMap (fun c => if c = '\'' then "'\\''".toList else [c]) ++ ['\'']

/-- The command that makes a call. -/
def Call.command : Call → Text
  | .chown path uid gid =>
    "chown -h " ++ Text.ofInt uid ++ ":" ++ Text.ofInt gid ++ " -- " ++ path.shellQuoted
  | .chmod path mode => "chmod " ++ Text.ofMode mode ++ " -- " ++ path.shellQuoted

example : Text.shellQuoted "a'b" = "'a'\\''b'" := by decide

end PathRights
