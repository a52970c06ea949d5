import PathRights.Pattern.Matcher
import PathRights.Role.Basic

/-!
Rules. A rule selects entries by a pattern, either directories or everything else, and gives them a
role. A rule without a role selects entries that are to be left alone.
-/

namespace PathRights

/-- A rule: what it selects, for which kind of entry, and the role it gives. -/
structure Rule where
  pattern : Text
  matcher : Pattern.Matcher
  forDirectories : Bool
  role : Option Role
  lineNumber : Nat
deriving DecidableEq, Repr

namespace Rule

/-- What a line holds in the place of a role to leave entries alone. -/
def noRole : Text := "-"

/-- The rule leaves what it selects alone. -/
def isNoOp (rule : Rule) : Bool := rule.role.isNone

/-- The name of the role, or what stands for none. -/
def target (rule : Rule) : Text :=
  match rule.role with
  | some role => role.name
  | none => noRole

/-- The rule as a line: its pattern, marked with `/` when it is for directories, and its role. -/
def describe (rule : Rule) : Text :=
  rule.pattern ++ (if rule.forDirectories then ['/'] else []) ++ " " ++ rule.target

end Rule

end PathRights
