import PathRights.Role.Basic
import PathRights.Text.Numeral

/-!
User and group databases as files with a line for each account. The fields of a line stand between
colons: the name is the first, the number the third, and the home of a user the sixth.
-/

namespace PathRights.Accounts

/-- The name and the number of an account. -/
def ofLine? (line : Text) : Option (Text × Int) :=
  match line.splitOn ':' with
  | name :: _ :: number :: _ =>
    if !number.isEmpty && number.all Text.isDigit then some (name, (Text.valueIn 10 number : Int))
    else none
  | _ => none

/-- The accounts of a file of users and a file of groups. -/
def ofFiles (users groups : Text) : Accounts :=
  ofLists ((users.splitOn '\n').filterMap ofLine?) ((groups.splitOn '\n').filterMap ofLine?)

/-- The name and the home of a user. -/
def homeOfLine? (line : Text) : Option (Text × Text) :=
  match line.splitOn ':' with
  | name :: _ :: _ :: _ :: _ :: home :: _ => some (name, home)
  | _ => none

/-- The homes of a file of users. -/
def homesOfFile (users : Text) : List (Text × Text) := (users.splitOn '\n').filterMap homeOfLine?

example : ofLine? "web:x:33:33::/:/bin/sh" = some ("web".toList, 33) := by decide +kernel

end PathRights.Accounts
