import PathRights.Text.Basic

/-!
Paths as text: joining, and the normal form of a path, without empty components, `.` and the `..`
that can be taken back. Two slashes in front, and no more than two, are kept.
-/

namespace PathRights.Path

/-- The path of `name` below `directory`. An absolute `name` stands for itself. -/
def join (directory name : Text) : Text :=
  if name.head? = some '/' then name
  else if directory.isEmpty ∨ directory.getLast? = some '/' then directory ++ name
  else directory ++ "/" ++ name

/-- Adds a component to a normal path, whose components are given in reverse. -/
def pushComponent (rooted : Bool) (done : List Text) (component : Text) : List Text :=
  if component.isEmpty ∨ component = "." then done
  else if component = ".." then
    match done with
    | [] => if rooted then [] else [component]
    | last :: rest => if last = ".." then component :: done else rest
  else component :: done

/-- The slashes in front of a normal path: none, one, or exactly two. -/
def leadingSlashes (path : Text) : Text :=
  match path with
  | '/' :: '/' :: '/' :: _ => "/"
  | '/' :: '/' :: _ => "//"
  | '/' :: _ => "/"
  | _ => []

/-- The normal form of a path. -/
def normalize (path : Text) : Text :=
  let lead := leadingSlashes path
  let done := (path.splitOn '/').foldl (pushComponent (!lead.isEmpty)) []
  let normal := lead ++ List.intercalate ['/'] done.reverse
  if normal.isEmpty then "." else normal

/-- The path without empty components and `.`; a `..` stays. -/
def tidy (path : Text) : Text :=
  let components := (path.splitOn '/').filter fun (c : Text) => !c.isEmpty && c != ['.']
  let tidy := leadingSlashes path ++ List.intercalate ['/'] components
  if tidy.isEmpty then "." else tidy

/-- An absolute path with no more than one slash in front. -/
def withOneSlash (path : Text) : Text :=
  match path with
  | '/' :: '/' :: rest => '/' :: rest
  | _ => path

/-- The normal absolute form of a path that is relative to `base`. -/
def absolute (base path : Text) : Text := normalize (join base path)

/-- The path of a place below `root`: the names, each joined to what is in front of it. -/
def below (root : Text) (names : List Text) : Text := names.foldl join root

/-- The names that lead from `root` to `path`, if they do. -/
def namesBelow? (root path : Text) : Option (List Text) :=
  if path = root then some []
  else
    let inside := if root.getLast? = some '/' then root else root ++ "/"
    if inside.isPrefixOf path then some ((path.drop inside.length).splitOn '/') else none

example : normalize "/srv/./app//x/.." = "/srv/app" := by decide
example : absolute "/work" "../../../x" = "/x" ∧ absolute "/work" "//srv" = "//srv" := by decide
example : absolute "/work" "///srv/" = "/srv" ∧ absolute "/work" "." = "/work" := by decide

end PathRights.Path
