import PathRights.Value.Printer

/-!
The grammar of patterns. A pattern is read from left to right, a backslash always together with the
character after it. The plain `/` separate components; a component is `**`, or is not empty and has
no two plain `*` next to each other. A `/` in front and a `/` at the end are allowed, and the bare
`/` is a pattern of its own.
-/

namespace PathRights.Pattern

/-- A unit of a pattern: a character by itself, or one behind a backslash. -/
inductive Piece where
  | plain (c : Char)
  | pair (c : Char)
deriving DecidableEq, Repr

/-- The units of a text. A backslash at the end has nothing to pair with. -/
def pieces : Text → Option (List Piece)
  | [] => some []
  | ['\\'] => none
  | '\\' :: c :: rest => (pieces rest).map (.pair c :: ·)
  | c :: rest => (pieces rest).map (.plain c :: ·)

/-- The units as text. -/
def textOf : List Piece → Text
  | [] => []
  | .plain c :: rest => c :: textOf rest
  | .pair c :: rest => '\\' :: c :: textOf rest

/-- The groups of units between the separators. -/
def components : List Piece → List (List Piece)
  | [] => [[]]
  | piece :: rest =>
    if piece = .plain '/' then [] :: components rest
    else
      match components rest with
      | [] => [[piece]]
      | first :: more => (piece :: first) :: more

/-- A plain `*` stands next to another. -/
def hasStarPair : List Piece → Bool
  | .plain '*' :: .plain '*' :: _ => true
  | _ :: rest => hasStarPair rest
  | [] => false

/-- The units of a component `**`. -/
def globstar : List Piece := [.plain '*', .plain '*']

/-- The units make up a component. -/
def isComponent (component : List Piece) : Bool :=
  component == globstar || (!component.isEmpty && !hasStarPair component)

/-- The list without an empty group in front. -/
def dropLeadingSlash : List (List Piece) → List (List Piece)
  | [] :: rest => rest
  | groups => groups

/-- The list without an empty group at the end. -/
def dropTrailingSlash (groups : List (List Piece)) : List (List Piece) :=
  if groups.getLast? = some [] then groups.dropLast else groups

/-- The components of a pattern, the slashes around it left out. -/
def body (units : List Piece) : List (List Piece) :=
  dropTrailingSlash (dropLeadingSlash (components units))

/-- The text follows the grammar. -/
def isGrammatical (text : Text) : Bool :=
  match pieces text with
  | none => false
  | some units =>
    units == [.plain '/'] || (!(body units).isEmpty && (body units).all isComponent)

/-- Why a value is no pattern. -/
inductive SyntaxError where
  | empty
  | notText (value : Value)
  | nullCharacter
  | malformed (pattern : Text)
deriving Repr

/-- The error in words. -/
def SyntaxError.message : SyntaxError → Text
  | .empty => "Pattern cannot be empty"
  | .notText value => "Pattern must be string, got " ++ value.typeText
  | .nullCharacter => "Invalid pattern: contains null bytes"
  | .malformed pattern => "Invalid pattern syntax: " ++ pattern

/-- Checks a text that should be a pattern. A line feed after a pattern is accepted. -/
def checkText (pattern : Text) : Except SyntaxError Text :=
  if pattern.isEmpty then .error .empty
  else if pattern.contains '\x00' then .error .nullCharacter
  else if isGrammatical pattern ∨ isGrammatical pattern.dropFinalNewline then .ok pattern
  else .error (.malformed pattern)

/-- Checks a value that should be a pattern. A value that counts as nothing is an empty pattern
whatever its type. -/
def check (value : Value) : Except SyntaxError Text :=
  if value.isEmpty then .error .empty
  else
    match value.str? with
    | some pattern => checkText pattern
    | none => .error (.notText value)

/-- The units are the text cut into pieces. -/
theorem textOf_pieces {text : Text} {units : List Piece} (h : pieces text = some units) :
    textOf units = text := by
  fun_induction pieces text generalizing units with
  | case1 => simp_all [textOf]
  | case2 => simp at h
  | case3 c rest ih =>
    obtain ⟨more, hmore, rfl⟩ := Option.map_eq_some_iff.1 h
    simp [textOf, ih hmore]
  | case4 c rest _ _ ih =>
    obtain ⟨more, hmore, rfl⟩ := Option.map_eq_some_iff.1 h
    simp [textOf, ih hmore]

example : isGrammatical "/" ∧ isGrammatical "/a/**/*.log" ∧ isGrammatical "\\**" := by decide
example : isGrammatical "//" = false ∧ isGrammatical "a**" = false ∧
    isGrammatical "a\\" = false := by
  decide

end PathRights.Pattern
