import PathRights.Pattern.Token
import PathRights.Text.Quoted

/-!
Compiled patterns. A pattern that begins with `/` must match the whole relative path; any other may
begin after any `/` of it. A run of `**` components counts once. A matcher for directories accepts
only paths that end with `/`, any other only paths that do not.
-/

namespace PathRights.Pattern

/-- An expression over paths: tokens that must match the whole of the path, or what follows one of
its `/`. -/
structure Expression where
  anywhere : Bool
  tokens : List Token
deriving DecidableEq, Repr

namespace Expression

/-- The expression accepts a text. -/
def accepts (e : Expression) (text : Text) : Bool :=
  if e.anywhere then (starts text).any (Token.accepts e.tokens) else Token.accepts e.tokens text

/-- What the expression begins with when it may match after any `/`. -/
def lead (e : Expression) : Text := if e.anywhere then "(?:.*/)?" else []

/-- The expression in the notation of regular expressions. -/
def text (e : Expression) : Text := e.lead ++ e.tokens.flatMap Token.expression

end Expression

/-- A range of a class that runs backwards, with the expression up to its first end and the whole
expression. -/
structure BadRange where
  low : ClassItem
  high : ClassItem
  before : Text
  expression : Text
deriving DecidableEq, Repr

/-- Why a pattern cannot be compiled. -/
inductive PatternError where
  | empty
  | misplacedGlobstar (body : Text)
  | descendingRange (pattern : Text) (range : BadRange)
deriving DecidableEq, Repr

/-- The place of the range in words: its offset, and its line and column if there are several
lines. -/
def BadRange.place (range : BadRange) : Text :=
  "position " ++ Text.ofNat range.before.length ++
    if range.expression.contains '\n' then
      " (line " ++ Text.ofNat (range.before.count '\n' + 1) ++ ", column " ++
        Text.ofNat ((range.before.reverse.takeWhile (· != '\n')).length + 1) ++ ")"
    else []

/-- The error in words. -/
def PatternError.message : PatternError → Text
  | .empty => "Empty pattern"
  | .misplacedGlobstar body => "Misplaced '**' in pattern: " ++ body
  | .descendingRange pattern range =>
    "Invalid pattern " ++ pattern.quoted ++ ": bad character range " ++
      range.low.expression ++ "-" ++ range.high.expression ++ " at " ++ range.place

/-- The first backward range among members, given the expression in front of them. -/
def badMember? (whole : Text) : Text → List ClassMember → Option BadRange
  | _, [] => none
  | before, .single item :: rest => badMember? whole (before ++ item.expression) rest
  | before, .range low high :: rest =>
    if high.char < low.char then some ⟨low, high, before, whole⟩
    else badMember? whole (before ++ low.expression ++ "-" ++ high.expression) rest

/-- The first backward range among tokens, given the expression in front of them. -/
def badToken? (whole : Text) : Text → List Token → Option BadRange
  | _, [] => none
  | before, .bracket cls :: rest =>
    match badMember? whole (before ++ "[" ++ (if cls.negated then ['^'] else [])) cls.members with
    | some range => some range
    | none => badToken? whole (before ++ cls.expression) rest
  | before, token :: rest => badToken? whole (before ++ token.expression) rest

/-- The first backward range of an expression. -/
def Expression.badRange? (e : Expression) : Option BadRange := badToken? e.text e.lead e.tokens

/-- A compiled pattern; without an expression it accepts every path of its kind. -/
structure Matcher where
  pattern : Text
  directoryOnly : Bool
  expression : Option Expression
deriving DecidableEq, Repr

/-- The matcher accepts a relative path. -/
def Matcher.accepts (m : Matcher) (path : Text) : Bool :=
  (path.getLast? == some '/') == m.directoryOnly &&
    match m.expression with
    | none => true
    | some e => e.accepts path

/-- The text is `**` up to a `/` or to the end. -/
def startsWithGlobstar : Text → Bool
  | ['/', '*', '*'] => true
  | '/' :: '*' :: '*' :: '/' :: _ => true
  | _ => false

/-- The text with every run of `**` components that follow a `/` cut down to one. -/
def collapseGlobstars : Text → Text
  | '/' :: '*' :: '*' :: rest =>
    if startsWithGlobstar rest then collapseGlobstars rest
    else '/' :: '*' :: '*' :: collapseGlobstars rest
  | c :: rest => c :: collapseGlobstars rest
  | [] => []

/-- The text after the `**` components in front. -/
def dropGlobstars : Text → Text
  | '*' :: '*' :: '/' :: rest => dropGlobstars rest
  | text => text

/-- The text after the `**` components in front and a `/` before them, if there are any. -/
def dropLeadingGlobstars? : Text → Option Text
  | '/' :: '*' :: '*' :: '/' :: rest => some (dropGlobstars rest)
  | '*' :: '*' :: '/' :: rest => some (dropGlobstars rest)
  | _ => none

/-- The pattern without what fixes its place, and whether it may match after any `/`. -/
def splitAnchor (pattern : Text) : Bool × Text :=
  match dropLeadingGlobstars? pattern with
  | some rest => (true, rest)
  | none =>
    match pattern with
    | '/' :: rest => (false, rest)
    | _ => (true, pattern)

/-- The patterns that match every path of their kind. -/
def matchAll : List Text := ["*".toList, "**".toList, "/**".toList]

/-- The expression of a pattern whose anchor was taken off and whose runs of `**` were collapsed. A
pattern for directories takes the `/` at the end of the path, unless it ends with `/**`, which
takes everything. -/
def expressionOf (anywhere directoryOnly : Bool) (body : Text) : Option Expression :=
  (Token.read? body).map fun tokens =>
    ⟨anywhere,
      tokens ++ if directoryOnly ∧ ¬ "/**".toList.isSuffixOf body then [.char '/'] else []⟩

/-- Compiles a pattern, a `/` that marks it for directories taken off. Without text, it is the root
of the tree. -/
def compile (pattern : Text) (directoryOnly : Bool) : Except PatternError Matcher :=
  if matchAll.contains pattern then .ok ⟨pattern, directoryOnly, none⟩
  else if pattern.isEmpty then
    if directoryOnly then .ok ⟨pattern, directoryOnly, some ⟨false, [.char '/']⟩⟩
    else .error .empty
  else
    let (anywhere, rest) := splitAnchor pattern
    let body := collapseGlobstars rest
    if body.isEmpty ∨ body = "**".toList then .ok ⟨pattern, directoryOnly, none⟩
    else
      match expressionOf anywhere directoryOnly body with
      | none => .error (.misplacedGlobstar body)
      | some e =>
        match e.badRange? with
        | some range => .error (.descendingRange pattern range)
        | none => .ok ⟨pattern, directoryOnly, some e⟩

end PathRights.Pattern
